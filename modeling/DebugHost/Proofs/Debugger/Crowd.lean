import DebugHost.Proofs.Session.Alone

/-! # Any number of users

The calls of any number of users go on beside each other, beside the session and beside reader and
writer, in any order (`Crowd.after`). What happens next is one action of one task, one input that the
session takes from its queues, the beginning of a call, or something from outside. Which scripts users
may call is left open (`fit`); a call carries the proof that its script is one of them.

Whatever happens, a task stays as it is, does the next action of its script, ends or begins
(`Crowd.fares`). -/

namespace DebugHost

open DebugHost.Session DebugHost.Script

variable {ρ : Type}

/-- The next action of a task, and the task after it. -/
def Task.next? : Task ρ → Option ((a : Action) × (a.Reply → Task ρ))
  | .watch (.act a next) => some ⟨a, fun r => .watch (next r)⟩
  | .call id (.act a next) => some ⟨a, fun r => .call id (next r)⟩
  | _ => none

/-- A task that has come to its result, and what is told of it. -/
inductive Task.Over : Task ρ → List (Nat × ρ) → Prop where
  | watch : Over (.watch (.done ())) []
  | call (id : Nat) (r : ρ) : Over (.call id (.done r)) [(id, r)]

namespace Debugger

/-- What a task does next: an action, its end, or nothing. -/
theorem task_cases (t : Task ρ) :
    (∃ a next, t.next? = some ⟨a, next⟩) ∨ (∃ told, t.Over told) ∨ bare t = true := by
  cases t with
  | watch s =>
    cases s with
    | done u => exact .inr (.inl ⟨_, .watch⟩)
    | act a next => exact .inl ⟨a, _, rfl⟩
  | call id s =>
    cases s with
    | done r => exact .inr (.inl ⟨_, .call id r⟩)
    | act a next => exact .inl ⟨a, _, rfl⟩
  | _ => exact .inr (.inr rfl)

/-- Who has something to do has a script. -/
theorem bare_of_next {t : Task ρ} {y : (a : Action) × (a.Reply → Task ρ)} (h : t.next? = some y) :
    bare t = false := by
  cases t with
  | watch s => rfl
  | call id s => rfl
  | _ => cases h

/-- What the task `me` does when it goes on. -/
def own? (d : Debugger ρ) (me : Nat) : Option Deed :=
  match (d.task? me).bind Task.next? with
  | some ⟨a, _⟩ => ((d.without me).attempt me a).2.deed?
  | none => none

/-- What comes of it when the task `me` goes on, and what it does. -/
inductive Goes (d : Debugger ρ) (me : Nat) : Option Deed → Debugger ρ → Prop where
  /-- There is no script to go on with. -/
  | idle : Goes d me none d
  /-- Its next action is done. -/
  | does (t : Task ρ) (x : Deed) (next : x.action.Reply → Task ρ) (e : Debugger ρ)
    (before : d.task? me = some t) (action : t.next? = some ⟨x.action, next⟩)
    (done : (d.without me).attempt me x.action = (e, .got x.reply)) :
    Goes d me (some x) (e.put me (next x.reply))
  /-- It has to wait. -/
  | waits (t : Task ρ) (a : Action) (next : a.Reply → Task ρ) (e : Debugger ρ) (ss : List Signal)
    (deadline : Option Nat) (before : d.task? me = some t) (action : t.next? = some ⟨a, next⟩)
    (waits : (d.without me).attempt me a = (e, .wait ss deadline)) : Goes d me none (e.put me t)
  /-- It has come to its result. -/
  | ends (t : Task ρ) (told : List (Nat × ρ)) (before : d.task? me = some t) (ended : t.Over told) :
    Goes d me none { d.without me with finished := d.finished ++ told }

/-- Where a task attempts its next action. -/
theorem stride_acts {d : Debugger ρ} {me : Nat} {t : Task ρ} {a : Action} {next : a.Reply → Task ρ}
    (ht : d.task? me = some t) (hn : t.next? = some ⟨a, next⟩) :
    d.stride me = match (d.without me).attempt me a with
      | (e, .got r) => e.put me (next r)
      | (e, .wait _ _) => e.put me t := by
  cases t with
  | watch s =>
    cases s with
    | done u => cases hn
    | act a' next' =>
      cases hn
      simp only [stride, ht, pace]
      cases (d.without me).attempt me a with
      | mk e o => cases o <;> rfl
  | call id s =>
    cases s with
    | done u => cases hn
    | act a' next' =>
      cases hn
      simp only [stride, ht, pace]
      cases (d.without me).attempt me a with
      | mk e o => cases o <;> rfl
  | _ => cases hn

theorem goes (d : Debugger ρ) (me : Nat) : Goes d me (own? d me) (d.stride me) := by
  cases ht : d.task? me with
  | none =>
    have hown : own? d me = none := by simp only [own?, ht, Option.bind_none]
    have hidle : d.stride me = d := by simp only [stride, ht]
    rw [hown, hidle]
    exact .idle
  | some t =>
    rcases task_cases t with ⟨a, next, hn⟩ | ⟨told, hover⟩ | hbare
    · have hstride := stride_acts ht hn
      have hown : own? d me = ((d.without me).attempt me a).2.deed? := by
        simp only [own?, ht, Option.bind_some, hn]
      cases ha : (d.without me).attempt me a with
      | mk e o =>
        simp only [ha] at hstride hown
        cases o with
        | got r =>
          rw [hstride, hown]
          exact .does t ⟨a, r⟩ next e ht hn ha
        | wait ss deadline =>
          rw [hstride, hown]
          exact .waits t a next e ss deadline ht hn ha
    · cases hover with
      | watch =>
        have hown : own? d me = none := by simp only [own?, ht]; rfl
        have hstride : d.stride me = { d.without me with finished := d.finished ++ [] } := by
          simp only [stride, ht, List.append_nil]
          rfl
        rw [hown, hstride]
        exact .ends _ _ ht .watch
      | call id r =>
        have hown : own? d me = none := by simp only [own?, ht]; rfl
        have hstride : d.stride me = { d.without me with finished := d.finished ++ [(id, r)] } := by
          simp only [stride, ht]
          rfl
        rw [hown, hstride]
        exact .ends _ _ ht (.call id r)
    · have hown : own? d me = none := by
        simp only [own?, ht, Option.bind_some]
        cases t <;> first | rfl | cases hbare
      have hidle : d.stride me = d := by
        simp only [stride, ht]
        cases t <;> first | rfl | cases hbare
      rw [hown, hidle]
      exact .idle

/-- Of the other tasks an attempt takes no notice. -/
theorem attempt_without (d : Debugger ρ) (k me : Nat) (a : Action) :
    ((d.without k).attempt me a).2 = (d.attempt me a).2 ∧
    ((d.without k).attempt me a).1.room = (d.attempt me a).1.room ∧
    ((d.without k).attempt me a).1.link = (d.attempt me a).1.link := by
  have hroom : (d.without k).room = d.room := rfl
  have hlink : (d.without k).link = d.link := rfl
  have hnow : (d.without k).now = d.now := rfl
  cases a with
  | send command arguments =>
    simp only [attempt, send, hlink]
    cases d.link.connection.send command arguments with
    | error e => exact ⟨rfl, rfl, rfl⟩
    | ok r => exact ⟨rfl, rfl, rfl⟩
  | response x =>
    simp only [attempt, hlink, hnow]
    cases x.standing d.link.connection d.now <;> exact ⟨rfl, rfl, rfl⟩
  | post c =>
    simp only [attempt, post, hroom]
    split <;> exact ⟨rfl, rfl, rfl⟩
  | order o =>
    simp only [attempt, hroom]
    split <;> exact ⟨rfl, rfl, rfl⟩
  | outcome ticket =>
    simp only [attempt, hroom]
    cases d.room.outcome? ticket <;> exact ⟨rfl, rfl, rfl⟩
  | await states deadline =>
    simp only [attempt, hroom, hnow]
    split
    · exact ⟨rfl, rfl, rfl⟩
    · split <;> exact ⟨rfl, rfl, rfl⟩
  | lock =>
    simp only [attempt, hroom]
    rcases d.room.lock me with ⟨room, b⟩
    cases b <;> exact ⟨rfl, rfl, rfl⟩
  | unlock s =>
    simp only [attempt, hroom]
    rcases d.room.unlock s with ⟨room, o⟩
    cases o <;> exact ⟨rfl, rfl, rfl⟩
  | acquire t =>
    simp only [attempt, hroom]
    rcases d.room.state.tree.acquire me t with ⟨b, tree⟩
    cases b <;> exact ⟨rfl, rfl, rfl⟩
  | deliver t r =>
    simp only [attempt, hroom]
    rcases d.room.state.tree.deliver t r with ⟨v, tree, woken⟩
    have h := foldl_signal ((d.without k).withTree tree) .slot woken
    have h' := foldl_signal (d.withTree tree) .slot woken
    exact ⟨trivial, h.1.trans h'.1.symm, h.2.trans h'.2.symm⟩
  | _ => exact ⟨rfl, rfl, rfl⟩

end Debugger

namespace Crowd

open Debugger

/-! ### What may happen -/

/-- What comes from outside: octets, the work of reader and writer, time, and the news that the program
has exited. -/
def outer : Debugger.Move ρ → Bool
  | .read => true
  | .pass => true
  | .write => true
  | .arrive _ => true
  | .arriveEnd => true
  | .stopPeer => true
  | .shutdown => true
  | .clock _ => true
  | .act _ (.post (.exited _)) => true
  | _ => false

/-- What may happen next, where users call scripts that are fit. -/
inductive Happening (fit : Script ρ → Prop) where
  /-- The task `me` attempts the next action of its script, or is over. -/
  | task (me : Nat)
  /-- The session takes its next input, or leaves if it has ended. -/
  | session
  /-- A user begins the call `id`. -/
  | call (id : Nat) (s : Script ρ) (fits : fit s)
  /-- Something comes from outside. -/
  | outside (m : Debugger.Move ρ) (may : outer m = true)
  /-- A task without a script is set aside. -/
  | lift (me : Nat)
  /-- A task without a script is taken up again. -/
  | lay (me : Nat) (t : Task ρ)
  /-- Schedule, log and output are from now on those of another debugger. -/
  | aside (e : Debugger ρ)

variable {fit : Script ρ → Prop}

/-- The debugger after something has happened. -/
def happen (d : Debugger ρ) : Happening fit → Debugger ρ
  | .task me => d.stride me
  | .session => d.attend
  | .call id s _ => d.call id s
  | .outside m _ => d.move m
  | .lift me => if (d.task? me).any bare then d.without me else d
  | .lay me t => if bare t ∧ me < d.nextTask ∧ ∀ p ∈ d.tasks, p.1 ≠ me then d.put me t else d
  | .aside e =>
    { d with schedule := e.schedule, log := e.log, stdout := e.stdout, stderr := e.stderr }

/-- The debugger after the first `n` things have happened. -/
def after (d : Debugger ρ) (σ : Nat → Happening fit) (n : Nat) : Debugger ρ := reached happen d σ n

theorem after_zero (d : Debugger ρ) (σ : Nat → Happening fit) : after d σ 0 = d := rfl

theorem after_succ (d : Debugger ρ) (σ : Nat → Happening fit) (n : Nat) :
    after d σ (n + 1) = happen (after d σ n) (σ n) := rfl

/-- A session on a new connection, before anything has happened. -/
def opened (timeout : Duration) (id : SessionId) : Debugger ρ := (connect timeout).startSession id true

/-- Reader, writer and session wait, and nothing has been done. -/
theorem opened_eq (timeout : Duration) (id : SessionId) :
    (opened timeout id : Debugger ρ) =
      { link := .start timeout
        room := .open_ id true
        tasks := [(0, .writer), (1, .reader), (2, .session)]
        nextTask := 3
        schedule := ⟨[], [⟨0, [.toWrite, .closed], none⟩, ⟨1, [.arrival, .closed], none⟩,
          ⟨2, [.input], none⟩]⟩
        log := [(Room.open_ id true).state.startRecord] } :=
  startSession_connect timeout id true

theorem bare_opened {timeout : Duration} {id : SessionId} :
    ∀ p ∈ (opened timeout id : Debugger ρ).tasks, bare p.2 = true := by
  intro p hp
  rw [opened_eq] at hp
  simp only [List.mem_cons, List.not_mem_nil, or_false] at hp
  rcases hp with rfl | rfl | rfl <;> rfl

/-! ### Deeds -/

/-- Who does what when something happens. -/
def deed? (d : Debugger ρ) : Happening fit → Option (Nat × Deed)
  | .task me => (own? d me).map fun x => (me, x)
  | _ => none

/-- What the task `me` does when something happens. -/
def deedOf (d : Debugger ρ) (h : Happening fit) (me : Nat) : Option Deed :=
  ((deed? d h).filter (·.1 == me)).map (·.2)

/-- What the task `me` has done while the first `n` things have happened, oldest first. -/
def deeds (d : Debugger ρ) (σ : Nat → Happening fit) : Nat → Nat → List Deed
  | 0, _ => []
  | n + 1, me => deeds d σ n me ++ (deedOf (after d σ n) (σ n) me).toList

variable {d d' : Debugger ρ} {σ : Nat → Happening fit} {n : Nat}

theorem deedOf_eq_some {h : Happening fit} {me : Nat} {x : Deed} :
    deedOf d h me = some x ↔ deed? d h = some (me, x) := by
  unfold deedOf
  constructor
  · intro hx
    obtain ⟨⟨who, y⟩, hy, rfl⟩ := Option.map_eq_some_iff.mp hx
    obtain ⟨hdeed, hwho⟩ := Option.filter_eq_some_iff.mp hy
    have hme : who = me := eq_of_beq hwho
    rw [hdeed, hme]
  · intro hx
    rw [hx]
    simp only [Option.filter_some, beq_self_eq_true, if_true, Option.map_some]

theorem deedOf_task (d : Debugger ρ) (who me : Nat) :
    deedOf d (.task who : Happening fit) me = if who = me then own? d who else none := by
  simp only [deedOf, deed?]
  cases own? d who with
  | none => simp
  | some x => by_cases hw : who = me <;> simp [hw]

/-- **A deed is an action that was done**, and the next of its task. -/
theorem acts_of_deed {h : Happening fit} {me : Nat} {x : Deed} (hx : deed? d h = some (me, x)) :
    h = .task me ∧ ∃ t next e, d.task? me = some t ∧ t.next? = some ⟨x.action, next⟩ ∧
      (d.without me).attempt me x.action = (e, .got x.reply) ∧
      happen d h = e.put me (next x.reply) := by
  cases h with
  | task who =>
    simp only [deed?, Option.map_eq_some_iff, Prod.mk.injEq] at hx
    obtain ⟨y, hy, rfl, rfl⟩ := hx
    have hgoes := goes d who
    rw [hy] at hgoes
    refine ⟨rfl, ?_⟩
    generalize hd : d.stride who = d' at hgoes
    cases hgoes with
    | does t _ next e ht hn ha => exact ⟨t, next, e, ht, hn, ha, hd⟩
  | _ => cases hx

/-! ### How a task fares -/

/-- The tasks that others begin: calls of users, and those that wait for the answers to resumes. -/
inductive Begun (fit : Script ρ → Prop) : Task ρ → Prop where
  | call (id : Nat) (s : Script ρ) (fits : fit s) : Begun fit (.call id s)
  | watch (x : Exchange) (epoch ticket : Nat) : Begun fit (.watch (watchResume x epoch ticket))

/-- How the task of a number fares when something happens, where `x?` is what it does. -/
inductive Fares (fit : Script ρ → Prop) (d d' : Debugger ρ) (me : Nat) (x? : Option Deed) : Prop where
  /-- It stays as it is. -/
  | stays (silent : x? = none) (task : d'.task? me = d.task? me)
  /-- It does its next action. -/
  | acts (t : Task ρ) (x : Deed) (next : x.action.Reply → Task ρ) (deed : x? = some x)
    (before : d.task? me = some t) (action : t.next? = some ⟨x.action, next⟩)
    (after : d'.task? me = some (next x.reply))
  /-- It has come to its result and is gone. -/
  | ends (t : Task ρ) (told : List (Nat × ρ)) (silent : x? = none) (before : d.task? me = some t)
    (ended : t.Over told) (after : d'.task? me = none) (heard : told ⊆ d'.finished)
  /-- It begins. -/
  | begins (t : Task ρ) (silent : x? = none) (new : d.nextTask ≤ me) (begun : Begun fit t)
    (after : d'.task? me = some t)
  /-- It has no script and is set aside. -/
  | lifted (t : Task ρ) (silent : x? = none) (before : d.task? me = some t)
    (scriptless : bare t = true) (after : d'.task? me = none)
  /-- It has no script and is taken up again. -/
  | laid (t : Task ρ) (silent : x? = none) (before : d.task? me = none)
    (scriptless : bare t = true) (after : d'.task? me = some t)

theorem task?_of_tasks (h : d'.tasks = d.tasks) (me : Nat) : d'.task? me = d.task? me := by
  simp only [task?, h]

theorem task?_put_of_ne {me k : Nat} (h : k ≠ me) (t : Task ρ) : (d.put me t).task? k = d.task? k := by
  have hme : ¬ me = k := fun he => h he.symm
  simp [task?, put, List.find?_append, hme]

theorem task?_without_of_ne {me k : Nat} (h : k ≠ me) : (d.without me).task? k = d.task? k := by
  simp only [task?, without, List.find?_filter]
  congr 2
  funext p
  by_cases hp : p.1 = k
  · simp [hp, h]
  · simp [hp]

theorem task?_without (me : Nat) : (d.without me).task? me = none := by
  simp [task?, without, List.find?_filter]

theorem task?_put_new {me : Nat} (h : d.task? me = none) (t : Task ρ) :
    (d.put me t).task? me = some t := by
  have hnone : d.tasks.find? (·.1 == me) = none := Option.map_eq_none_iff.mp h
  simp [task?, put, List.find?_append, hnone]

/-- What was told of tasks is no matter of an attempt. -/
theorem finished_attempt (d : Debugger ρ) (me : Nat) (a : Action) :
    (d.attempt me a).1.finished = d.finished := by
  cases hs : speaks a with
  | false => exact congrArg Work.finished (work_attempt d me hs)
  | true =>
    cases a with
    | post c => simp only [attempt, post]; split <;> rfl
    | order o => simp only [attempt]; split <;> rfl
    | reply ticket r => rfl
    | _ => cases hs

theorem finished_effects (d : Debugger ρ) (es : List Effect) :
    (es.foldl effect d).finished = d.finished := by
  induction es generalizing d with
  | nil => rfl
  | cons e es ih =>
    rw [List.foldl_cons, ih]
    cases e <;> rfl

/-- Effects of the session begin only tasks that wait for the answers to resumes. -/
theorem tasks_effects (d : Debugger ρ) (es : List Effect) :
    d.nextTask ≤ (es.foldl effect d).nextTask ∧ ∃ news : List (Nat × Task ρ),
      (es.foldl effect d).tasks = d.tasks ++ news ∧
      ∀ p ∈ news, d.nextTask ≤ p.1 ∧ p.1 < (es.foldl effect d).nextTask ∧
        ∃ x epoch ticket, p.2 = .watch (watchResume x epoch ticket) := by
  induction es generalizing d with
  | nil => exact ⟨Nat.le_refl _, [], (List.append_nil _).symm, fun p hp => by cases hp⟩
  | cons e es ih =>
    obtain ⟨hle, news, htasks, hnews⟩ := ih (d.effect e)
    rw [List.foldl_cons]
    cases e with
    | sent x epoch ticket =>
      have hnext : (d.effect (.sent x epoch ticket)).nextTask = d.nextTask + 1 := rfl
      rw [hnext] at hle hnews
      refine ⟨Nat.le_of_succ_le hle, (d.nextTask, .watch (watchResume x epoch ticket)) :: news, ?_, ?_⟩
      · rw [htasks]
        exact List.append_assoc _ [(d.nextTask, .watch (watchResume x epoch ticket))] news
      · intro p hp
        rcases List.mem_cons.mp hp with rfl | hp
        · exact ⟨Nat.le_refl _, hle, x, epoch, ticket, rfl⟩
        · obtain ⟨h₁, h₂, h₃⟩ := hnews p hp
          exact ⟨Nat.le_of_succ_le h₁, h₂, h₃⟩
    | _ => exact ⟨hle, news, htasks, hnews⟩

/-- Tasks that are added behind the others, with new numbers. -/
theorem fares_added {news : List (Nat × Task ρ)} (htasks : d'.tasks = d.tasks ++ news)
    (hnews : ∀ p ∈ news, d.nextTask ≤ p.1 ∧ Begun fit p.2) (me : Nat) : Fares fit d d' me none := by
  have happend : d'.task? me = (d.task? me).or ((news.find? (·.1 == me)).map (·.2)) := by
    simp only [task?, htasks, List.find?_append]
    cases d.tasks.find? (·.1 == me) <;> rfl
  cases hnone : d.task? me with
  | some t => exact .stays rfl (by rw [happend, hnone]; rfl)
  | none =>
    cases hf : news.find? (·.1 == me) with
    | none => exact .stays rfl (by rw [happend, hnone, hf]; rfl)
    | some p =>
      obtain ⟨hle, hbegun⟩ := hnews p (List.mem_of_find?_eq_some hf)
      have hp : p.1 = me := by simpa using List.find?_some hf
      exact .begins p.2 rfl (hp ▸ hle) hbegun (by rw [happend, hnone, hf]; rfl)

theorem work_outer (d : Debugger ρ) {m : Debugger.Move ρ} (hm : outer m = true) :
    (d.move m).tasks = d.tasks ∧ (d.move m).nextTask = d.nextTask ∧
    (d.move m).finished = d.finished := by
  have hwork (hf : m.foreign = true) (ha : ∀ me a, m ≠ .act me a) :
      (d.move m).tasks = d.tasks ∧ (d.move m).nextTask = d.nextTask ∧
      (d.move m).finished = d.finished := by
    have h := work_move d hf ha
    exact ⟨congrArg Work.tasks h, congrArg Work.nextTask h, congrArg Work.finished h⟩
  cases m with
  | act me a =>
    cases a with
    | post c => simp only [move, attempt, post]; split <;> exact ⟨rfl, rfl, rfl⟩
    | _ => cases hm
  | pick => cases hm
  | input i => cases hm
  | leave => cases hm
  | feed e => cases hm
  | endFeed => cases hm
  | aside e => cases hm
  | _ => exact hwork rfl fun _ _ h => by cases h

theorem fares_stride (d : Debugger ρ) (me k : Nat) :
    Fares fit d (d.stride me) k (if me = k then own? d me else none) := by
  have hgone {a : Action} {e : Debugger ρ} {o : Attempt a.Reply}
      (ha : (d.without me).attempt me a = (e, o)) :
      e.task? me = none ∧ (k ≠ me → e.task? k = d.task? k) := by
    have htasks : e.tasks = (d.without me).tasks := by
      have h := (attempt_keeps (d.without me) me a).1
      rw [ha] at h
      exact h
    exact ⟨(task?_of_tasks htasks me).trans (task?_without me),
      fun hk => (task?_of_tasks htasks k).trans (task?_without_of_ne hk)⟩
  have hgoes := goes d me
  generalize own? d me = x, d.stride me = d' at hgoes ⊢
  cases hgoes with
  | idle => rw [ite_self]; exact .stays rfl rfl
  | does t x next e ht hn ha =>
    obtain ⟨hme, hother⟩ := hgone ha
    split
    · next hk =>
      subst hk
      exact .acts t x next rfl ht hn (task?_put_new hme _)
    · next hk => exact .stays rfl ((task?_put_of_ne (Ne.symm hk) _).trans (hother (Ne.symm hk)))
  | waits t a next e ss deadline ht hn ha =>
    obtain ⟨hme, hother⟩ := hgone ha
    rw [ite_self]
    by_cases hk : k = me
    · subst hk
      exact .stays rfl ((task?_put_new hme t).trans ht.symm)
    · exact .stays rfl ((task?_put_of_ne hk _).trans (hother hk))
  | ends t told ht hover =>
    rw [ite_self]
    by_cases hk : k = me
    · subst hk
      exact .ends t told rfl ht hover (task?_without k) (List.subset_append_right _ _)
    · exact .stays rfl (task?_without_of_ne hk)

/-- **How a task fares.** -/
theorem fares (d : Debugger ρ) (h : Happening fit) (me : Nat) :
    Fares fit d (happen d h) me (deedOf d h me) := by
  cases h with
  | task who =>
    rw [deedOf_task]
    exact fares_stride d who me
  | session =>
    show Fares fit d d.attend me none
    unfold attend
    split
    · exact .stays rfl (task?_of_tasks (congrArg Work.tasks (work_leave d)) me)
    · split
      · exact .stays rfl rfl
      · next i room _ =>
        obtain ⟨-, news, htasks, hnews⟩ := tasks_effects (({ d with room := room } : Debugger ρ).stepped i)
          (room.state.step d.link.connection i).effects
        refine fares_added (d := d) htasks (fun p hp => ?_) me
        obtain ⟨hle, -, x, epoch, ticket, hp⟩ := hnews p hp
        exact ⟨hle, hp ▸ .watch x epoch ticket⟩
  | call id s hs =>
    have htasks : (d.call id s).tasks = d.tasks ++ [(d.nextTask, .call id s)] := rfl
    refine fares_added (d := d) htasks (fun p hp => ?_) me
    rw [List.mem_singleton.mp hp]
    exact ⟨Nat.le_refl _, .call id s hs⟩
  | outside m hm => exact .stays rfl (task?_of_tasks (work_outer d hm).1 me)
  | lift who =>
    show Fares fit d (if _ then _ else _) me none
    split
    · next hbare =>
      by_cases hk : me = who
      · subst hk
        cases ht : d.task? me with
        | none => exact .stays rfl ((task?_without me).trans ht.symm)
        | some t =>
          rw [ht, Option.any_some] at hbare
          exact .lifted t rfl ht hbare (task?_without me)
      · exact .stays rfl (task?_without_of_ne hk)
    · exact .stays rfl rfl
  | lay who t =>
    show Fares fit d (if _ then _ else _) me none
    split
    · next hlay =>
      obtain ⟨hbare, -, hnew⟩ := hlay
      by_cases hk : me = who
      · subst hk
        have hnone : d.task? me = none :=
          Option.map_eq_none_iff.mpr (List.find?_eq_none.mpr fun p hp => by simpa using hnew p hp)
        exact .laid t rfl hnone hbare (task?_put_new hnone t)
      · exact .stays rfl (task?_put_of_ne hk t)
    · exact .stays rfl rfl
  | aside e => exact .stays rfl rfl

/-! ### Numbers of tasks -/

/-- The tasks have numbers that come before the next. -/
def Below (d : Debugger ρ) : Prop := ∀ p ∈ d.tasks, p.1 < d.nextTask

theorem below_opened {timeout : Duration} {id : SessionId} :
    Below (opened timeout id : Debugger ρ) := by
  intro p hp
  rw [opened_eq] at hp ⊢
  simp only [List.mem_cons, List.not_mem_nil, or_false] at hp
  rcases hp with rfl | rfl | rfl <;> (dsimp only; decide)

theorem Below.task {me : Nat} (h : Below d) (hme : d.nextTask ≤ me) : d.task? me = none :=
  Option.map_eq_none_iff.mpr (List.find?_eq_none.mpr fun p hp => by
    simpa using Nat.ne_of_lt (Nat.lt_of_lt_of_le (h p hp) hme))

theorem Below.lt {me : Nat} {t : Task ρ} (h : Below d) (ht : d.task? me = some t) : me < d.nextTask :=
  h _ (task_mem ht)

theorem Below.of_tasks (h : Below d) (ht : d'.tasks = d.tasks) (hn : d'.nextTask = d.nextTask) :
    Below d' := fun p hp => hn ▸ h p (ht ▸ hp)

theorem Below.without (h : Below d) (me : Nat) : Below (d.without me) :=
  fun p hp => h p (List.mem_filter.mp hp).1

theorem Below.put (h : Below d) {me : Nat} (hme : me < d.nextTask) (t : Task ρ) : Below (d.put me t) := by
  intro p hp
  rcases List.mem_append.mp hp with hp | hp
  · exact h p hp
  · rw [List.mem_singleton.mp hp]
    exact hme

theorem Below.added {news : List (Nat × Task ρ)} (h : Below d) (htasks : d'.tasks = d.tasks ++ news)
    (hnews : ∀ p ∈ news, p.1 < d'.nextTask) (hle : d.nextTask ≤ d'.nextTask) : Below d' := by
  intro p hp
  rcases List.mem_append.mp (htasks ▸ hp) with hp | hp
  · exact Nat.lt_of_lt_of_le (h p hp) hle
  · exact hnews p hp

theorem Below.stride (h : Below d) (me : Nat) :
    Below (d.stride me) ∧ d.nextTask ≤ (d.stride me).nextTask := by
  have hput {a : Action} {e : Debugger ρ} {o : Attempt a.Reply} {t : Task ρ}
      (ha : (d.without me).attempt me a = (e, o)) (ht : d.task? me = some t) (t' : Task ρ) :
      Below (e.put me t') ∧ d.nextTask ≤ (e.put me t').nextTask := by
    obtain ⟨htasks, hnext, -⟩ := attempt_keeps (d.without me) me a
    rw [ha] at htasks hnext
    exact ⟨((h.without me).of_tasks htasks hnext).put (hnext.symm ▸ h.lt ht) t',
      Nat.le_of_eq hnext.symm⟩
  have hgoes := goes d me
  generalize own? d me = x, d.stride me = d' at hgoes ⊢
  cases hgoes with
  | idle => exact ⟨h, Nat.le_refl _⟩
  | does t x next e ht _ ha => exact hput ha ht _
  | waits t a next e ss deadline ht _ ha => exact hput ha ht _
  | ends t told ht hover => exact ⟨h.without me, Nat.le_refl _⟩

theorem Below.happen (h : Below d) (x : Happening fit) :
    Below (happen d x) ∧ d.nextTask ≤ (Crowd.happen d x).nextTask := by
  cases x with
  | task me => exact h.stride me
  | session =>
    show Below d.attend ∧ _ ≤ d.attend.nextTask
    unfold attend
    split
    · have hwork := work_leave d
      have hnext : d.leave.nextTask = d.nextTask := congrArg Work.nextTask hwork
      exact ⟨h.of_tasks (congrArg Work.tasks hwork) hnext, Nat.le_of_eq hnext.symm⟩
    · split
      · exact ⟨h, Nat.le_refl _⟩
      · next i room _ =>
        obtain ⟨hle, news, htasks, hnews⟩ := tasks_effects
          (({ d with room := room } : Debugger ρ).stepped i)
          (room.state.step d.link.connection i).effects
        exact ⟨h.added htasks (fun p hp => (hnews p hp).2.1) hle, hle⟩
  | call id s hs =>
    have htasks : (d.call id s).tasks = d.tasks ++ [(d.nextTask, .call id s)] := rfl
    refine ⟨h.added htasks (fun p hp => ?_) (Nat.le_succ _), Nat.le_succ _⟩
    rw [List.mem_singleton.mp hp]
    exact Nat.lt_succ_self _
  | outside m hm =>
    obtain ⟨htasks, hnext, -⟩ := work_outer d hm
    exact ⟨h.of_tasks htasks hnext, Nat.le_of_eq hnext.symm⟩
  | lift me => simp only [Crowd.happen]; split <;> exact ⟨by first | exact h.without me | exact h, Nat.le_refl _⟩
  | lay me t =>
    simp only [Crowd.happen]
    split
    · next hlay => exact ⟨h.put hlay.2.1 t, Nat.le_refl _⟩
    · exact ⟨h, Nat.le_refl _⟩
  | aside e => exact ⟨h, Nat.le_refl _⟩

/-! ### In any order -/

theorem below_after (h : Below d) (σ : Nat → Happening fit) (n : Nat) : Below (after d σ n) := by
  induction n with
  | zero => exact h
  | succ n ih => exact (ih.happen (σ n)).1

theorem nextTask_mono (h : Below d) {m : Nat} (hmn : m ≤ n) :
    (after d σ m).nextTask ≤ (after d σ n).nextTask := by
  induction hmn with
  | refl => exact Nat.le_refl _
  | @step k _ ih => exact Nat.le_trans ih ((below_after h σ k).happen (σ k)).2

theorem deeds_succ (d : Debugger ρ) (σ : Nat → Happening fit) (n me : Nat) :
    deeds d σ (n + 1) me = deeds d σ n me ++ (deedOf (after d σ n) (σ n) me).toList := rfl

theorem deeds_silent {me : Nat} (h : deedOf (after d σ n) (σ n) me = none) :
    deeds d σ (n + 1) me = deeds d σ n me := by
  rw [deeds_succ, h, Option.toList_none, List.append_nil]

theorem deeds_snoc {me : Nat} {x : Deed} (h : deedOf (after d σ n) (σ n) me = some x) :
    deeds d σ (n + 1) me = deeds d σ n me ++ [x] := by
  rw [deeds_succ, h, Option.toList_some]

/-- A number that belongs to no script. -/
def Scriptless (d : Debugger ρ) (me : Nat) : Prop := ∀ t, d.task? me = some t → bare t = true

theorem scriptless_of_none {me : Nat} (h : d.task? me = none) : Scriptless d me :=
  fun t ht => by rw [h] at ht; cases ht

/-- Where there is no script, nothing is done. -/
theorem Scriptless.silent {me : Nat} (hme : Scriptless d me) (h : Happening fit) :
    deedOf d h me = none := by
  cases fares d h me with
  | acts t x next hx hb hn =>
    exact absurd (hme t hb) (by rw [bare_of_next hn]; decide)
  | _ => assumption

/-- A number that was given stays without a script. -/
theorem Scriptless.happen {me : Nat} (hme : Scriptless d me) (hold : me < d.nextTask)
    (h : Happening fit) : Scriptless (happen d h) me := by
  intro t ht
  cases fares d h me with
  | stays hx hsame => exact hme t (hsame ▸ ht)
  | acts t' x next hx hb hn =>
    exact absurd (hme t' hb) (by rw [bare_of_next hn]; decide)
  | ends t' told hx hb ho ha => cases ha.symm.trans ht
  | begins t' hx hnew => exact absurd hold (Nat.not_lt.mpr hnew)
  | lifted t' hx hb hbare ha => cases ha.symm.trans ht
  | laid t' hx hb hbare ha => cases ha.symm.trans ht; exact hbare

/-- A number that is to be given has done nothing. -/
theorem deeds_fresh (h : Below d) {me : Nat} (hme : (after d σ n).nextTask ≤ me) :
    deeds d σ n me = [] := by
  induction n with
  | zero => rfl
  | succ n ih =>
    have hle := Nat.le_trans ((below_after h σ n).happen (σ n)).2 hme
    rw [deeds_silent ((scriptless_of_none ((below_after h σ n).task hle)).silent _)]
    exact ih hle

/-- What was told of tasks stays. -/
theorem finished_happen (d : Debugger ρ) (h : Happening fit) : d.finished <+: (happen d h).finished := by
  have hsame {e : Debugger ρ} (he : e.finished = d.finished) : d.finished <+: e.finished := by
    exact he ▸ List.prefix_rfl
  have hattempt {a : Action} {me : Nat} {e : Debugger ρ} {o : Attempt a.Reply}
      (ha : (d.without me).attempt me a = (e, o)) : e.finished = d.finished := by
    have := finished_attempt (d.without me) me a
    rw [ha] at this
    exact this
  cases h with
  | task me =>
    show d.finished <+: (d.stride me).finished
    have hgoes := goes d me
    generalize own? d me = x, d.stride me = d' at hgoes ⊢
    cases hgoes with
    | idle => exact List.prefix_rfl
    | does t x next e ht hn ha => exact hsame (e := e) (hattempt ha)
    | waits t a next e ss deadline ht hn ha => exact hsame (e := e) (hattempt ha)
    | ends t told ht ho => exact List.prefix_append _ _
  | session =>
    show d.finished <+: d.attend.finished
    unfold attend
    split
    · exact hsame (congrArg Work.finished (work_leave d))
    · split
      · exact List.prefix_rfl
      · next i room _ =>
        exact hsame (finished_effects (({ d with room := room } : Debugger ρ).stepped i) _)
  | call id s hs => exact List.prefix_rfl
  | outside m hm => exact hsame (work_outer d hm).2.2
  | lift me => simp only [happen]; split <;> exact List.prefix_rfl
  | lay me t => simp only [happen]; split <;> exact List.prefix_rfl
  | aside e => exact List.prefix_rfl

/-! ### What is gathered -/

/-- What `f` makes of the deeds of all tasks, oldest first. It is given how many things had happened
before, the task and its deed. -/
def gathered {β : Type} (d : Debugger ρ) (σ : Nat → Happening fit) (f : Nat → Nat → Deed → Option β) :
    Nat → List β
  | 0 => []
  | n + 1 => gathered d σ f n ++ ((deed? (after d σ n) (σ n)).bind fun w => f n w.1 w.2).toList

variable {β : Type} {f : Nat → Nat → Deed → Option β}

theorem gathered_silent (h : deed? (after d σ n) (σ n) = none) :
    gathered d σ f (n + 1) = gathered d σ f n := by
  rw [gathered, h, Option.bind_none, Option.toList_none, List.append_nil]

theorem gathered_deed {me : Nat} {x : Deed} (h : deed? (after d σ n) (σ n) = some (me, x)) :
    gathered d σ f (n + 1) = gathered d σ f n ++ (f n me x).toList := by
  rw [gathered, h, Option.bind_some]

/-- What is gathered comes from a deed. -/
theorem mem_gathered {b : β} : b ∈ gathered d σ f n ↔
    ∃ m < n, ∃ me x, deed? (after d σ m) (σ m) = some (me, x) ∧ f m me x = some b := by
  induction n with
  | zero =>
    constructor
    · intro h; cases h
    · rintro ⟨m, hm, -⟩; exact absurd hm (Nat.not_lt_zero m)
  | succ n ih =>
    rw [gathered, List.mem_append, ih, Option.mem_toList, Option.bind_eq_some_iff]
    constructor
    · rintro (⟨m, hm, h⟩ | ⟨⟨me, x⟩, hx, hb⟩)
      · exact ⟨m, Nat.lt_succ_of_lt hm, h⟩
      · exact ⟨n, Nat.lt_succ_self n, me, x, hx, hb⟩
    · rintro ⟨m, hm, me, x, hx, hb⟩
      rcases Nat.lt_succ_iff_lt_or_eq.mp hm with hm | rfl
      · exact .inl ⟨m, hm, me, x, hx, hb⟩
      · exact .inr ⟨(me, x), hx, hb⟩

theorem gathered_prefix {m : Nat} (hmn : m ≤ n) : gathered d σ f m <+: gathered d σ f n := by
  induction hmn with
  | refl => exact List.prefix_rfl
  | @step k _ ih => exact ih.trans (List.prefix_append _ _)

end Crowd
end DebugHost
