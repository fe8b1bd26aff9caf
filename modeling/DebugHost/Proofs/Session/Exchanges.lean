import DebugHost.Proofs.Connection.Matching
import DebugHost.Proofs.Debugger.Touches
import DebugHost.Proofs.Session.Deeds

/-! # What comes of the requests of a call that is alone

A request that the only call of a session has sent is waited for until its answer is read, and its answer
stays until the call is told it, unless the connection is closed (`Serves`, `serves_beat`). So a call that
has waited for an answer is told the one that was read, or its request was never answered at all
(`told_of_response`), and then the connection is closed if the adapter answers in time.

Every wait of such a call is bounded (`Bounded`), so that it comes to an end where it gets its turns and time
passes (`returns`). -/

namespace DebugHost

open DebugHost.Session DebugHost.Script

/-- A request has its answer, or is still waited for. -/
def Connection.Outstanding (c : Connection) (seq : Int) : Prop :=
  seq ∈ c.pending ∨ c.answer? seq ≠ none

namespace Debugger

/-! ### Answers stay until they are told -/

/-- Connections between which only the answers to the requests `takes` have been told or given up. -/
structure Serves (c : Connection) (takes : Int → Prop) (c' : Connection) : Prop where
  timeout : c'.timeout = c.timeout
  closed : c.isClosed = true → c'.isClosed = true
  outstanding : ∀ seq, ¬ takes seq → c.Outstanding seq → c'.Outstanding seq ∨ c'.isClosed = true
  answered : ∀ seq r, ¬ takes seq → c.answer? seq = some r → c'.answer? seq = some r

section

variable {c c' : Connection} {takes : Int → Prop}

/-- Where the answers stay, requests that are waited for stay so, too. -/
theorem Serves.of_pending (ht : c'.timeout = c.timeout)
    (hc : c.isClosed = true → c'.isClosed = true) (ha : c'.answers = c.answers)
    (hp : ∀ seq ∈ c.pending, seq ∈ c'.pending ∨ c'.isClosed = true) : Serves c takes c' := by
  have hanswer (seq : Int) : c'.answer? seq = c.answer? seq := Traffic.answer?_congr ha seq
  refine ⟨ht, hc, fun seq _ hout => ?_, fun seq r _ hr => (hanswer seq).trans hr⟩
  rcases hout with hpending | hsome
  · exact (hp seq hpending).imp_left .inl
  · exact .inl (.inr (by rw [hanswer]; exact hsome))

theorem Serves.of_same (ht : c'.timeout = c.timeout) (hc : c'.closed = c.closed)
    (ha : c'.answers = c.answers) (hp : c'.pending = c.pending) : Serves c takes c' := by
  have hclosed : c'.isClosed = c.isClosed := by rw [Connection.isClosed, hc, Connection.isClosed]
  exact .of_pending ht (fun h => hclosed.trans h) ha fun seq h => .inl (hp ▸ h)

theorem Serves.refl (c : Connection) : Serves c takes c := .of_same rfl rfl rfl rfl

/-- On a closed connection nobody needs to wait. -/
theorem Serves.of_closed (ht : c'.timeout = c.timeout) (ha : c'.answers = c.answers)
    (hc : c'.isClosed = true) : Serves c takes c' :=
  .of_pending ht (fun _ => hc) ha fun _ _ => .inr hc

theorem Serves.mono {takes' : Int → Prop} (h : Serves c takes c') (ht : ∀ seq, takes seq → takes' seq) :
    Serves c takes' c' :=
  ⟨h.timeout, h.closed, fun seq hn => h.outstanding seq fun hs => hn (ht seq hs),
    fun seq r hn => h.answered seq r fun hs => hn (ht seq hs)⟩

theorem serves_send (c : Connection) (m : Message) :
    Serves c takes ((c.takeSeq.2.expect c.nextSeq).post m) :=
  .of_pending rfl (fun h => h) rfl fun _ h => .inl (List.mem_append_left _ h)

/-- An answer that is taken in is there from then on. -/
theorem serves_complete (c : Connection) (r : Response) : Serves c takes (c.complete r).1 := by
  unfold Connection.complete
  split
  · have hstays (seq : Int) (a : Response) (ha : c.answer? seq = some a) :
        { c.forget r.requestSeq with answers := c.answers ++ [(r.requestSeq, r)] }.answer? seq = some a :=
      Traffic.answer?_append (c := c.forget r.requestSeq) ha _
    refine ⟨rfl, fun h => h, fun seq _ hout => .inl ?_, fun seq a _ ha => hstays seq a ha⟩
    by_cases hseq : seq = r.requestSeq
    · rw [hseq]
      exact .inr (Traffic.answer?_last (c.forget r.requestSeq) r)
    · rcases hout with hpending | hsome
      · exact .inl (List.mem_filter.mpr ⟨hpending, by simpa using hseq⟩)
      · obtain ⟨a, ha⟩ := Option.ne_none_iff_exists'.mp hsome
        have hsome' := hstays seq a ha
        exact .inr fun hnone => Option.some_ne_none a (hsome'.symm.trans hnone)
  · exact .of_same rfl rfl rfl rfl

/-- An exchange that is over takes nothing but its own answer. -/
theorem serves_settle (c : Connection) (x : Exchange) : Serves c (· = x.seq) (x.settle c) := by
  have hanswer {seq : Int} (hne : seq ≠ x.seq) : (x.settle c).answer? seq = c.answer? seq :=
    Traffic.answer?_filter (c := c) rfl hne
  refine ⟨rfl, fun h => h, fun seq hne hout => .inl ?_, fun seq r hne hr => (hanswer hne).trans hr⟩
  rcases hout with hpending | hsome
  · exact .inl (List.mem_filter.mpr ⟨hpending, by simpa using hne⟩)
  · exact .inr (by rw [hanswer hne]; exact hsome)

end

variable {ρ : Type}

/-- A task that attempts something takes the answer that it is told, and no other. -/
theorem serves_attempt (d : Debugger ρ) (me : Nat) (a : Action) :
    Serves d.link.connection
      (fun seq => ∃ x r, (d.attempt me a).2.deed? = some ⟨.response x, r⟩ ∧ x.seq = seq)
      (d.attempt me a).1.link.connection := by
  cases a with
  | send command arguments =>
    simp only [attempt, Debugger.send]
    split
    · exact .refl _
    · next seq c hs =>
      unfold Connection.send at hs
      split at hs
      · cases hs
      · cases hs
        exact serves_send d.link.connection _
  | response x =>
    simp only [attempt]
    split
    · exact .refl _
    · exact (serves_settle _ x).mono fun seq hseq => ⟨x, _, rfl, hseq.symm⟩
    · exact (serves_settle _ x).mono fun seq hseq => ⟨x, _, rfl, hseq.symm⟩
  | post c => simp only [attempt, post]; split <;> exact .refl _
  | order o => simp only [attempt]; split <;> exact .refl _
  | outcome ticket => simp only [attempt]; split <;> exact .refl _
  | await states deadline =>
    simp only [attempt]
    split
    · exact .refl _
    · split <;> exact .refl _
  | lock => simp only [attempt]; split <;> exact .refl _
  | unlock s => simp only [attempt]; split <;> exact .refl _
  | acquire k => simp only [attempt]; split <;> exact .refl _
  | deliver k r =>
    simp only [attempt]
    rcases d.room.state.tree.deliver k r with ⟨v, tree, woken⟩
    obtain ⟨s, hs⟩ := exists_schedule (d.withTree tree) .slot woken
    rw [hs]
    exact .refl _
  | _ => exact .refl _

theorem serves_read (l : Link) {takes : Int → Prop} :
    Serves l.connection takes l.read.link.connection := by
  unfold Link.read
  split
  · exact .of_closed rfl rfl (isClosed_endReading l .shutdown)
  · split
    · exact .refl _
    · next m r _ =>
      cases m with
      | response a =>
        simp only [Link.receive]
        split <;> exact serves_complete l.connection a
      | event e => exact .refl _
      | request q => exact .of_same rfl rfl rfl rfl
    · exact .of_closed rfl rfl (isClosed_endReading _ _)
    · exact .of_closed rfl rfl (isClosed_endReading _ _)

theorem serves_write (l : Link) {takes : Int → Prop} :
    Serves l.connection takes l.write.link.connection := by
  unfold Link.write
  split
  · exact .refl _
  · split
    · exact .refl _
    · simp only
      split
      · exact .of_same rfl rfl rfl rfl
      · exact .of_closed rfl rfl (isClosed_close _ _)

theorem serves_attend (d : Debugger ρ) {takes : Int → Prop} :
    Serves d.link.connection takes d.attend.link.connection := by
  cases attends d with
  | leaves ho hd => rw [hd, (leave_keeps d).2.1]; exact .refl _
  | rests ho hn hd => rw [hd]; exact .refl _
  | takes i room ho hn hd =>
    obtain ⟨o, hi, -, hl⟩ := handles_next hn ho
    have hconnection : d.attend.link.connection = o.connection := by rw [hd, hl]
    rw [hconnection]
    cases hi with
    | stays _ _ hc => rw [hc]; exact .refl _
    | enters _ _ _ _ _ hc => rw [hc]; exact .refl _
    | resumes kind thread ticket _ _ _ _ hc => rw [hc]; exact serves_send d.link.connection _
    | ends _ _ _ _ hc => rw [hc]; exact .of_closed rfl rfl (isClosed_close _ _)

/-! ### What others leave to the call -/

/-- The record of breakpoints is with the task `me` or with nobody, and nobody waits for it. -/
def Free (me : Nat) (r : Room) : Prop := (r.holder = none ∨ r.holder = some me) ∧ r.queue = []

theorem free_of_keeping {me : Nat} {r r' : Room} (h : Free me r) (hk : r'.keeping = r.keeping) :
    Free me r' := by
  have hholder : r'.holder = r.holder := congrArg (fun k => k.2.1) hk
  have hqueue : r'.queue = r.queue := congrArg (fun k => k.2.2) hk
  exact ⟨hholder ▸ h.1, hqueue ▸ h.2⟩

theorem free_attempt {me : Nat} {d : Debugger ρ} (h : Free me d.room) (a : Action) :
    Free me (d.attempt me a).1.room := by
  obtain ⟨hholder, hqueue⟩ := h
  by_cases hl : a = .lock
  · subst hl
    have hlock : d.room.lock me = ({ d.room with holder := some me }, true) := by
      unfold Room.lock
      rcases hholder with hnone | hme
      · rw [hnone]
      · rw [hme]
        simp only [if_true]
        rw [← hme]
    simp only [attempt, hlock]
    exact ⟨.inr rfl, hqueue⟩
  · by_cases hu : ∃ s, a = .unlock s
    · obtain ⟨s, rfl⟩ := hu
      have hunlock : d.room.unlock s = ({ d.room with breakpoints := s, holder := none }, none) := by
        simp only [Room.unlock, hqueue]
      simp only [attempt, hunlock]
      exact ⟨.inl rfl, hqueue⟩
    · have hkeeping := keeping_attempt d me hl fun s hs => hu ⟨s, hs⟩
      exact free_of_keeping ⟨hholder, hqueue⟩ hkeeping

/-- Who has no script takes no answer and leaves the record of breakpoints to those who have it. -/
structure PassesBy (d d' : Debugger ρ) : Prop where
  serves : ∀ takes, Serves d.link.connection takes d'.link.connection
  keeping : d'.room.keeping = d.room.keeping

theorem PassesBy.of_same {d d' : Debugger ρ} (hl : d'.link.connection = d.link.connection)
    (hk : d'.room.keeping = d.room.keeping) : PassesBy d d' :=
  ⟨fun _ => hl ▸ .refl _, hk⟩

theorem passesBy_other (d : Resumer) {m : Move (Except DebugError Unit)} (hm : m.foreign = true)
    (hl : lone (.other m) = true) : PassesBy d (d.move m) := by
  cases m with
  | act me a =>
    cases a with
    | post c =>
      cases c with
      | exited e =>
        simp only [move, attempt, post]
        split <;> exact .of_same rfl rfl
      | _ => cases hl
    | _ => cases hl
  | read =>
    refine ⟨fun takes => ?_, ?_⟩
    · simp only [move, afterStep_link]; exact serves_read d.link
    · simp only [move, afterStep_room]
  | write =>
    refine ⟨fun takes => ?_, ?_⟩
    · simp only [move, afterStep_link]; exact serves_write d.link
    · simp only [move, afterStep_room]
  | pass => exact .of_same (passReports_keeps d).2.2 (Crowd.room_outer d rfl).2
  | pick => cases hm
  | input i => cases hm
  | leave => cases hm
  | aside e => cases hm
  | shutdown => exact ⟨fun _ => .of_closed rfl rfl (isClosed_close _ .shutdown), rfl⟩
  | feed e => simp only [move, feed]; split <;> exact .of_same rfl rfl
  | _ => exact .of_same rfl rfl

/-- What a lone beat is to the call `id`, which is the task `me`. -/
inductive Concerns (me id : Nat) (d : Resumer) (b : Beat (Except DebugError Unit)) : Prop where
  /-- Others do something, or the call is over. -/
  | others (silent : d.deed? b = none) (passes : PassesBy d (d.beat b))
    (scripts : ∀ t, bare t = false → d.task? me = some t → b ≠ .task me ∧ (d.beat b).task? me = some t)
  /-- The call attempts an action. -/
  | acts (a : Action) (next : a.Reply → Script (Except DebugError Unit)) (own : b = .task me)
    (task : d.task? me = some (.call id (.act a next)))
    (deed : d.deed? b = (d.attempt me a).2.deed?) (room : (d.beat b).room = (d.attempt me a).1.room)
    (link : (d.beat b).link = (d.attempt me a).1.link)
    (rest : ∃ s, (d.beat b).task? me = some (.call id s) ∧
      ((∃ r, (d.attempt me a).2 = .got r ∧ s = next r) ∨
        (∃ ss t, (d.attempt me a).2 = .wait ss t) ∧ s = .act a next))
  /-- The call comes to its result. -/
  | ends (r : Except DebugError Unit) (own : b = .task me) (task : d.task? me = some (.call id (.done r)))
    (silent : d.deed? b = none) (room : (d.beat b).room = d.room) (link : (d.beat b).link = d.link)
    (told : (id, r) ∈ (d.beat b).finished)

variable {d : Resumer} {law : List Deed → Action → Prop}
  {goal : List Deed → Except DebugError Unit → Prop} {me id : Nat} {h : List Deed}

/-- A task without a script does nothing. -/
theorem stride_idle {k : Nat} (hbare : ∀ t, d.task? k = some t → bare t = true) : d.stride k = d := by
  cases strides d k with
  | idle h => exact h
  | watch a next ht => cases hbare _ ht
  | watchOver ht => cases hbare _ ht
  | call id a next ht => cases hbare _ ht
  | callOver id r ht => cases hbare _ ht

/-- Beats in which no script goes on. -/
theorem passesBy_beat {b : Beat (Except DebugError Unit)} (hb : lone b = true)
    (hidle : ∀ k, b = .task k → ∀ t, d.task? k = some t → bare t = true) : PassesBy d (d.beat b) := by
  cases b with
  | task k =>
    have hsame : d.beat (.task k) = d := stride_idle (hidle k rfl)
    rw [hsame]
    exact .of_same rfl rfl
  | session => exact ⟨fun _ => serves_attend d, keeping_attend d⟩
  | resume id kind thread => cases hb
  | other m =>
    simp only [beat]
    split
    · next hm => exact passesBy_other d hm hb
    · exact .of_same rfl rfl
  | lift me => simp only [beat]; split <;> exact .of_same rfl rfl
  | lay me t => simp only [beat]; split <;> exact .of_same rfl rfl
  | aside e => exact .of_same rfl rfl

/-- **What a beat is to the only call.** -/
theorem concerns (hd : Course law goal me id h d) {b : Beat (Except DebugError Unit)}
    (hb : lone b = true) : Concerns me id d b := by
  have others (hidle : ∀ k, b = .task k → ∀ t, d.task? k = some t → bare t = true) :
      Concerns me id d b := by
    have hbystands := bystands_beat hd.ticketless hb hidle
    refine .others (deed?_eq_none hidle) (passesBy_beat hb hidle) fun t ht hme => ⟨?_, ?_⟩
    · rintro rfl
      rw [hidle me rfl t hme] at ht
      cases ht
    · exact hbystands.scripts me t ht hme
  cases hd.stands with
  | returned r _ ho _ => exact others fun k _ t ht => ho _ (task_mem ht)
  | goesOn s ht ho _ hf =>
    by_cases hme : b = .task me
    · subst hme
      cases s with
      | done r =>
        have hbeat : d.beat (.task me) = { d.without me with finished := d.finished ++ [(id, r)] } := by
          simp only [beat, stride, ht]
          rfl
        refine .ends r rfl ht (by simp only [deed?, ht]) (by rw [hbeat]; rfl) (by rw [hbeat]; rfl) ?_
        rw [hbeat]
        exact List.mem_append_right _ (List.mem_singleton_self _)
      | act a next =>
        have hbeat : d.beat (.task me) = ((d.without me).attempt me a).1.put me
            (.call id ((d.without me).pace me a next).2) := by
          simp only [beat, stride, ht, pace_fst]
        obtain ⟨hreply, hroom, hlink⟩ := attempt_without d me me a
        have hown : ∀ p ∈ ((d.without me).attempt me a).1.tasks, p.1 ≠ me := fun p hp =>
          mem_without ((attempt_keeps (d.without me) me a).1 ▸ hp)
        have hrest : (d.beat (.task me)).task? me = some (.call id ((d.without me).pace me a next).2) := by
          rw [hbeat]
          exact task?_put hown
        refine .acts a next rfl ht ?_ ?_ ?_ ⟨_, hrest, ?_⟩
        · simp only [deed?, ht, hreply]
        · rw [hbeat]; exact hroom
        · rw [hbeat]; exact hlink
        · rw [← hreply]
          unfold pace
          split
          · next r hr => exact .inl ⟨r, by rw [hr], rfl⟩
          · next ss t hr => exact .inr ⟨⟨ss, t, by rw [hr]⟩, rfl⟩
    · refine others fun k hk t hkt => ho _ (task_mem hkt) ?_
      rintro rfl
      exact hme hk

/-- **A lone beat takes no answer but the one that the call is told.** -/
theorem serves_beat (hd : Course law goal me id h d) {b : Beat (Except DebugError Unit)}
    (hb : lone b = true) :
    Serves d.link.connection (fun seq => ∃ x r, d.deed? b = some ⟨.response x, r⟩ ∧ x.seq = seq)
      (d.beat b).link.connection := by
  cases concerns hd hb with
  | others _ hpasses _ => exact hpasses.serves _
  | acts a next _ _ hdeed _ hlink _ => rw [hdeed, hlink]; exact serves_attempt d me a
  | ends r _ _ _ _ hlink _ => rw [hlink]; exact .refl _

theorem free_beat (hd : Course law goal me id h d) {b : Beat (Except DebugError Unit)}
    (hb : lone b = true) (hfree : Free me d.room) : Free me (d.beat b).room := by
  cases concerns hd hb with
  | others _ hpasses _ => exact free_of_keeping hfree hpasses.keeping
  | acts a next _ _ _ hroom _ _ => rw [hroom]; exact free_attempt hfree a
  | ends r _ _ _ hroom _ _ => rw [hroom]; exact hfree

/-- What the call does in a beat. -/
theorem did_of_deed (hd : Course law goal me id h d) {b : Beat (Except DebugError Unit)}
    (hb : lone b = true) {x : Deed} (hx : d.deed? b = some x) :
    b = .task me ∧ (d.attempt me x.action).2 = .got x.reply ∧
    (d.beat b).link = (d.attempt me x.action).1.link := by
  cases concerns hd hb with
  | others hsilent _ _ => rw [hsilent] at hx; cases hx
  | acts a next hown _ hdeed _ hlink _ =>
    have hattempt : (d.attempt me a).2.deed? = some x := hdeed.symm.trans hx
    cases hr : (d.attempt me a).2 with
    | got r =>
      rw [hr] at hattempt
      cases hattempt
      exact ⟨hown, hr, hlink⟩
    | wait ss t => rw [hr] at hattempt; cases hattempt
  | ends r _ _ hsilent => rw [hsilent] at hx; cases hx

/-- A call that is over has done all that it does. -/
theorem idle_of_finished (hd : Course law goal me id h d) (hf : d.finished ≠ [])
    {b : Beat (Except DebugError Unit)} (hb : lone b = true) :
    d.deed? b = none ∧ (d.beat b).finished = d.finished ∧ d.stride me = d := by
  cases hd.stands with
  | goesOn s _ _ _ hnone => exact absurd hnone hf
  | returned r _ ho _ =>
    have hbare (k : Nat) (t : Task (Except DebugError Unit)) (ht : d.task? k = some t) : bare t = true :=
      ho _ (task_mem ht)
    have hidle : ∀ k, b = .task k → ∀ t, d.task? k = some t → bare t = true := fun k _ => hbare k
    exact ⟨deed?_eq_none hidle, (bystands_beat hd.ticketless hb hidle).finished, stride_idle (hbare me)⟩

/-! ### Answers in any order of lone beats -/

variable {σ : Nat → LoneBeat} {i k l m n : Nat} {seq : Int}

variable (d σ) in
/-- From beat `i` on up to beat `n` the call is not told of the request `seq`. -/
def Untold (i n : Nat) (seq : Int) : Prop :=
  ∀ m, i ≤ m → m < n → ∀ x r, (d.alone σ m).deed? (σ m).1 = some ⟨.response x, r⟩ → x.seq ≠ seq

theorem Untold.before (h : Untold d σ i (n + 1) seq) : Untold d σ i n seq :=
  fun m him hmn => h m him (Nat.lt_succ_of_lt hmn)

theorem Untold.untaken (h : Untold d σ i (n + 1) seq) (hin : i ≤ n) :
    ¬ ∃ x r, (d.alone σ n).deed? (σ n).1 = some ⟨.response x, r⟩ ∧ x.seq = seq := by
  rintro ⟨x, r, hx, hseq⟩
  exact h n hin (Nat.lt_succ_self n) x r hx hseq

/-- A call that attempts only what the law allows, none of which is an order to the session. -/
structure Mutely (law : List Deed → Action → Prop) (goal : List Deed → Except DebugError Unit → Prop)
    (me id : Nat) (d : Resumer) : Prop where
  mute : ∀ h a, law h a → mute a = true
  course : Course law goal me id [] d

theorem Mutely.after (hd : Mutely law goal me id d) (σ : Nat → LoneBeat) (n : Nat) :
    Course law goal me id (d.deeds σ n) (d.alone σ n) :=
  Debugger.course hd.mute hd.course n

theorem timeout_alone (hd : Mutely law goal me id d) (n : Nat) :
    (d.alone σ n).link.connection.timeout = d.link.connection.timeout := by
  induction n with
  | zero => rfl
  | succ n ih =>
    have hserves := serves_beat (hd.after σ n) (σ n).2
    exact hserves.timeout.trans ih

/-- **An answer stays until the call is told it.** -/
theorem answer_later (hd : Mutely law goal me id d) (hin : i ≤ n) {r : Response}
    (h : (d.alone σ i).link.connection.answer? seq = some r) (huntold : Untold d σ i n seq) :
    (d.alone σ n).link.connection.answer? seq = some r := by
  induction hin with
  | refl => exact h
  | @step n hin ih =>
    have hserves := serves_beat (hd.after σ n) (σ n).2
    exact hserves.answered seq r (huntold.untaken hin) (ih huntold.before)

/-- **A request is waited for until it is answered**, unless the connection is closed. -/
theorem outstanding_later (hd : Mutely law goal me id d) (hin : i ≤ n)
    (h : (d.alone σ i).link.connection.Outstanding seq) (huntold : Untold d σ i n seq) :
    (d.alone σ n).link.connection.Outstanding seq ∨
      (d.alone σ n).link.connection.isClosed = true := by
  induction hin with
  | refl => exact .inl h
  | @step n hin ih =>
    have hserves := serves_beat (hd.after σ n) (σ n).2
    rcases ih huntold.before with hbefore | hclosed
    · exact hserves.outstanding seq (huntold.untaken hin) hbefore
    · exact .inr (hserves.closed hclosed)

/-- A request that the call sends takes the next number, and is waited for from then on. -/
theorem sent_of_deed (hd : Mutely law goal me id d) {command : String} {v : Json.Value} {y : Exchange}
    (hsend : (d.alone σ k).deed? (σ k).1 = some ⟨.send command v, .ok y⟩) :
    y.command = command ∧ y.seq = (d.alone σ k).link.connection.nextSeq ∧
    y.seq < (d.alone σ (k + 1)).link.connection.nextSeq ∧
    y.seq ∈ (d.alone σ (k + 1)).link.connection.pending := by
  obtain ⟨-, hgot, hlink⟩ := did_of_deed (hd.after σ k) (σ k).2 hsend
  have hlater : (d.alone σ (k + 1)).link = ((d.alone σ k).attempt me (.send command v)).1.link := hlink
  rw [hlater]
  simp only [attempt, Debugger.send] at hgot ⊢
  cases hs : (d.alone σ k).link.connection.send command v with
  | error e => rw [hs] at hgot; cases hgot
  | ok p =>
    obtain ⟨seq, c⟩ := p
    rw [hs] at hgot
    unfold Connection.send at hs
    split at hs
    · cases hs
    · cases hs
      cases hgot
      refine ⟨rfl, rfl, Int.lt_add_one_of_le (Int.le_refl _), ?_⟩
      exact List.mem_append_right _ (List.mem_singleton_self _)

/-- The time of a wait begins when it is looked at. -/
theorem limit_of_deed (hd : Mutely law goal me id d) {p : Nat × Duration}
    (hlimit : (d.alone σ l).deed? (σ l).1 = some ⟨.limit, p⟩) :
    p = ((d.alone σ l).now + d.link.connection.timeout.millis, d.link.connection.timeout) := by
  obtain ⟨-, hgot, -⟩ := did_of_deed (hd.after σ l) (σ l).2 hlimit
  have htimeout := timeout_alone (σ := σ) hd l
  simp only [attempt] at hgot
  cases hgot
  rw [htimeout]

/-- An answer is read after the request was sent. -/
theorem sent_before_read (hd : Mutely law goal me id d) (hnum : Numbered d.link.connection)
    {command : String} {v : Json.Value} {y : Exchange} {b : Response}
    (hsend : (d.alone σ k).deed? (σ k).1 = some ⟨.send command v, .ok y⟩)
    (hreads : (d.alone σ m).Reads (σ m).1 b) (hseq : b.requestSeq = y.seq) : k < m := by
  obtain ⟨-, hnext, -, -⟩ := sent_of_deed hd hsend
  have hknown : b.requestSeq < (d.alone σ m).link.connection.nextSeq :=
    (numbered_played hnum m).pending _ hreads.expected
  by_contra hle
  have hmono : (d.alone σ m).link.connection.nextSeq ≤ (d.alone σ k).link.connection.nextSeq :=
    nextSeq_mono (Nat.le_of_not_lt hle)
  omega

/-- Who waits for an answer that is not there is told that the session has ended or that it is late. -/
theorem result_without_answer {x : Exchange} {c : Connection} {now : Nat}
    {r : Except DebugError Response} (ha : c.answer? x.seq = none) (h : x.result? c now = some r) :
    (r = .error .sessionTerminated ∧ (x.seq ∉ c.pending ∨ c.isClosed = true)) ∨
    (r = .error (.timeout x.command c.timeout) ∧ x.deadline.any (· ≤ now) = true) := by
  simp only [Exchange.result?, Exchange.standing, ha] at h
  by_cases hpending : x.seq ∈ c.pending
  · by_cases hlate : x.deadline.any (· ≤ now) = true
    · simp only [hpending, not_true_eq_false, if_false, hlate, if_true] at h
      exact .inr ⟨(Option.some.inj h).symm, hlate⟩
    · simp only [hpending, not_true_eq_false, if_false, hlate] at h
      cases hclosed : c.isClosed with
      | true =>
        simp only [hclosed, if_true] at h
        exact .inl ⟨(Option.some.inj h).symm, .inr rfl⟩
      | false =>
        simp only [hclosed, Bool.false_eq_true, if_false] at h
        cases h
  · simp only [hpending, not_false_eq_true, if_true] at h
    exact .inl ⟨(Option.some.inj h).symm, .inl hpending⟩

variable (d σ) in
/-- The call sends the request of an exchange in beat `k`, looks at the time in beat `l`, and is told in
beat `n`, and not before, what it has come to. -/
structure Waited (k l n : Nat) (command : String) (y : Exchange) (r : Except DebugError Response) :
    Prop where
  send : ∃ v, (d.alone σ k).deed? (σ k).1 = some ⟨.send command v, .ok y⟩
  wait : ∃ p, (d.alone σ l).deed? (σ l).1 = some ⟨.limit, p⟩ ∧
    (d.alone σ n).deed? (σ n).1 = some ⟨.response { y with deadline := some p.1 }, r⟩
  order : k < l ∧ l < n
  untold : Untold d σ (k + 1) n y.seq

variable {command : String} {y : Exchange} {r : Except DebugError Response}

/-- What the call is told of an exchange follows from how the exchange stands. -/
theorem Waited.result (h : Waited d σ k l n command y r) (hd : Mutely law goal me id d) :
    ∃ x : Exchange, x.seq = y.seq ∧ x.command = command ∧
      x.deadline = some ((d.alone σ l).now + d.link.connection.timeout.millis) ∧
      x.result? (d.alone σ n).link.connection (d.alone σ n).now = some r ∧
      (d.alone σ (n + 1)).link.connection = x.settle (d.alone σ n).link.connection := by
  obtain ⟨v, hsend⟩ := h.send
  obtain ⟨p, hlimit, hx⟩ := h.wait
  obtain ⟨hcommand, -, -, -⟩ := sent_of_deed hd hsend
  have hdeadline : p.1 = (d.alone σ l).now + d.link.connection.timeout.millis :=
    congrArg Prod.fst (limit_of_deed hd hlimit)
  obtain ⟨-, hgot, hlink⟩ := did_of_deed (hd.after σ n) (σ n).2 hx
  refine ⟨{ y with deadline := some p.1 }, rfl, hcommand, by rw [hdeadline],
    result_of_attempt hgot, ?_⟩
  have hlater : (d.alone σ (n + 1)).link =
      ((d.alone σ n).attempt me (.response { y with deadline := some p.1 })).1.link := hlink
  rw [hlater]
  simp only [attempt] at hgot ⊢
  cases hs : ({ y with deadline := some p.1 } : Exchange).standing (d.alone σ n).link.connection
      (d.alone σ n).now with
  | waiting => rw [hs] at hgot; cases hgot
  | _ => rfl

/-- Where there is no answer when the call is told, none is ever read: one that is read before is there
still, and one that comes later is not waited for. -/
theorem Waited.unread (h : Waited d σ k l n command y r) (hd : Mutely law goal me id d)
    (hnum : Numbered d.link.connection)
    (hnone : (d.alone σ n).link.connection.answer? y.seq = none) (m : Nat) (b : Response)
    (hreads : (d.alone σ m).Reads (σ m).1 b) : b.requestSeq ≠ y.seq := by
  intro hseq
  obtain ⟨v, hsend⟩ := h.send
  obtain ⟨p, -, hx⟩ := h.wait
  have hkn : k < n := Nat.lt_trans h.order.1 h.order.2
  rcases Nat.lt_trichotomy m n with hmn | rfl | hnm
  · have hkm := sent_before_read hd hnum hsend hreads hseq
    have hthere : (d.alone σ (m + 1)).link.connection.answer? y.seq = some b :=
      hseq ▸ hreads.after (numbered_played hnum m)
    have hstill := answer_later hd hmn hthere fun j hj hjn =>
      h.untold j (Nat.le_trans (Nat.succ_le_succ (Nat.le_of_lt hkm)) hj) hjn
    rw [hnone] at hstill
    cases hstill
  · have hown := (did_of_deed (hd.after σ m) (σ m).2 hx).1
    have hbeat := hreads.beat
    rw [hown] at hbeat
    cases hbeat
  · obtain ⟨-, -, hknown, -⟩ := sent_of_deed hd hsend
    obtain ⟨x, hxseq, -, -, -, hover⟩ := h.result hd
    have hforgotten : Forgotten (d.alone σ (n + 1)).link.connection y.seq := by
      refine ⟨Int.lt_of_lt_of_le hknown (nextSeq_mono (Nat.succ_le_succ (Nat.le_of_lt hkn))), ?_⟩
      rw [hover, ← hxseq]
      intro hmem
      have hne := (List.mem_filter.mp hmem).2
      simp at hne
    have hlater := (forgotten_later hnm hforgotten).2
    exact hlater (hseq ▸ hreads.expected)

/-- **A call that has waited is told the answer that was read.** If none was read, none is read later
either, and the connection is closed or the time of the wait is over. -/
theorem Waited.told (h : Waited d σ k l n command y r) (hd : Mutely law goal me id d)
    (hnum : Numbered d.link.connection) (hempty : d.link.connection.answers = []) :
    (∃ m < n, ∃ b, (d.alone σ m).Reads (σ m).1 b ∧ b.requestSeq = y.seq ∧
      r = Exchange.outcome command b) ∨
    ((∀ m b, (d.alone σ m).Reads (σ m).1 b → b.requestSeq ≠ y.seq) ∧
      ((d.alone σ n).link.connection.isClosed = true ∨
        (d.alone σ l).now + d.link.connection.timeout.millis ≤ (d.alone σ n).now) ∧
      (r = .error .sessionTerminated ∨ r = .error (.timeout command d.link.connection.timeout))) := by
  obtain ⟨x, hxseq, hcommand, hdeadline, hresult, -⟩ := h.result hd
  cases ha : (d.alone σ n).link.connection.answer? y.seq with
  | some b =>
    have hread := read_of_answer (Traffic.mem_of_answer? ha)
    rw [hempty] at hread
    obtain ⟨m, hm, hreads, hseq⟩ := hread.resolve_left List.not_mem_nil
    have houtcome := result_of_answer (hxseq ▸ ha) (d.alone σ n).now
    refine .inl ⟨m, hm, b, hreads, hseq, ?_⟩
    rw [← hcommand]
    exact Option.some.inj (hresult.symm.trans houtcome)
  | none =>
    have hnone : (d.alone σ n).link.connection.answer? x.seq = none := hxseq ▸ ha
    refine .inr ⟨h.unread hd hnum ha, ?_, ?_⟩
    · obtain ⟨v, hsend⟩ := h.send
      have hpending := (sent_of_deed hd hsend).2.2.2
      have hkn : k + 1 ≤ n := Nat.lt_trans h.order.1 h.order.2
      rcases outstanding_later hd hkn (.inl hpending) h.untold with hout | hclosed
      · have hstill := hout.resolve_right fun hsome => hsome ha
        rcases result_without_answer hnone hresult with ⟨-, hgone | hclosed⟩ | ⟨-, hlate⟩
        · exact absurd (hxseq ▸ hstill) hgone
        · exact .inl hclosed
        · rw [hdeadline] at hlate
          exact .inr (by simpa using hlate)
      · exact .inl hclosed
    · rcases result_without_answer hnone hresult with ⟨hr, -⟩ | ⟨hr, -⟩
      · exact .inl hr
      · rw [hr, timeout_alone hd n, hcommand]
        exact .inr rfl

/-! ### Calls come to an end -/

/-- When a wait is over at the latest. -/
def deadline? : Action → Option Nat
  | .response x => x.deadline
  | .await _ deadline => deadline
  | _ => none

/-- Whether an action is done at once, at the latest at some time, or when the record of breakpoints is
free. -/
def Bounded : Action → Prop
  | .outcome _ => False
  | .acquire _ => False
  | .response x => x.deadline.isSome = true
  | .await _ deadline => deadline.isSome = true
  | _ => True

/-- Such an action is done when its time has come. -/
theorem got_of_bounded {d : Debugger ρ} {a : Action} (ha : Bounded a) (hfree : Free me d.room)
    (hlate : ∀ t, deadline? a = some t → t ≤ d.now) : ∃ r, (d.attempt me a).2 = .got r := by
  cases a with
  | outcome ticket => cases ha
  | acquire k => cases ha
  | response x =>
    obtain ⟨t, ht⟩ := Option.isSome_iff_exists.mp ha
    have hover : x.deadline.any (· ≤ d.now) = true := by
      rw [ht]
      simpa using hlate t ht
    simp only [attempt]
    cases hs : x.standing d.link.connection d.now with
    | waiting =>
      exfalso
      unfold Exchange.standing at hs
      split at hs
      · cases hs
      · rw [hover, if_pos rfl] at hs
        split at hs <;> cases hs
    | «over» r => exact ⟨_, rfl⟩
    | late => exact ⟨_, rfl⟩
  | await states deadline =>
    obtain ⟨t, rfl⟩ := Option.isSome_iff_exists.mp ha
    have hover : (some t).any (· ≤ d.now) = true := by simpa using hlate t rfl
    simp only [attempt, hover, if_true]
    split <;> exact ⟨_, rfl⟩
  | lock =>
    simp only [attempt, Room.lock]
    rcases hfree.1 with hnone | hme
    · rw [hnone]; exact ⟨_, rfl⟩
    · rw [hme]; simp only [if_true]; exact ⟨_, rfl⟩
  | unlock s => simp only [attempt]; split <;> exact ⟨_, rfl⟩
  | order o => simp only [attempt]; split <;> exact ⟨_, rfl⟩
  | _ => exact ⟨_, rfl⟩

variable (me : Nat) (d : Resumer) (σ : Nat → LoneBeat) in
/-- The task `me` gets its turns, and time passes. -/
structure Fair : Prop where
  turns : ∀ n, ∃ m, n ≤ m ∧ (σ m).1 = .task me
  time : ∀ t, ∃ n, ∀ m, n ≤ m → t ≤ (d.alone σ m).now

theorem free_alone (hd : Mutely law goal me id d) (hfree : Free me d.room) (n : Nat) :
    Free me (d.alone σ n).room := by
  induction n with
  | zero => exact hfree
  | succ n ih => exact free_beat (hd.after σ n) (σ n).2 ih

/-- What every beat leaves as it is, unless something is found, stays so until then. -/
theorem found_or_stays {P Q : Nat → Prop} (hn : Q n)
    (hbeat : ∀ j, n ≤ j → Q j → (∃ m, n ≤ m ∧ P m) ∨ Q (j + 1)) {j : Nat} (hj : n ≤ j) :
    (∃ m, n ≤ m ∧ P m) ∨ Q j := by
  induction hj with
  | refl => exact .inr hn
  | @step j hj ih => exact ih.elim .inl (hbeat j hj)

/-- The script of the call stays as it is until the call gets its turn. -/
theorem next_turn (hd : Mutely law goal me id d) (hfair : Fair me d σ)
    {s : Script (Except DebugError Unit)} (hs : (d.alone σ n).task? me = some (.call id s)) :
    ∃ m, n ≤ m ∧ (σ m).1 = .task me ∧ (d.alone σ m).task? me = some (.call id s) := by
  obtain ⟨m, hnm, hm⟩ := hfair.turns n
  have hstays := found_or_stays (Q := fun j => (d.alone σ j).task? me = some (.call id s))
    (P := fun m => (σ m).1 = .task me ∧ (d.alone σ m).task? me = some (.call id s)) hs
    (fun j hj hsame => by
      cases concerns (hd.after σ j) (σ j).2 with
      | others _ _ hscripts => exact .inr (hscripts _ rfl hsame).2
      | acts _ _ hown => exact .inl ⟨j, hj, hown, hsame⟩
      | ends _ hown => exact .inl ⟨j, hj, hown, hsame⟩) hnm
  exact hstays.elim (fun hfound => hfound) fun hsame => ⟨m, hnm, hm, hsame⟩

/-- A call whose next action is bounded does it at last. -/
theorem goes_on (hlaw : ∀ h a, law h a → Bounded a) (hd : Mutely law goal me id d)
    (hfree : Free me d.room) (hfair : Fair me d σ) {a : Action}
    {next : a.Reply → Script (Except DebugError Unit)}
    (hs : (d.alone σ n).task? me = some (.call id (.act a next))) :
    ∃ m r, (d.alone σ m).task? me = some (.call id (next r)) := by
  obtain ⟨late, hlate⟩ := hfair.time ((deadline? a).getD 0)
  -- either the action is done before, or the call stands before it when its time has come
  have hstands := found_or_stays (Q := fun j => (d.alone σ j).task? me = some (.call id (.act a next)))
    (P := fun m => ∃ r, (d.alone σ m).task? me = some (.call id (next r))) hs
    (fun j hj hsame => by
      cases concerns (hd.after σ j) (σ j).2 with
      | others _ _ hscripts => exact .inr (hscripts _ rfl hsame).2
      | acts a' next' _ htask _ _ _ hrest =>
        cases hsame.symm.trans htask
        obtain ⟨s, hs, ⟨r, -, rfl⟩ | ⟨-, rfl⟩⟩ := hrest
        · exact .inl ⟨j + 1, Nat.le_succ_of_le hj, r, hs⟩
        · exact .inr hs
      | ends r _ htask => cases hsame.symm.trans htask) (Nat.le_max_left n late)
  rcases hstands with ⟨m, -, hdone⟩ | hsame
  · exact ⟨m, hdone⟩
  · obtain ⟨j, hj, hturn, htask⟩ := next_turn hd hfair hsame
    cases concerns (hd.after σ j) (σ j).2 with
    | others _ _ hscripts => exact absurd hturn (hscripts _ rfl htask).1
    | ends r _ htask' => cases htask.symm.trans htask'
    | acts a' next' _ htask' _ _ _ hrest =>
      cases htask.symm.trans htask'
      obtain ⟨s, hs, ⟨r, -, rfl⟩ | ⟨⟨ss, t, hwait⟩, -⟩⟩ := hrest
      · exact ⟨j + 1, r, hs⟩
      · exfalso
        have hbounded : Bounded a := by
          cases (hd.after σ j).stands with
          | goesOn s' hs' _ hobeys _ =>
            cases htask.symm.trans hs'
            exact hlaw _ a hobeys.1
          | returned _ _ hbare _ =>
            have hnone := hbare _ (task_mem htask)
            cases hnone
        have hpassed : ∀ t, deadline? a = some t → t ≤ (d.alone σ j).now := fun t ht => by
          have hle := hlate j (Nat.le_trans (Nat.le_max_right ..) hj)
          rw [ht] at hle
          exact hle
        obtain ⟨r, hgot⟩ := got_of_bounded hbounded (free_alone (σ := σ) hd hfree j) hpassed
        rw [hgot] at hwait
        cases hwait

/-- **A call whose waits are bounded comes to an end.** -/
theorem returns (hlaw : ∀ h a, law h a → Bounded a) (hd : Mutely law goal me id d)
    (hfree : Free me d.room) (hfair : Fair me d σ) : ∃ n r, (id, r) ∈ (d.alone σ n).finished := by
  have hcomes (s : Script (Except DebugError Unit)) : ∀ n,
      (d.alone σ n).task? me = some (.call id s) → ∃ n r, (id, r) ∈ (d.alone σ n).finished := by
    induction s with
    | done r =>
      intro n hs
      obtain ⟨m, -, hturn, htask⟩ := next_turn hd hfair hs
      cases concerns (hd.after σ m) (σ m).2 with
      | others _ _ hscripts => exact absurd hturn (hscripts _ rfl htask).1
      | acts a next _ htask' => cases htask.symm.trans htask'
      | ends r' _ _ _ _ _ htold => exact ⟨m + 1, r', htold⟩
    | act a next ih =>
      intro n hs
      obtain ⟨m, r, hnext⟩ := goes_on hlaw hd hfree hfair hs
      exact ih r m hnext
  cases hd.course.stands with
  | goesOn s hs => exact hcomes s 0 hs
  | returned r _ _ hf => exact ⟨0, r, hf ▸ List.mem_singleton_self _⟩

end Debugger
end DebugHost
