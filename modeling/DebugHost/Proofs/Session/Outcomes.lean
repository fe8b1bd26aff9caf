import DebugHost.Proofs.Session.Quiet
import DebugHost.Proofs.Session.Reigns
import DebugHost.Proofs.Session.Tickets

/-! # Outcomes beside any number of users

Who gives the session an order takes a ticket for its outcome, while any number of others go on beside
him. As long as the session has not taken the order, the ticket is with it alone: no other command has
it, no task could settle it, and it is not settled (`Spared`). So where an outcome is known, the session
has taken the order before, or it is over (`Crowd.taken_of_settled`). -/

namespace DebugHost

open DebugHost.Session DebugHost.Script

variable {ρ : Type}

/-! ### What tasks still do -/

/-- All that a task still does is of a kind. -/
def Task.Within (kind : Action → Prop) : Task ρ → Prop
  | .watch s => s.Within kind
  | .call _ s => s.Within kind
  | _ => True

variable {kind : Action → Prop}

theorem Task.Within.next {t : Task ρ} {a : Action} {next : a.Reply → Task ρ} (h : t.Within kind)
    (hn : t.next? = some ⟨a, next⟩) : kind a ∧ ∀ r, (next r).Within kind := by
  cases t with
  | watch s =>
    cases s with
    | done u => cases hn
    | act a' next' => cases hn; exact h
  | call id s =>
    cases s with
    | done u => cases hn
    | act a' next' => cases hn; exact h
  | _ => cases hn

theorem Task.within_bare {t : Task ρ} (h : Debugger.bare t = true) : t.Within kind := by
  cases t with
  | watch s => cases h
  | call id s => cases h
  | _ => exact trivial

/-- Whether an action leaves a ticket alone: it neither settles its outcome nor gives a command with it. -/
def Spares (ticket : Nat) : Action → Prop
  | .reply t _ => t ≠ ticket
  | .post c => Room.ticket? c ≠ some ticket
  | _ => True

theorem within_watch_spares {ticket t : Nat} (h : t ≠ ticket) (x : Exchange) (epoch : Nat) :
    (watchResume x epoch t).Within (Spares ticket) :=
  within_watch trivial (fun _ => trivial) (fun _ ht => h (Option.some.inj ht)) fun _ => h

/-! ### Tickets among the effects of a step -/

/-- The ticket that an effect is about. -/
def Session.Effect.ticket? : Effect → Option Nat
  | .reply ticket _ => some ticket
  | .sent _ _ ticket => some ticket
  | _ => none

namespace Debugger

theorem mem_effectEntry {e : Effect} {ticket : Nat} (h : e.ticket? = some ticket) :
    ∃ p, (ticket, p) ∈ effectEntry e := by
  cases e with
  | reply t r => cases h; exact ⟨_, Multiset.mem_singleton_self _⟩
  | sent x epoch t => cases h; exact ⟨_, Multiset.mem_singleton_self _⟩
  | _ => cases h

/-- The effects of a step are about the ticket of the command that is taken. -/
theorem ticket_of_step {s : State} (hs : s.status.state ≠ .terminated) {c : Connection} {i : Input}
    {e : Effect} {ticket : Nat} (he : e ∈ (s.step c i).effects) (ht : e.ticket? = some ticket) :
    ∃ q, i = .command q ∧ Room.ticket? q = some ticket := by
  obtain ⟨p, hentry⟩ := mem_effectEntry ht
  have hp := mem_owed he hentry
  have hanswers := answers_step hs c i
  generalize owed (s.step c i).effects = entries at hp hanswers
  cases hanswers with
  | silent i hnone => exact absurd hp (Multiset.notMem_zero _)
  | sent kind thread t seq epoch effect => cases Multiset.mem_singleton.mp hp; exact ⟨_, rfl, rfl⟩
  | refused kind thread t e => cases Multiset.mem_singleton.mp hp; exact ⟨_, rfl, rfl⟩
  | carried o t other r => cases Multiset.mem_singleton.mp hp; exact ⟨_, rfl, rfl⟩
  | failed epoch e t => cases Multiset.mem_singleton.mp hp; exact ⟨_, rfl, rfl⟩

/-! ### A ticket that is left alone -/

/-- The ticket is not settled, no task could settle it, and of the commands that wait at most `c?` has
it. -/
structure Spared (ticket : Nat) (c? : Option Session.Command) (d : Debugger ρ) : Prop where
  unsettled : ∀ p ∈ d.room.outcomes, p.1 ≠ ticket
  queued : ∀ q ∈ d.room.commands, Room.ticket? q = some ticket → c? = some q
  tasks : ∀ p ∈ d.tasks, p.2.Within (Spares ticket)

variable {d d' : Debugger ρ} {ticket : Nat} {c? c?' : Option Session.Command}

theorem Spared.of_same (h : Spared ticket c? d) (ho : d'.room.outcomes = d.room.outcomes)
    (hc : d'.room.commands = d.room.commands) (ht : d'.tasks = d.tasks) : Spared ticket c? d' :=
  ⟨ho ▸ h.unsettled, hc ▸ h.queued, ht ▸ h.tasks⟩

theorem Spared.of_work (h : Spared ticket c? d) (hw : d'.work = d.work) : Spared ticket c? d' :=
  h.of_same (congrArg Work.outcomes hw) (congrArg Work.commands hw) (congrArg Work.tasks hw)

theorem Spared.mono (h : Spared ticket c? d) (hc : ∀ q, c? = some q → c?' = some q) :
    Spared ticket c?' d :=
  ⟨h.unsettled, fun q hq ht => hc q (h.queued q hq ht), h.tasks⟩

theorem Spared.without (h : Spared ticket c? d) (me : Nat) : Spared ticket c? (d.without me) :=
  ⟨h.unsettled, h.queued, fun p hp => h.tasks p (List.mem_filter.mp hp).1⟩

theorem Spared.put (h : Spared ticket c? d) (me : Nat) {t : Task ρ} (ht : t.Within (Spares ticket)) :
    Spared ticket c? (d.put me t) := by
  refine ⟨h.unsettled, h.queued, fun p hp => ?_⟩
  rcases List.mem_append.mp hp with hp | hp
  · exact h.tasks p hp
  · rw [List.mem_singleton.mp hp]
    exact ht

theorem Spared.task (h : Spared ticket c? d) {me : Nat} {t : Task ρ} (ht : d.task? me = some t) :
    t.Within (Spares ticket) :=
  h.tasks _ (task_mem ht)

/-- One more command waits. -/
theorem Spared.post (h : Spared ticket c? d) {q : Session.Command}
    (hq : Room.ticket? q = some ticket → c? = some q) :
    Spared ticket c? ({ d with room := d.room.post q } : Debugger ρ) := by
  refine ⟨h.unsettled, fun q' hq' ht => ?_, h.tasks⟩
  rcases List.mem_append.mp hq' with hq' | hq'
  · exact h.queued q' hq' ht
  · cases List.mem_singleton.mp hq'
    exact hq ht

theorem Spared.effect (h : Spared ticket c? d) {e : Effect} (he : e.ticket? ≠ some ticket) :
    Spared ticket c? (d.effect e) := by
  cases e with
  | reply t r =>
    refine ⟨fun p hp => ?_, h.queued, h.tasks⟩
    rcases List.mem_append.mp hp with hp | hp
    · exact h.unsettled p hp
    · rw [List.mem_singleton.mp hp]
      exact fun ht => he (congrArg some ht)
  | sent x epoch t =>
    have hwithin : (Task.watch (watchResume x epoch t) : Task ρ).Within (Spares ticket) :=
      within_watch_spares (fun ht => he (congrArg some ht)) x epoch
    refine ⟨h.unsettled, h.queued, fun p hp => ?_⟩
    rcases List.mem_append.mp hp with hp | hp
    · exact h.tasks p hp
    · rw [List.mem_singleton.mp hp]
      exact hwithin
  | _ => exact h.of_same rfl rfl rfl

theorem Spared.effects (h : Spared ticket c? d) {es : List Effect}
    (hes : ∀ e ∈ es, e.ticket? ≠ some ticket) : Spared ticket c? (es.foldl Debugger.effect d) := by
  induction es generalizing d with
  | nil => exact h
  | cons e es ih =>
    exact ih (h.effect (hes e (List.mem_cons_self ..))) fun e' he' => hes e' (List.mem_cons_of_mem _ he')

/-- The session takes an input that has not the ticket. -/
theorem Spared.takeInput (h : Spared ticket c? d) (ho : ¬ d.Over) {i : Input}
    (hi : ∀ q, i = .command q → Room.ticket? q ≠ some ticket) : Spared ticket c? (d.takeInput i) := by
  have hstepped : Spared ticket c? (d.stepped i) := ⟨h.unsettled, h.queued, h.tasks⟩
  rw [takeInput_eq]
  refine hstepped.effects fun e he ht => ?_
  obtain ⟨q, hq, hticket⟩ := ticket_of_step ho he ht
  exact hi q hq hticket

/-- What is taken from the queue was in it. -/
theorem commands_next {r room : Room} {i : Input} (h : r.next = some (i, room)) :
    room.outcomes = r.outcomes ∧ (∀ q ∈ room.commands, q ∈ r.commands) ∧
    ∀ q, i = .command q → q ∈ r.commands := by
  unfold Room.next at h
  split at h
  · cases h; exact ⟨rfl, fun _ hq => hq, fun _ hq => by cases hq⟩
  · cases h; exact ⟨rfl, fun _ hq => hq, fun _ hq => by cases hq⟩
  · split at h
    · cases h; exact ⟨rfl, fun _ hq => hq, fun _ hq => by cases hq⟩
    · split at h
      · cases h
      · next c rest hc =>
        cases h
        refine ⟨rfl, fun q hq => hc ▸ List.mem_cons_of_mem _ hq, fun q hq => ?_⟩
        cases hq
        exact hc ▸ List.mem_cons_self ..

/-- A session that leaves settles the tickets of the commands that wait. -/
theorem Spared.leave (h : Spared ticket none d) : Spared ticket none d.leave := by
  have hwork := work_leave d
  refine ⟨fun p hp => ?_, fun q hq => ?_, ?_⟩
  · rw [show d.leave.room.outcomes = _ from congrArg Work.outcomes hwork] at hp
    rcases List.mem_append.mp hp with hp | hp
    · exact h.unsettled p hp
    · obtain ⟨t, ht, rfl⟩ := List.mem_map.mp hp
      obtain ⟨q, hq, hticket⟩ := List.mem_filterMap.mp ht
      rintro rfl
      cases h.queued q hq hticket
  · rw [show d.leave.room.commands = _ from congrArg Work.commands hwork] at hq
    cases hq
  · rw [show d.leave.tasks = _ from congrArg Work.tasks hwork]
    exact h.tasks

/-- A task attempts an action that leaves the ticket alone, or gives an order with it. -/
theorem Spared.attempt (h : Spared ticket c? d) (me : Nat) {a : Action} (ha : Spares ticket a)
    (horder : ∀ o, a = .order o → d.room.listening = true → d.room.nextTicket = ticket →
      c? = some (.order o ticket)) : Spared ticket c? (d.attempt me a).1 := by
  cases hs : speaks a with
  | false => exact h.of_work (work_attempt d me hs)
  | true =>
    cases a with
    | post q =>
      simp only [Debugger.attempt, Debugger.post]
      split
      · have hpost : Spared ticket c? ({ d with room := d.room.post q } : Debugger ρ) :=
          h.post fun ht => absurd ht ha
        exact hpost.of_same rfl rfl rfl
      · exact h
    | order o =>
      simp only [Debugger.attempt]
      split
      · next hl =>
        have hpost : Spared ticket c? ({ d with room := d.room.post (.order o d.room.nextTicket) }) := by
          refine h.post fun ht => ?_
          have hnext : d.room.nextTicket = ticket := Option.some.inj ht
          rw [hnext]
          exact horder o rfl hl hnext
        exact hpost.of_same rfl rfl rfl
      · exact h
    | reply t r => exact h.effect (e := .reply t r) fun ht => ha (Option.some.inj ht)
    | _ => cases hs

end Debugger

namespace Crowd

open Debugger

variable {fit : Script ρ → Prop} {d : Debugger ρ} {σ : Nat → Happening fit} {ticket m n : Nat}
  {c? c?' : Option Session.Command}

/-! ### Tickets are given once -/

/-- The tickets come one after the other. -/
theorem nextTicket_attempt (d : Debugger ρ) (me : Nat) (a : Action) :
    d.room.nextTicket ≤ (d.attempt me a).1.room.nextTicket := by
  cases hs : speaks a with
  | false => exact Nat.le_of_eq (congrArg Work.nextTicket (work_attempt d me hs)).symm
  | true =>
    cases a with
    | post q => simp only [attempt, post]; split <;> exact Nat.le_refl _
    | order o =>
      simp only [attempt]
      split
      · exact Nat.le_succ _
      · exact Nat.le_refl _
    | reply t r => exact Nat.le_refl _
    | _ => cases hs

theorem nextTicket_happen (d : Debugger ρ) (h : Happening fit) :
    d.room.nextTicket ≤ (happen d h).room.nextTicket := by
  cases touches d h with
  | acts me x hx hgot hroom hlink => rw [hroom]; exact nextTicket_attempt d me x.action
  | waits me t a next ss deadline hx ht hn hwaits hroom hlink =>
    rw [hroom]
    exact nextTicket_attempt d me a
  | session hx hd =>
    rw [hd]
    refine Nat.le_of_eq ?_
    cases attends d with
    | leaves ho hd => rw [hd]; exact (congrArg Work.nextTicket (work_leave d)).symm
    | rests ho hn hd => rw [hd]
    | takes i room ho hn hd =>
      rw [hd, (takeInput_keeps_room { d with room := room } i).2]
      exact (next_keeps_room hn).2.symm
  | outside m hx hm hd =>
    rw [hd]
    cases m with
    | act me a => exact nextTicket_attempt d me a
    | pick => cases hm
    | input i => cases hm
    | leave => cases hm
    | feed e => cases hm
    | endFeed => cases hm
    | aside e => cases hm
    | _ => exact Nat.le_of_eq (congrArg Work.nextTicket (work_move d rfl fun _ _ h => by cases h)).symm
  | idle hx hroom hlink => rw [hroom]

/-- An order that is given takes the next ticket. -/
theorem ticket_given {h : Happening fit} {me : Nat} {o : Order}
    (hx : deed? d h = some (me, ⟨.order o, some ticket⟩)) :
    ticket = d.room.nextTicket ∧ (happen d h).room.nextTicket = ticket + 1 := by
  obtain ⟨hgot, hroom, -⟩ := attempt_of_deed hx
  rw [hroom]
  simp only [attempt] at hgot ⊢
  split at hgot
  · next hl => cases hgot; exact ⟨rfl, by rw [if_pos hl]; rfl⟩
  · cases hgot

/-- An order that is not taken finds that the session is over. -/
theorem listening_of_refused {h : Happening fit} {me : Nat} {o : Order}
    (hx : deed? d h = some (me, ⟨.order o, none⟩)) : d.room.listening = false := by
  have hgot := (attempt_of_deed hx).1
  simp only [attempt] at hgot
  split at hgot
  · cases hgot
  · next hl => exact Bool.eq_false_iff.mpr hl

/-! ### One step -/

/-- A ticket that is left alone stays so, until the session takes the command that has it. -/
theorem spared_happen (hfit : ∀ s, fit s → s.Within (Spares ticket)) (hs : Spared ticket c? d)
    (h : Happening fit) (hmono : ∀ q, c? = some q → c?' = some q)
    (hgiven : ∀ me o, deed? d h = some (me, ⟨.order o, some ticket⟩) → c?' = some (.order o ticket))
    (htaken : ∀ q, c? = some q → input? d h ≠ some (.command q)) (hover : d.Over → c? = none) :
    Spared ticket c?' (happen d h) := by
  have hs' := hs.mono hmono
  cases h with
  | task me =>
    show Spared ticket c?' (d.stride me)
    have hdeed : ∀ x, own? d me = some x →
        deed? d (.task me : Happening fit) = some (me, x) := fun x hx => by
      rw [deed?, hx]
      rfl
    have hgoes := goes d me
    generalize own? d me = x?, d.stride me = d' at hgoes hdeed
    cases hgoes with
    | idle => exact hs'
    | does t x next e ht hn ha =>
      obtain ⟨hspares, hnext⟩ := (hs.task ht).next hn
      refine Spared.put ?_ me (hnext _)
      have hattempt := (hs'.without me).attempt me hspares fun o ho hl hticket => by
        obtain ⟨a, r⟩ := x
        cases ho
        have hr : r = some ticket := by
          simp only [attempt] at ha
          rw [if_pos hl] at ha
          cases ha
          exact congrArg some hticket
        exact hgiven me o (by rw [hdeed _ rfl, hr])
      rw [ha] at hattempt
      exact hattempt
    | waits t a next e ss deadline ht hn ha =>
      refine Spared.put ?_ me (hs.task ht)
      have hattempt := (hs'.without me).attempt me ((hs.task ht).next hn).1 fun o ho hl _ => by
        subst ho
        simp only [attempt] at ha
        rw [if_pos hl] at ha
        cases ha
      rw [ha] at hattempt
      exact hattempt
    | ends t told ht ho => exact (hs'.without me).of_same rfl rfl rfl
  | session =>
    show Spared ticket c?' d.attend
    cases attends d with
    | leaves ho hd =>
      rw [hover ho] at hs
      rw [hd]
      exact hs.leave.mono fun q hq => by cases hq
    | rests ho hn hd => rw [hd]; exact hs'
    | takes i room ho hn hd =>
      obtain ⟨houtcomes, hcommands, hfrom⟩ := commands_next hn
      have hroom : Spared ticket c?' ({ d with room := room } : Debugger ρ) :=
        ⟨houtcomes ▸ hs'.unsettled, fun q hq => hs'.queued q (hcommands q hq), hs'.tasks⟩
      have hgoing : ¬ ({ d with room := room } : Debugger ρ).Over := by
        unfold Over at ho ⊢
        rw [(next_keeps hn).1]
        exact ho
      rw [hd]
      refine hroom.takeInput hgoing fun q hq ht => ?_
      refine htaken q (hs.queued q (hfrom q hq) ht) ?_
      rw [input?, if_neg ho, hn, hq]
      rfl
  | call id s fits =>
    refine ⟨hs'.unsettled, hs'.queued, fun p hp => ?_⟩
    rcases List.mem_append.mp hp with hp | hp
    · exact hs'.tasks p hp
    · rw [List.mem_singleton.mp hp]
      exact hfit s fits
  | outside m hm =>
    show Spared ticket c?' (d.move m)
    cases m with
    | act me a =>
      cases a with
      | post q =>
        cases q with
        | exited e =>
          exact hs'.attempt me (a := .post (.exited e)) (fun ht => by cases ht) fun o ho => by cases ho
        | _ => cases hm
      | _ => cases hm
    | pick => cases hm
    | input i => cases hm
    | leave => cases hm
    | feed e => cases hm
    | endFeed => cases hm
    | aside e => cases hm
    | _ => exact hs'.of_work (work_move d rfl fun _ _ h => by cases h)
  | lift me =>
    simp only [happen]
    split
    · exact hs'.without me
    · exact hs'
  | lay me t =>
    simp only [happen]
    split
    · next hlay => exact hs'.put me (Task.within_bare hlay.1)
    · exact hs'
  | aside e => exact hs'.of_same rfl rfl rfl

/-! ### In any order -/

theorem nextTicket_mono (hmn : m ≤ n) :
    (after d σ m).room.nextTicket ≤ (after d σ n).room.nextTicket := by
  induction hmn with
  | refl => exact Nat.le_refl _
  | @step k _ ih => exact Nat.le_trans ih (nextTicket_happen (after d σ k) (σ k))

theorem spared_opened (timeout : Duration) (id : SessionId) (ticket : Nat) :
    Spared ticket none (opened timeout id : Debugger ρ) := by
  have htasks : ∀ p ∈ (opened timeout id : Debugger ρ).tasks, bare p.2 = true := bare_opened
  refine ⟨?_, ?_, fun p hp => Task.within_bare (htasks p hp)⟩
  · rw [opened_eq]
    exact fun p hp => by cases hp
  · rw [opened_eq]
    exact fun q hq => by cases hq

/-- Nobody knows the tickets that are still to be given. -/
theorem spared_fresh (hfit : ∀ s, fit s → ∀ ticket, s.Within (Spares ticket)) (timeout : Duration)
    (id : SessionId) (σ : Nat → Happening fit) (n : Nat) :
    ∀ ticket, (after (opened timeout id) σ n).room.nextTicket ≤ ticket →
      Spared ticket none (after (opened timeout id) σ n) := by
  induction n with
  | zero =>
    intro ticket hle
    rw [after_zero]
    exact spared_opened timeout id ticket
  | succ n ih =>
    intro ticket hle
    have hle' := Nat.le_trans (nextTicket_happen (after (opened timeout id) σ n) (σ n)) hle
    refine spared_happen (fun s hs => hfit s hs ticket) (ih ticket hle') (σ n) (fun q hq => hq)
      (fun me o hx => ?_) (fun q hq => by cases hq) fun _ => rfl
    have hnext := (ticket_given hx).2
    rw [after_succ, hnext] at hle
    exact absurd hle (Nat.not_succ_le_self _)

/-- **An outcome is known once the order is carried out**: where the outcome of an order is settled, the
session has taken the order, or it is over. -/
theorem taken_of_settled (hfit : ∀ s, fit s → ∀ ticket, s.Within (Spares ticket)) {timeout : Duration}
    {id : SessionId} {σ : Nat → Happening fit} {me : Nat} {o : Order}
    (hgave : deed? (after (opened timeout id) σ m) (σ m) = some (me, ⟨.order o, some ticket⟩))
    (hsettled : (after (opened timeout id) σ n).room.outcome? ticket ≠ none) :
    (after (opened timeout id) σ n).Over ∨ ∃ k, m < k ∧ k < n ∧
      input? (after (opened timeout id) σ k) (σ k) = some (.command (.order o ticket)) := by
  obtain ⟨hticket, hnext⟩ := ticket_given hgave
  have hunsettled {c? : Option Session.Command} {k : Nat}
      (h : Spared ticket c? (after (opened timeout id) σ k)) :
      (after (opened timeout id) σ k).room.outcome? ticket = none :=
    Option.map_eq_none_iff.mpr (List.find?_eq_none.mpr fun p hp => by simpa using h.unsettled p hp)
  rcases Nat.lt_or_ge m n with hmn | hnm
  · -- from the order on, the ticket is with it alone
    suffices hspared : ∀ n, m < n → (after (opened timeout id) σ n).Over ∨
        (∃ k, m < k ∧ k < n ∧
          input? (after (opened timeout id) σ k) (σ k) = some (.command (.order o ticket))) ∨
        ticket < (after (opened timeout id) σ n).room.nextTicket ∧
          Spared ticket (some (.order o ticket)) (after (opened timeout id) σ n) by
      rcases hspared n hmn with hover | htaken | ⟨-, hs⟩
      · exact .inl hover
      · exact .inr htaken
      · exact absurd (hunsettled hs) hsettled
    intro n hmn
    induction hmn with
    | refl =>
      have hfresh := spared_fresh hfit timeout id σ m ticket (Nat.le_of_eq hticket.symm)
      refine .inr (.inr ⟨?_, ?_⟩)
      · rw [Nat.succ_eq_add_one, after_succ, hnext]
        exact Nat.lt_succ_self _
      · refine spared_happen (fun s hs => hfit s hs ticket) hfresh (σ m) (fun q hq => by cases hq)
          (fun me' o' hx => ?_) (fun q hq => by cases hq) fun _ => rfl
        cases hgave.symm.trans hx
        rfl
    | @step n hn ih =>
      by_cases hover : (after (opened timeout id) σ n).Over
      · exact .inl (over_mono hover (Nat.le_succ n)).1
      · rcases ih with hover' | ⟨k, hmk, hkn, hk⟩ | ⟨hlt, hs⟩
        · exact absurd hover' hover
        · exact .inr (.inl ⟨k, hmk, Nat.lt_succ_of_lt hkn, hk⟩)
        · by_cases htaken : input? (after (opened timeout id) σ n) (σ n) =
              some (.command (.order o ticket))
          · exact .inr (.inl ⟨n, hn, Nat.lt_succ_self n, htaken⟩)
          · have hlt' := Nat.lt_of_lt_of_le hlt
              (nextTicket_happen (after (opened timeout id) σ n) (σ n))
            refine .inr (.inr ⟨hlt', ?_⟩)
            refine spared_happen (fun s hs => hfit s hs ticket) hs (σ n) (fun q hq => hq)
              (fun me' o' hx => ?_) (fun q hq => ?_) fun ho => absurd ho hover
            · -- the ticket is not given again
              have hagain := (ticket_given hx).1
              omega
            · cases hq
              exact htaken
  · -- before the order the ticket is still to be given
    have hle : (after (opened timeout id) σ n).room.nextTicket ≤ ticket := by
      rw [hticket]
      exact nextTicket_mono hnm
    exact absurd (hunsettled (spared_fresh hfit timeout id σ n ticket hle)) hsettled

end Crowd
end DebugHost
