import Mathlib.Algebra.BigOperators.Group.List.Basic
import Mathlib.Tactic.IntervalCases
import DebugHost.Proofs.Debugger.Requests
import DebugHost.Proofs.Session.Tickets
import DebugHost.Proofs.Session.Undoing

/-! # What a resume reports

A resume waits for the outcome of its ticket. If the adapter agrees, the outcome is a success; if it
does not, the failure goes back to the session first, which tells it when it takes it. But a session
that leaves drops what it has not taken, and the one who waits for a dropped ticket takes that for a
success. So a resume reports a success that it did not have just if the session left with the command
or with the failure in its queue (`Debugger.resume_result`). -/

namespace DebugHost

open DebugHost.Session

namespace Debugger

/-! ### Any order of beats -/

/-- A debugger before its session begins: no call is under way. -/
structure Idle (d : Resumer) : Prop where
  distinct : (d.tasks.map (·.1)).Nodup
  numbered : ∀ p ∈ d.tasks, p.1 < d.nextTask
  bare : ∀ p ∈ d.tasks, bare p.2 = true
  unfinished : d.finished = []
  requests : Numbered d.link.connection

/-- A connection to which nothing has happened is without calls. -/
theorem idle_connect (timeout : Duration) : (connect timeout : Resumer).Idle := by
  have htasks : (connect timeout : Resumer).tasks = [(0, .writer), (1, .reader)] := rfl
  have hnext : (connect timeout : Resumer).nextTask = 2 := rfl
  have hconnection : (connect timeout : Resumer).link.connection = { timeout := timeout } := rfl
  refine ⟨?_, ?_, ?_, rfl, ?_⟩
  · rw [htasks]; decide
  · rw [htasks, hnext]; decide
  · rw [htasks]; simp [bare]
  · rw [hconnection]; exact ⟨by simp, by simp, by simp⟩

/-- In a beat the call `id`, which is to let a thread go on, gets a ticket. -/
def Gives (d : Resumer) (b : Beat (Except DebugError Unit)) (id : Nat) (kind : StepKind) (thread : Int)
    (ticket : Nat) : Prop :=
  ∃ me, b = .task me ∧ d.task? me = some (.call id (resume kind thread)) ∧
    d.room.listening = true ∧ ticket = d.room.nextTicket

/-- In a beat the call `id`, which is to let a thread go on, finds that the session has left. -/
def Late (d : Resumer) (b : Beat (Except DebugError Unit)) (id : Nat) : Prop :=
  ∃ me kind thread, b = .task me ∧ d.task? me = some (.call id (resume kind thread)) ∧
    d.room.listening = false

variable (d : Resumer) (σ : Nat → Beat (Except DebugError Unit))

/-- Before beat `n` the request for a ticket has been sent. -/
def Asked (n ticket : Nat) (seq : Int) (command : String) : Prop :=
  ∃ j < n, (d.played σ j).Asks (σ j) ticket seq command

/-- Before beat `n` it has been told what came of the request for a ticket. -/
def Told (n ticket : Nat) (r : Except DebugError Response) : Prop :=
  ∃ k < n, ∃ x, Asked d σ k ticket x.seq x.command ∧ (d.played σ k).Tells (σ k) ticket x r

/-- Before beat `n` the session has left without having taken a command. -/
def Dropped (n : Nat) (c : Session.Command) : Prop := ∃ j < n, (d.played σ j).Drops (σ j) c

/-- Before beat `n` the session has left without having taken a failure that was told before. -/
def Lost (n ticket : Nat) (e : DebugError) : Prop :=
  ∃ j < n, ∃ epoch, Told d σ j ticket (.error e) ∧
    (d.played σ j).Drops (σ j) (.resumeFailed epoch e ticket)

variable {d : Resumer} {σ : Nat → Beat (Except DebugError Unit)}

/-- Before the session begins no ticket has been given. -/
theorem booked_fresh (h : d.Idle) (id : SessionId) (attached : Bool) :
    Booked (d.fresh id attached) := by
  have hsum : (d.tasks.map fun p => taskEntry p.2).sum = 0 := by
    refine List.sum_eq_zero fun x hx => ?_
    obtain ⟨p, hp, rfl⟩ := List.mem_map.mp hx
    exact taskEntry_bare (h.bare p hp)
  refine ⟨⟨h.distinct, h.numbered, fun p hp => proper_of_bare (h.bare p hp)⟩, ?_⟩
  simp only [ledger, Work.ledger, work, fresh, hsum]
  rfl

theorem booked_played (h : d.Booked) (n : Nat) : (d.played σ n).Booked := by
  induction n with
  | zero => exact h
  | succ n ih => exact booked_beat ih (σ n)

/-- **What holds of the place of a ticket holds later** if it survives every way to pass. -/
theorem place_later (h : d.Booked) {ticket : Nat} {P : Nat → Place → Prop}
    (stays : ∀ n p, P n p → P (n + 1) p)
    (passes : ∀ n p p', P n p → (d.played σ n).Passes (σ n) ticket p p' → P (n + 1) p')
    {i n : Nat} (hin : i ≤ n) {p : Place} (hp : (ticket, p) ∈ (d.played σ i).ledger) (hP : P i p) :
    ∃ p', (ticket, p') ∈ (d.played σ n).ledger ∧ P n p' := by
  induction hin with
  | refl => exact ⟨p, hp, hP⟩
  | @step n _ ih =>
    obtain ⟨q, hq, hPq⟩ := ih
    obtain ⟨q', hq', rfl | hpass⟩ := place_beat (booked_played h n).orderly (σ n) hq
    · exact ⟨q', hq', stays n q' hPq⟩
    · exact ⟨q', hq', passes n q q' hPq hpass⟩

theorem Asked.mono {n n' ticket : Nat} {seq : Int} {command : String}
    (h : Asked d σ n ticket seq command) (hn : n ≤ n') : Asked d σ n' ticket seq command := by
  obtain ⟨j, hj, ha⟩ := h
  exact ⟨j, Nat.lt_of_lt_of_le hj hn, ha⟩

theorem Told.mono {n n' ticket : Nat} {r : Except DebugError Response} (h : Told d σ n ticket r)
    (hn : n ≤ n') : Told d σ n' ticket r := by
  obtain ⟨k, hk, ht⟩ := h
  exact ⟨k, Nat.lt_of_lt_of_le hk hn, ht⟩

theorem Dropped.mono {n n' : Nat} {c : Session.Command} (h : Dropped d σ n c) (hn : n ≤ n') :
    Dropped d σ n' c := by
  obtain ⟨j, hj, hd⟩ := h
  exact ⟨j, Nat.lt_of_lt_of_le hj hn, hd⟩

theorem Lost.mono {n n' ticket : Nat} {e : DebugError} (h : Lost d σ n ticket e) (hn : n ≤ n') :
    Lost d σ n' ticket e := by
  obtain ⟨j, hj, hl⟩ := h
  exact ⟨j, Nat.lt_of_lt_of_le hj hn, hl⟩

/-! ### How a ticket has come to its place -/

/-- How the ticket of a resume has come to its place before beat `n`. -/
inductive Story (d : Resumer) (σ : Nat → Beat (Except DebugError Unit)) (kind : StepKind)
    (thread : Int) (ticket n : Nat) : Place → Prop where
  | ordered : Story d σ kind thread ticket n (.queued (.order (.resume kind thread) ticket))
  | begins (seq : Int) (command : String) (epoch : Nat) (asked : Asked d σ n ticket seq command) :
    Story d σ kind thread ticket n (.watched (.begins seq command epoch ticket))
  | waits (x : Exchange) (epoch : Nat) (asked : Asked d σ n ticket x.seq x.command) :
    Story d σ kind thread ticket n (.watched (.waits x epoch ticket))
  | fails (e : DebugError) (epoch : Nat) (told : Told d σ n ticket (.error e)) :
    Story d σ kind thread ticket n (.watched (.fails e epoch ticket))
  | failed (e : DebugError) (epoch : Nat) (told : Told d σ n ticket (.error e)) :
    Story d σ kind thread ticket n (.queued (.resumeFailed epoch e ticket))
  | agreed (r : Response) (told : Told d σ n ticket (.ok r)) :
    Story d σ kind thread ticket n (.watched (.tells (.ok ()) ticket))
  | refused (e : DebugError) : Story d σ kind thread ticket n (.watched (.tells (.error e) ticket))
  | success (r : Response) (told : Told d σ n ticket (.ok r)) :
    Story d σ kind thread ticket n (.settled (some (.ok ())))
  | failure (e : DebugError) : Story d σ kind thread ticket n (.settled (some (.error e)))
  | missed (dropped : Dropped d σ n (.order (.resume kind thread) ticket)) :
    Story d σ kind thread ticket n (.settled none)
  | lost (e : DebugError) (lost : Lost d σ n ticket e) :
    Story d σ kind thread ticket n (.settled none)

variable {kind : StepKind} {thread : Int} {ticket n : Nat} {p p' : Place}

theorem Story.stays (h : Story d σ kind thread ticket n p) :
    Story d σ kind thread ticket (n + 1) p := by
  have hn := Nat.le_succ n
  cases h with
  | ordered => exact .ordered
  | begins seq command epoch ha => exact .begins seq command epoch (ha.mono hn)
  | waits x epoch ha => exact .waits x epoch (ha.mono hn)
  | fails e epoch ht => exact .fails e epoch (ht.mono hn)
  | failed e epoch ht => exact .failed e epoch (ht.mono hn)
  | agreed r ht => exact .agreed r (ht.mono hn)
  | refused e => exact .refused e
  | success r ht => exact .success r (ht.mono hn)
  | failure e => exact .failure e
  | missed hd => exact .missed (hd.mono hn)
  | lost e hl => exact .lost e (hl.mono hn)

theorem Story.passes (h : Story d σ kind thread ticket n p)
    (hp : (d.played σ n).Passes (σ n) ticket p p') : Story d σ kind thread ticket (n + 1) p' := by
  have hn := Nat.lt_succ_self n
  cases hp with
  | asked kind' thread' seq epoch ha => exact .begins seq kind'.command epoch ⟨n, hn, ha⟩
  | refused _ _ e => exact .failure e
  | carried o hother r =>
    cases h with
    | ordered => exact absurd rfl (hother kind thread)
  | begins seq command epoch deadline =>
    cases h with
    | begins _ _ _ ha => exact .waits _ epoch (ha.mono (Nat.le_succ n))
  | told x epoch r ht =>
    cases h with
    | waits _ _ ha =>
      have htold : Told d σ (n + 1) ticket r := ⟨n, hn, x, ha, ht⟩
      rcases r with e | r
      · rcases Wait.answered_error epoch ticket e with hw | hw
        · rw [hw]; exact .fails e epoch htold
        · rw [hw]; exact .refused e
      · exact .agreed r htold
  | back e epoch =>
    cases h with
    | fails _ _ ht => exact .failed e epoch (ht.mono (Nat.le_succ n))
  | alone e epoch => exact .refused e
  | tells r =>
    cases h with
    | agreed r ht => exact .success r (ht.mono (Nat.le_succ n))
    | refused e => exact .failure e
  | undone e epoch => exact .failure e
  | dropped c hd =>
    cases h with
    | ordered => exact .missed ⟨n, hn, hd⟩
    | failed e epoch ht => exact .lost e ⟨n, hn, epoch, ht, hd⟩

/-! ### What becomes of a ticket -/

/-- Where a ticket can be once a failure has been told. -/
inductive Failing (d : Resumer) (σ : Nat → Beat (Except DebugError Unit)) (ticket : Nat)
    (e : DebugError) (n : Nat) : Place → Prop where
  | fails (epoch : Nat) : Failing d σ ticket e n (.watched (.fails e epoch ticket))
  | tells : Failing d σ ticket e n (.watched (.tells (.error e) ticket))
  | failed (epoch : Nat) : Failing d σ ticket e n (.queued (.resumeFailed epoch e ticket))
  | failure : Failing d σ ticket e n (.settled (some (.error e)))
  | lost (lost : Lost d σ n ticket e) : Failing d σ ticket e n (.settled none)

theorem Failing.stays {e : DebugError} (h : Failing d σ ticket e n p) :
    Failing d σ ticket e (n + 1) p := by
  cases h with
  | lost hl => exact .lost (hl.mono (Nat.le_succ n))
  | fails epoch => exact .fails epoch
  | tells => exact .tells
  | failed epoch => exact .failed epoch
  | failure => exact .failure

theorem Failing.passes {e : DebugError} (ht : Told d σ n ticket (.error e))
    (h : Failing d σ ticket e n p) (hp : (d.played σ n).Passes (σ n) ticket p p') :
    Failing d σ ticket e (n + 1) p' := by
  cases h with
  | fails epoch =>
    cases hp with
    | back => exact .failed epoch
    | alone => exact .tells
  | tells => cases hp with
    | tells => exact .failure
  | failed epoch =>
    cases hp with
    | undone => exact .failure
    | dropped c hd => exact .lost ⟨n, Nat.lt_succ_self n, epoch, ht, hd⟩
  | failure => cases hp
  | lost => cases hp

theorem failing_answered (epoch : Nat) (e : DebugError) :
    Failing d σ ticket e n (.watched (.answered epoch ticket (.error e))) := by
  rcases Wait.answered_error epoch ticket e with hw | hw
  · rw [hw]; exact .fails epoch
  · rw [hw]; exact .tells

/-- **A failure that has been told is reported, or is lost with the session.** -/
theorem failing_settled (h : d.Booked) {e : DebugError} (ht : Told d σ n ticket (.error e))
    {o : Option (Except DebugError Unit)} (ho : (ticket, .settled o) ∈ (d.played σ n).ledger) :
    o = some (.error e) ∨ o = none ∧ Lost d σ n ticket e := by
  obtain ⟨k, hk, x, ha, hx⟩ := ht
  obtain ⟨epoch, hafter⟩ := hx.after
  have htold : ∀ m, k < m → Told d σ m ticket (.error e) := fun m hm => ⟨k, hm, x, ha, hx⟩
  obtain ⟨p, hp, -, hf⟩ := place_later (σ := σ) h (P := fun m p => k < m ∧ Failing d σ ticket e m p)
    (fun m p hm => ⟨Nat.lt_succ_of_lt hm.1, hm.2.stays⟩)
    (fun m p p' hm hpass => ⟨Nat.lt_succ_of_lt hm.1, hm.2.passes (htold m hm.1) hpass⟩) hk hafter
    ⟨Nat.lt_succ_self k, failing_answered epoch e⟩
  cases (booked_played h n).unique hp ho
  cases hf with
  | failure => exact Or.inl rfl
  | lost hl => exact Or.inr ⟨rfl, hl⟩

/-! ### Requests and answers -/

/-- The request of a resume takes the next number, for the one whose command the session takes. -/
theorem Asks.inv {b : Beat (Except DebugError Unit)} {seq : Int} {command : String}
    (h : d.Asks b ticket seq command) :
    seq = d.link.connection.nextSeq ∧ seq < (d.beat b).link.connection.nextSeq ∧
    ∃ kind thread room, d.room.next = some (.command (.order (.resume kind thread) ticket), room) := by
  obtain ⟨rfl, ho, i, room, epoch, hn, hx⟩ := h
  obtain ⟨kind, thread, rfl, hp, hopen, hseq, -, -⟩ := State.sent_step hx
  cases hseq
  have hbeat : d.beat .session =
      { d with room := room }.takeInput (.command (.order (.resume kind thread) ticket)) := by
    simp only [beat, attend, if_neg ho, hn]
  have hconn := (takeInput_keeps { d with room := room }
    (.command (.order (.resume kind thread) ticket))).2.1
  refine ⟨rfl, ?_, kind, thread, room, hn⟩
  rcases State.handles_resumed (State.handles_step d.link.connection ho
    (.command (.order (.resume kind thread) ticket))) with ⟨-, -, -, hc⟩ | ⟨hnot, -⟩
  · rw [hbeat, hconn]
    show _ < Connection.nextSeq (State.step room.state d.link.connection _).connection
    rw [(next_keeps hn).1, hc]
    exact Int.lt_add_one_of_le (Int.le_refl _)
  · exact absurd ⟨hp, hopen⟩ hnot

/-- One number is for one ticket. -/
theorem asks_unique {i j : Nat} {ticket' : Nat} {seq : Int} {command command' : String}
    (hi : (d.played σ i).Asks (σ i) ticket seq command)
    (hj : (d.played σ j).Asks (σ j) ticket' seq command') : i = j ∧ ticket = ticket' := by
  obtain ⟨hsi, hli, _, _, _, hni⟩ := hi.inv
  obtain ⟨hsj, hlj, _, _, _, hnj⟩ := hj.inv
  have hij : i = j := by
    rcases Nat.lt_trichotomy i j with h | h | h
    · have := nextSeq_mono (d := d) (σ := σ) (Nat.succ_le_of_lt h)
      rw [played_succ, ← hsj] at this
      omega
    · exact h
    · have := nextSeq_mono (d := d) (σ := σ) (Nat.succ_le_of_lt h)
      rw [played_succ, ← hsi] at this
      omega
  subst hij
  cases hni.symm.trans hnj
  exact ⟨rfl, rfl⟩

/-- The one who is told what came of a request does not wait for it any more. -/
theorem Tells.forgets {b : Beat (Except DebugError Unit)} {x : Exchange}
    {r : Except DebugError Response} (h : d.Tells b ticket x r) :
    x.seq ∉ (d.beat b).link.connection.pending := by
  obtain ⟨me, epoch, rfl, ht, hr⟩ := h
  have hbeat : (d.beat (.task me)).link = ((d.without me).attempt me (.response x)).1.link := by
    rw [← pace_fst _ me (.response x) (tellAnswer epoch ticket)]
    simp only [beat, stride, ht, Wait.script, put]
  have hsettle : ((d.without me).attempt me (.response x)).1.link.connection =
      x.settle d.link.connection := by
    simp only [attempt]
    unfold Exchange.result? at hr
    split at hr
    · cases hr
    · next hs => simp only [without, hs, withConnection]
    · next hs => simp only [without, hs, withConnection, record]
  rw [hbeat, hsettle]
  simp [Exchange.settle, Connection.dropAnswer, Connection.forget]

/-- The task that is told has the ticket. -/
theorem Tells.before (hd : d.Orderly) {b : Beat (Except DebugError Unit)} {x : Exchange}
    {r : Except DebugError Response} (h : d.Tells b ticket x r) :
    ∃ epoch, (ticket, .watched (.waits x epoch ticket)) ∈ d.ledger := by
  obtain ⟨me, epoch, -, ht, -⟩ := h
  have hl := ledger_without hd.distinct ht
  rw [taskEntry_script] at hl
  rw [hl]
  exact ⟨epoch, Multiset.mem_add.mpr (Or.inl (Multiset.mem_singleton_self _))⟩

/-- How far the one who waits has come can be told from its script. -/
theorem tells_of_script (hd : d.Orderly) {me epoch : Nat} {s : Script Unit} {x : Exchange}
    {r : Except DebugError Response} (ht : d.task? me = some (.watch s))
    (hs : Wait.ofScript s = .waits x epoch ticket)
    (hr : x.result? d.link.connection d.now = some r) : d.Tells (.task me) ticket x r := by
  obtain ⟨w, rfl⟩ : ∃ w : Wait, s = w.script := hd.proper _ (task_mem ht)
  rw [Wait.ofScript_script] at hs
  exact ⟨me, epoch, rfl, hs ▸ ht, hr⟩

/-! ### Who waits for what -/

/-- The one who waits in a place waits for a request that was sent for the ticket. -/
def WaitsFor (d : Resumer) (σ : Nat → Beat (Except DebugError Unit)) (n ticket : Nat) : Place → Prop
  | .watched (.begins seq command _ _) => Asked d σ n ticket seq command
  | .watched (.waits x _ _) => Asked d σ n ticket x.seq x.command
  | _ => True

theorem WaitsFor.stays (h : WaitsFor d σ n ticket p) : WaitsFor d σ (n + 1) ticket p := by
  unfold WaitsFor at h ⊢
  split
  · exact Asked.mono h (Nat.le_succ n)
  · exact Asked.mono h (Nat.le_succ n)
  · trivial

theorem WaitsFor.passes (h : WaitsFor d σ n ticket p)
    (hp : (d.played σ n).Passes (σ n) ticket p p') : WaitsFor d σ (n + 1) ticket p' := by
  cases hp with
  | asked _ _ seq epoch ha => exact ⟨n, Nat.lt_succ_self n, ha⟩
  | begins seq command epoch deadline => exact Asked.mono h (Nat.le_succ n)
  | told x epoch r _ =>
    rcases r with e | r
    · rcases Wait.answered_error epoch ticket e with hw | hw
      · rw [hw]; trivial
      · rw [hw]; trivial
    · trivial
  | _ => trivial

/-- A ticket that is in a place after a beat has just been given, or has been in a place before. -/
theorem place_before (h : d.Booked) (b : Beat (Except DebugError Unit))
    (hp : (ticket, p') ∈ (d.beat b).ledger) :
    (∃ o, p' = .queued (.order o ticket)) ∨
      ∃ p, (ticket, p) ∈ d.ledger ∧ (p' = p ∨ d.Passes b ticket p p') := by
  by_cases hk : ticket ∈ d.ledger.map Prod.fst
  · obtain ⟨⟨_, p⟩, hold, rfl⟩ := Multiset.mem_map.mp hk
    obtain ⟨q, hq, hor⟩ := place_beat h.orderly b hold
    cases (booked_beat h b).unique hp hq
    exact Or.inr ⟨p, hold, hor⟩
  · have hnew : (d.beat b).room.nextTicket ≠ d.room.nextTicket := by
      intro hn
      refine hk ?_
      rw [h.once, ← hn, ← (booked_beat h b).once]
      exact Multiset.mem_map_of_mem Prod.fst hp
    cases passed_beat h.orderly b with
    | same _ hn => exact absurd hn hnew
    | moved _ _ _ _ _ _ _ hn => exact absurd hn hnew
    | left _ _ _ _ _ hn => exact absurd hn hnew
    | given o ha _ =>
      rw [ha] at hp
      rcases Multiset.mem_add.mp hp with hp | hp
      · cases Multiset.mem_singleton.mp hp
        exact Or.inl ⟨o, rfl⟩
      · exact absurd (Multiset.mem_map_of_mem Prod.fst hp) hk

theorem waitsFor_played (h : d.Booked) (h₀ : d.ledger = 0)
    (hp : (ticket, p) ∈ (d.played σ n).ledger) : WaitsFor d σ n ticket p := by
  induction n generalizing p with
  | zero =>
    have hp : (ticket, p) ∈ d.ledger := hp
    rw [h₀] at hp
    cases hp
  | succ n ih =>
    rcases place_before (booked_played h n) (σ n) hp with ⟨o, rfl⟩ | ⟨q, hq, rfl | hpass⟩
    · trivial
    · exact (ih hq).stays
    · exact (ih hq).passes hpass

/-! ### An answer is told -/

/-- Nobody but the one who waits for the answer to a resume looks for it. -/
def Private (d : Resumer) (σ : Nat → Beat (Except DebugError Unit)) : Prop :=
  ∀ m me y, σ m = .other (.act me (.response y)) → ∀ j ticket seq command,
    (d.played σ j).Asks (σ j) ticket seq command → y.seq ≠ seq

/-- Whether in a beat another user looks for an answer. -/
def looks : Beat (Except DebugError Unit) → Bool
  | .other (.act _ (.response _)) => true
  | _ => false

/-- Where nobody looks for the answers of others, the answers to resumes are private. -/
theorem private_of_looks (h : ∀ m, looks (σ m) = false) : Private d σ := by
  intro m me y hm
  have := h m
  rw [hm] at this
  cases this

/-- Who looks for an answer is a task that waits for it. -/
theorem proper_action {t : Task (Except DebugError Unit)} (ht : Proper t) {x : Exchange}
    (hx : action? t = some (.response x)) :
    ∃ epoch ticket, t = .watch (Wait.waits x epoch ticket).script := by
  cases t with
  | watch s =>
    obtain ⟨w, rfl⟩ := ht
    cases w with
    | waits y epoch ticket => cases hx; exact ⟨epoch, ticket, rfl⟩
    | _ => cases hx
  | call id s =>
    rcases ht with ⟨kind, thread, rfl⟩ | ⟨ticket, rfl⟩ | ⟨r, rfl⟩
    · rw [resume_eq] at hx; cases hx
    · cases hx
    · cases hx
  | _ => cases hx

/-- The one who looks for an answer that is there is told it. -/
theorem Takes.tells (h : d.Booked) (h₀ : d.ledger = 0) (hown : Private d σ) {j m : Nat} {seq : Int}
    {command : String} (ha : (d.played σ j).Asks (σ j) ticket seq command)
    (ht : (d.played σ m).Takes (σ m) seq) {r : Response}
    (hr : (d.played σ m).link.connection.answer? seq = some r) :
    ∃ x, x.seq = seq ∧ (d.played σ m).Tells (σ m) ticket x (Exchange.outcome x.command r) := by
  rcases ht with ⟨me, y, hb, hy⟩ | ⟨me, t, x, hb, ht, hx, rfl⟩
  · exact absurd hy (hown m me y hb j ticket seq command ha)
  · have hbooked := booked_played (σ := σ) h m
    obtain ⟨epoch, ticket', rfl⟩ := proper_action (hbooked.orderly.proper _ (task_mem ht)) hx
    have htells : (d.played σ m).Tells (σ m) ticket' x (Exchange.outcome x.command r) :=
      ⟨me, epoch, hb, ht, result_of_answer hr _⟩
    obtain ⟨epoch, hplace⟩ := htells.before hbooked.orderly
    obtain ⟨i, -, hi⟩ := waitsFor_played h h₀ hplace
    obtain ⟨-, rfl⟩ := asks_unique hi ha
    exact ⟨x, rfl, htells⟩

/-- An answer that was read stays until it is told. -/
theorem answer_until_told (h : d.Booked) (h₀ : d.ledger = 0)
    (hc : Numbered d.link.connection) (hown : Private d σ) {j m k : Nat} {seq : Int}
    {command : String} (ha : (d.played σ j).Asks (σ j) ticket seq command) {r : Response}
    (hr : (d.played σ m).Reads (σ m) r) (hseq : r.requestSeq = seq) (hmk : m < k) :
    (d.played σ k).link.connection.answer? seq = some r ∨
      ∃ i, m < i ∧ i < k ∧ ∃ x, x.seq = seq ∧
        (d.played σ i).Tells (σ i) ticket x (Exchange.outcome x.command r) := by
  induction hmk with
  | refl => exact Or.inl (hseq ▸ hr.after (numbered_played hc m))
  | @step k hmk ih =>
    rcases ih with hans | ⟨i, hmi, hik, hx⟩
    · by_cases ht : (d.played σ k).Takes (σ k) seq
      · exact Or.inr ⟨k, hmk, Nat.lt_succ_self k, ht.tells h h₀ hown ha hans⟩
      · exact Or.inl ((evolves_beat _ (σ k)).answer? hans ht)
    · exact Or.inr ⟨i, hmi, Nat.lt_succ_of_lt hik, hx⟩

/-- The places of a ticket once it has been told what came of the request. -/
def Past : Place → Prop
  | .watched (.fails ..) => True
  | .watched (.tells ..) => True
  | .queued (.resumeFailed ..) => True
  | .settled _ => True
  | _ => False

theorem past_answered (epoch ticket : Nat) (r : Except DebugError Response) :
    Past (.watched (.answered epoch ticket r)) := by
  rcases r with e | r
  · rcases Wait.answered_error epoch ticket e with hw | hw
    · rw [hw]; trivial
    · rw [hw]; trivial
  · trivial

theorem Past.passes {b : Beat (Except DebugError Unit)} (h : Past p)
    (hp : d.Passes b ticket p p') : Past p' := by
  cases hp with
  | told x epoch r _ => exact past_answered epoch ticket r
  | asked => exact h.elim
  | begins => exact h.elim
  | _ => trivial

/-- What came of a request is told once. -/
theorem tells_once (h : d.Booked) {i k : Nat} {x x' : Exchange} {r r' : Except DebugError Response}
    (hi : (d.played σ i).Tells (σ i) ticket x r) (hk : (d.played σ k).Tells (σ k) ticket x' r') :
    ¬ i < k := by
  intro hik
  obtain ⟨epoch, hafter⟩ := hi.after
  obtain ⟨p, hp, hpast⟩ := place_later (σ := σ) h (P := fun _ p => Past p) (fun _ _ hp => hp)
    (fun _ _ _ hp hpass => hp.passes hpass) hik hafter (past_answered epoch ticket r)
  obtain ⟨epoch', hbefore⟩ := hk.before (booked_played h k).orderly
  cases (booked_played h k).unique hp hbefore
  exact hpast.elim

/-- Where a ticket is from which the request `seq` was sent. -/
inductive Pending (d : Resumer) (σ : Nat → Beat (Except DebugError Unit)) (ticket : Nat) (seq : Int)
    (command : String) (n : Nat) : Place → Prop where
  | begins (epoch : Nat) :
    Pending d σ ticket seq command n (.watched (.begins seq command epoch ticket))
  | waits (deadline epoch : Nat) :
    Pending d σ ticket seq command n (.watched (.waits ⟨seq, command, some deadline⟩ epoch ticket))
  | told (p : Place) (k : Nat) (before : k < n) (deadline : Nat) (r : Except DebugError Response)
    (tells : (d.played σ k).Tells (σ k) ticket ⟨seq, command, some deadline⟩ r) :
    Pending d σ ticket seq command n p

theorem Pending.stays {seq : Int} {command : String} (h : Pending d σ ticket seq command n p) :
    Pending d σ ticket seq command (n + 1) p := by
  cases h with
  | begins epoch => exact .begins epoch
  | waits deadline epoch => exact .waits deadline epoch
  | told p k hk deadline r ht => exact .told p k (Nat.lt_succ_of_lt hk) deadline r ht

theorem Pending.passes {seq : Int} {command : String} (h : Pending d σ ticket seq command n p)
    (hp : (d.played σ n).Passes (σ n) ticket p p') : Pending d σ ticket seq command (n + 1) p' := by
  cases h with
  | begins epoch =>
    cases hp with
    | begins _ _ _ deadline => exact .waits deadline epoch
  | waits deadline epoch =>
    cases hp with
    | told _ _ r ht => exact .told _ n (Nat.lt_succ_self n) deadline r ht
  | told p k hk deadline r ht => exact .told p' k (Nat.lt_succ_of_lt hk) deadline r ht

/-- **An answer that was read is told** by the time that the outcome is settled. -/
theorem told_of_read (h : d.Booked) (h₀ : d.ledger = 0) (hc : Numbered d.link.connection)
    (hown : Private d σ) {seq : Int} {command : String} (ha : Asked d σ n ticket seq command)
    {m : Nat} {r : Response} (hr : (d.played σ m).Reads (σ m) r) (hseq : r.requestSeq = seq)
    {o : Option (Except DebugError Unit)} (ho : (ticket, .settled o) ∈ (d.played σ n).ledger) :
    Told d σ n ticket (Exchange.outcome command r) := by
  obtain ⟨j, hjn, ha⟩ := ha
  obtain ⟨epoch, hafter⟩ := ha.after
  obtain ⟨p, hp, hpending⟩ := place_later (σ := σ) h (P := Pending d σ ticket seq command)
    (fun _ _ hp => hp.stays) (fun _ _ _ hp hpass => hp.passes hpass) hjn hafter (.begins epoch)
  cases (booked_played h n).unique hp ho
  cases hpending with
  | told _ k hk deadline r' ht =>
    obtain ⟨i, hik, hi⟩ := waitsFor_played h h₀ (ht.before (booked_played h k).orderly).choose_spec
    rcases Nat.lt_trichotomy k m with hkm | rfl | hmk
    · have hforget : Forgotten (d.played σ (k + 1)).link.connection seq := by
        refine ⟨?_, ht.forgets⟩
        have hlt := nextSeq_mono (d := d) (σ := σ) (Nat.succ_le_of_lt (Nat.lt_succ_of_lt hik))
        exact Int.lt_of_lt_of_le hi.inv.2.1 hlt
      exact absurd (hseq ▸ hr.expected) (forgotten_later hkm hforget).2
    · obtain ⟨me, _, hb, _⟩ := ht
      rw [hr.beat] at hb
      cases hb
    · rcases answer_until_told h h₀ hc hown ha hr hseq hmk with hans | ⟨i', -, hi'k, x, -, hx⟩
      · obtain ⟨me, epoch', hb, htask, hres⟩ := ht
        cases (result_of_answer hans _).symm.trans hres
        exact ⟨k, hk, _, ⟨i, hik, hi⟩, me, epoch', hb, htask, hres⟩
      · exact absurd hi'k (tells_once h hx ht)

/-- A settled outcome stays. -/
theorem settled_later (h : d.Booked) {k : Nat} (hkn : k ≤ n) {o : Option (Except DebugError Unit)}
    (ho : (ticket, .settled o) ∈ (d.played σ k).ledger) :
    (ticket, .settled o) ∈ (d.played σ n).ledger := by
  obtain ⟨p, hp, rfl⟩ := place_later (σ := σ) h (P := fun _ p => p = .settled o) (fun _ _ hp => hp)
    (fun _ _ _ hp hpass => by rw [hp] at hpass; cases hpass) hkn ho rfl
  exact hp

/-! ### Calls -/

/-- Before beat `n` the call `id` has got a ticket. -/
def Gave (d : Resumer) (σ : Nat → Beat (Except DebugError Unit)) (n id : Nat) (kind : StepKind)
    (thread : Int) (ticket : Nat) : Prop :=
  ∃ i < n, (d.played σ i).Gives (σ i) id kind thread ticket

/-- How the call `id` has come to its result before beat `n`. -/
inductive Ended (d : Resumer) (σ : Nat → Beat (Except DebugError Unit)) (n id : Nat) :
    Except DebugError Unit → Prop where
  /-- The session had left. -/
  | late (i : Nat) (before : i < n) (late : (d.played σ i).Late (σ i) id) : Ended d σ n id (.ok ())
  /-- The outcome of its ticket was settled. -/
  | settled (k : Nat) (before : k < n) (kind : StepKind) (thread : Int) (ticket : Nat)
    (gave : Gave d σ k id kind thread ticket) (o : Option (Except DebugError Unit))
    (outcome : (d.played σ k).room.outcome? ticket = some o) : Ended d σ n id (o.getD (.ok ()))

/-- What is known of a task before beat `n`. -/
inductive Known (d : Resumer) (σ : Nat → Beat (Except DebugError Unit)) (n : Nat) :
    Task (Except DebugError Unit) → Prop where
  | begun (id : Nat) (kind : StepKind) (thread : Int) : Known d σ n (.call id (resume kind thread))
  | waits (id : Nat) (kind : StepKind) (thread : Int) (ticket : Nat)
    (gave : Gave d σ n id kind thread ticket) : Known d σ n (.call id (awaiting ticket))
  | ended (id : Nat) (r : Except DebugError Unit) (ended : Ended d σ n id r) :
    Known d σ n (.call id (.done r))
  | other (t : Task (Except DebugError Unit)) (other : ∀ id s, t ≠ .call id s) : Known d σ n t

theorem Ended.mono {n n' id : Nat} {r : Except DebugError Unit} (h : Ended d σ n id r) (hn : n ≤ n') :
    Ended d σ n' id r := by
  cases h with
  | late i hi hl => exact .late i (Nat.lt_of_lt_of_le hi hn) hl
  | settled k hk kind thread ticket hg o ho =>
    exact .settled k (Nat.lt_of_lt_of_le hk hn) kind thread ticket hg o ho

theorem Known.mono {n n' : Nat} {t : Task (Except DebugError Unit)} (h : Known d σ n t) (hn : n ≤ n') :
    Known d σ n' t := by
  cases h with
  | begun id kind thread => exact .begun id kind thread
  | waits id kind thread ticket hg =>
    obtain ⟨i, hi, hg⟩ := hg
    exact .waits id kind thread ticket ⟨i, Nat.lt_of_lt_of_le hi hn, hg⟩
  | ended id r he => exact .ended id r (he.mono hn)
  | other _ ho => exact .other _ ho

theorem known_bare {t : Task (Except DebugError Unit)} (h : bare t = true) : Known d σ n t :=
  .other t fun id s hs => by rw [hs] at h; cases h

/-- A call goes on as it is known. -/
theorem Known.calls {me id : Nat} {s s' : Script (Except DebugError Unit)} {between : Resumer}
    (hb : σ n = .task me) (ht : (d.played σ n).task? me = some (.call id s))
    (hk : Known d σ n (.call id s)) (hc : Calls ((d.played σ n).without me) between s s') :
    Known d σ (n + 1) (.call id s') := by
  have hn := Nat.lt_succ_self n
  cases hc with
  | gives kind thread hl _ => exact .waits id kind thread _ ⟨n, hn, me, hb, ht, hl, rfl⟩
  | late kind thread hl _ => exact .ended id _ (.late n hn ⟨me, kind, thread, hb, ht, hl⟩)
  | waits ticket _ => exact hk.mono (Nat.le_succ n)
  | ends ticket o ho _ =>
    cases hk with
    | waits id kind thread ticket hg => exact .ended id _ (.settled n hn kind thread ticket hg o ho)
    | other _ hother => exact absurd rfl (hother id _)

/-- The session adds to the tasks only those that wait for answers. -/
theorem effects_tasks {ρ : Type} (d : Debugger ρ) (es : List Effect) :
    (∀ p ∈ (es.foldl effect d).tasks, p ∈ d.tasks ∨ ∃ s, p.2 = .watch s) ∧
    (es.foldl effect d).finished = d.finished := by
  induction es generalizing d with
  | nil => exact ⟨fun p hp => Or.inl hp, rfl⟩
  | cons e es ih =>
    obtain ⟨ht, hf⟩ := ih (d.effect e)
    have he : (∀ p ∈ (d.effect e).tasks, p ∈ d.tasks ∨ ∃ s, p.2 = .watch s) ∧
        (d.effect e).finished = d.finished := by
      cases e with
      | sent x epoch ticket =>
        refine ⟨fun p hp => ?_, rfl⟩
        rcases List.mem_append.mp hp with hp | hp
        · exact Or.inl hp
        · rw [List.mem_singleton.mp hp]
          exact Or.inr ⟨_, rfl⟩
      | _ => exact ⟨fun p hp => Or.inl hp, rfl⟩
    refine ⟨fun p hp => ?_, hf.trans he.2⟩
    rcases ht p hp with hp | hp
    · exact he.1 p hp
    · exact Or.inr hp

theorem mem_put {d : Resumer} {me : Nat} {t : Task (Except DebugError Unit)}
    {q : Nat × Task (Except DebugError Unit)} (hq : q ∈ (d.put me t).tasks) :
    q ∈ d.tasks ∨ q = (me, t) := by
  rcases List.mem_append.mp hq with hq | hq
  · exact Or.inl hq
  · exact Or.inr (List.mem_singleton.mp hq)

theorem Watches.finished {ρ : Type} {d d' : Debugger ρ} {w w' : Wait} (h : Watches d d' w w') :
    d'.finished = d.finished := by
  cases h with
  | begins _ _ _ _ _ hd => rw [hd]
  | waits _ _ _ _ hw => exact congrArg Work.finished hw
  | told _ _ _ _ _ hw => exact congrArg Work.finished hw
  | back _ _ _ hd => rw [hd]; rfl
  | alone _ _ _ _ hd => rw [hd]
  | tells _ _ hd => rw [hd]; rfl

theorem Calls.finished {d d' : Resumer} {s s' : Script (Except DebugError Unit)}
    (h : Calls d d' s s') : d'.finished = d.finished := by
  cases h with
  | gives _ _ _ hd => rw [hd]; rfl
  | late _ _ _ hd => rw [hd]
  | waits _ hd => rw [hd]
  | ends _ _ _ hd => rw [hd]

/-- **What is known of tasks and results.** -/
theorem known_played (h : d.Booked) (hbare : ∀ p ∈ d.tasks, bare p.2 = true)
    (hfinished : d.finished = []) (n : Nat) :
    (∀ p ∈ (d.played σ n).tasks, Known d σ n p.2) ∧
    ∀ p ∈ (d.played σ n).finished, Ended d σ n p.1 p.2 := by
  induction n with
  | zero =>
    refine ⟨fun p hp => known_bare (hbare p hp), fun p hp => ?_⟩
    have hp : p ∈ d.finished := hp
    rw [hfinished] at hp
    cases hp
  | succ n ih =>
    obtain ⟨ht, hf⟩ := ih
    have hn := Nat.le_succ n
    -- Tasks and results that are not new are still known.
    have hold : ∀ {d' : Resumer}, (∀ p ∈ d'.tasks, p ∈ (d.played σ n).tasks ∨ Known d σ (n + 1) p.2) →
        d'.finished = (d.played σ n).finished →
        (∀ p ∈ d'.tasks, Known d σ (n + 1) p.2) ∧ ∀ p ∈ d'.finished, Ended d σ (n + 1) p.1 p.2 := by
      intro d' htasks hfin
      refine ⟨fun p hp => ?_, fun p hp => (hf p (hfin ▸ hp)).mono hn⟩
      rcases htasks p hp with hp | hk
      · exact (ht p hp).mono hn
      · exact hk
    have hwithout : ∀ me, ∀ p ∈ ((d.played σ n).without me).tasks, p ∈ (d.played σ n).tasks :=
      fun me p hp => List.mem_of_mem_filter hp
    have hwatch : ∀ s, Known d σ (n + 1) (.watch s) := fun s => .other _ fun _ _ h => by cases h
    rw [played_succ]
    cases beats (booked_played h n).orderly (σ n) with
    | rests hw =>
      have htasks : ((d.played σ n).beat (σ n)).tasks = (d.played σ n).tasks :=
        congrArg Work.tasks hw
      exact hold (fun p hp => Or.inl (htasks ▸ hp)) (congrArg Work.finished hw)
    | watch me w w' between _ _ hp hd =>
      rw [hd]
      refine hold (fun q hq => ?_) hp.finished
      rcases mem_put hq with hq | rfl
      · rw [hp.tasks.1] at hq
        exact Or.inl (hwithout me q hq)
      · exact Or.inr (hwatch _)
    | watchOver me _ hd => rw [hd]; exact hold (fun q hq => Or.inl (hwithout me q hq)) rfl
    | call me id s s' between hb htask hp hd =>
      rw [hd]
      refine hold (fun q hq => ?_) hp.finished
      rcases mem_put hq with hq | rfl
      · rw [hp.tasks.1] at hq
        exact Or.inl (hwithout me q hq)
      · exact Or.inr ((ht _ (task_mem htask)).calls hb htask hp)
    | callOver me id r htask hd =>
      rw [hd]
      refine ⟨fun q hq => (ht q (hwithout me q hq)).mono hn, fun q hq => ?_⟩
      rcases List.mem_append.mp hq with hq | hq
      · exact (hf q hq).mono hn
      · rw [List.mem_singleton.mp hq]
        cases ht _ (task_mem htask) with
        | ended _ _ he => exact he.mono hn
        | other _ hother => exact absurd rfl (hother id _)
    | takes i room _ _ _ hd =>
      rw [hd, takeInput_eq]
      obtain ⟨htasks, hfin⟩ := effects_tasks (stepped { d.played σ n with room := room } i)
        (State.step room.state (d.played σ n).link.connection i).effects
      refine hold (fun q hq => ?_) hfin
      rcases htasks q hq with hq | ⟨s, hs⟩
      · exact Or.inl hq
      · exact Or.inr (hs ▸ hwatch s)
    | leaves _ _ hd =>
      have hw := work_leave (d.played σ n)
      rw [hd]
      have htasks : (d.played σ n).leave.tasks = (d.played σ n).tasks := congrArg Work.tasks hw
      exact hold (fun q hq => Or.inl (htasks ▸ hq)) (congrArg Work.finished hw)
    | begins id kind thread _ hd =>
      rw [hd]
      refine hold (fun q hq => ?_) rfl
      rcases List.mem_append.mp hq with hq | hq
      · exact Or.inl hq
      · rw [List.mem_singleton.mp hq]
        exact Or.inr (.begun id kind thread)
    | orders o hd => rw [hd]; exact hold (fun q hq => Or.inl hq) rfl
    | posts c _ hd => rw [hd]; exact hold (fun q hq => Or.inl hq) rfl
    | lifts me t _ _ hd => rw [hd]; exact hold (fun q hq => Or.inl (hwithout me q hq)) rfl
    | lays me t hbare _ _ hd =>
      rw [hd]
      refine hold (fun q hq => ?_) rfl
      rcases mem_put hq with hq | rfl
      · exact Or.inl hq
      · exact Or.inr (known_bare hbare)

/-- The command of a call that has got a ticket is in the queue. -/
theorem Gives.after {b : Beat (Except DebugError Unit)} {id : Nat}
    (h : d.Gives b id kind thread ticket) :
    (ticket, .queued (.order (.resume kind thread) ticket)) ∈ (d.beat b).ledger := by
  obtain ⟨me, rfl, ht, hl, rfl⟩ := h
  rw [resume_eq] at ht
  have hhere : (d.without me).room.listening = true := hl
  simp only [beat, stride, ht, pace, attempt, hhere, if_true, ledger_put]
  have hpost := ledger_post (d.without me) (.order (.resume kind thread) d.room.nextTicket)
  refine Multiset.mem_add.mpr (Or.inr ?_)
  refine (congrArg _ hpost).mpr (Multiset.mem_add.mpr (Or.inl ?_))
  exact Multiset.mem_singleton_self _

/-! ### What a resume reports -/

/-- Before beat `n` the adapter has agreed to the request for a ticket. -/
def Agreed (d : Resumer) (σ : Nat → Beat (Except DebugError Unit)) (n ticket : Nat) : Prop :=
  ∃ seq command, Asked d σ n ticket seq command ∧
    ∃ m < n, ∃ r, (d.played σ m).Reads (σ m) r ∧ r.requestSeq = seq ∧ r.success = true

/-- Before beat `n` the request for a ticket has failed with `e`: the adapter has refused it, or the one
who waits has been told of the failure. -/
def Failed (d : Resumer) (σ : Nat → Beat (Except DebugError Unit)) (n ticket : Nat) (e : DebugError) :
    Prop :=
  Told d σ n ticket (.error e) ∨
  ∃ seq command, Asked d σ n ticket seq command ∧
    ∃ m < n, ∃ r, (d.played σ m).Reads (σ m) r ∧ r.requestSeq = seq ∧
      Exchange.outcome command r = .error e

/-- Who is told that the adapter agreed, is told what the adapter said. -/
theorem agreed_of_told (hc : Numbered d.link.connection) {r : Response}
    (h : Told d σ n ticket (.ok r)) : Agreed d σ n ticket := by
  obtain ⟨k, hk, x, ⟨j, hj, ha⟩, me, epoch, -, -, hres⟩ := h
  obtain ⟨hmem, hsuccess⟩ := answer_of_ok hres
  refine ⟨x.seq, x.command, ⟨j, Nat.lt_trans hj hk, ha⟩, ?_⟩
  rcases read_of_answer hmem with hold | ⟨m, hm, hr, hseq⟩
  · have hlt := hc.answers _ hold
    have hle := nextSeq_mono (d := d) (σ := σ) (Nat.zero_le j)
    rw [← ha.inv.1] at hle
    exact absurd hlt (Int.not_lt.mpr hle)
  · exact ⟨m, Nat.lt_trans hm hk, r, hr, hseq, hsuccess⟩

/-- The session leaves only after its end. -/
theorem over_of_left (h : d.room.listening = true) (hl : (d.played σ n).room.listening = false) :
    (d.played σ n).Over := by
  induction n with
  | zero => exact absurd (h.symm.trans hl) (by decide)
  | succ n ih =>
    have hk := keeps_beat (d.played σ n) (σ n)
    rcases hk.listening with hsame | hover
    · exact hk.ended (ih (hsame.symm.trans hl))
    · exact hover

/-- A session that has begun on a new connection. -/
def launched : Resumer := (connect ⟨5000⟩ : Resumer).fresh ⟨1⟩ false

/-- A resume is not answered in time, and its failure goes back to the session. But the session takes
the end of the program first, and leaves. -/
def lateFailure (n : Nat) : Beat (Except DebugError Unit) :=
  [.other (.feed (.event ⟨0, "stopped",
      some (.obj [("reason", .str "breakpoint"), ("threadId", .int 7)])⟩)),
    .session, .resume 0 .continue 7, .task 2, .session, .task 3, .other (.clock 5000), .task 3,
    .other (.feed (.event ⟨0, "terminated", none⟩)), .task 3, .session, .session, .task 2,
    .task 2].getD n (.other .read)

end Debugger
end DebugHost
