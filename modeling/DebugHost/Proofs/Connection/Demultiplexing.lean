import DebugHost.Proofs.Connection.Intake
import DebugHost.Proofs.Connection.Matching

/-! # Demultiplexing

What comes in on a connection reaches those whom it concerns (`demultiplexed`), whatever calls are made,
however long they wait, whatever arrives and in whatever order all of this happens: an answer goes to the
request it names and to no other, or counts as an orphan, an event is reported, a request of the adapter
is refused. This puts together what the modules before say about numbers, the table and the reader. A
refusal is lost only where the writer has ended while the reader goes on, which takes a shutdown or a
failing write (`calm_after`). -/

namespace DebugHost.Traffic

open DebugHost.Json

variable {x y : Traffic}

/-! ### As long as nobody disturbs the connection -/

/-- Whether a move may end the writer while the reader goes on. -/
def Move.disturbs : Move → Bool
  | .shutdown => true
  | .failWrite _ => true
  | _ => false

/-- As long as the reader goes on, the connection is open and has its writer. -/
def Calm (x : Traffic) : Prop :=
  x.intake.isOn = true → x.connection.closed = none ∧ x.cancelled = false ∧ x.outlet = .writing

theorem Calm.quiet (h : Calm x) (hq : Quiet x y) : Calm y := by
  intro hon
  obtain ⟨hclosed, hcancelled, hwriting⟩ := h (hq.on hon)
  exact ⟨hq.closed.trans hclosed, hq.cancelled.trans hcancelled, hq.outlet.trans hwriting⟩

/-- Nobody shuts an open connection down who has not given a reason. -/
theorem Calm.cancel (h : Calm x) : Calm x.cancel := by
  unfold Traffic.cancel
  split
  · next hc =>
    intro hon
    obtain ⟨hnone, -⟩ := h hon
    exact absurd hnone (Option.isSome_iff_ne_none.mp hc)
  · exact h

theorem Calm.stopWrite (h : Calm x) : Calm x.stopWrite := by
  have hsame : x.stopWrite.intake = x.intake := by
    unfold Traffic.stopWrite
    split
    · split <;> rfl
    · rfl
    · split <;> rfl
    · rfl
  intro hon
  rw [hsame] at hon
  obtain ⟨hclosed, hcancelled, hwriting⟩ := h hon
  have hidle : x.stopWrite = x := by
    unfold Traffic.stopWrite
    rw [hwriting, hcancelled]
    rfl
  rw [hidle]
  exact ⟨hclosed, hcancelled, hwriting⟩

theorem Calm.goOn (h : Calm x) : Calm x.goOn := by
  unfold Traffic.goOn
  split
  · exact h
  · next r hi => exact fun _ => h (by rw [hi]; rfl)
  · exact fun hon => by cases hon
  · next reason hi =>
    split
    · exact fun hon => by cases hon
    · intro hon
      rw [show ({ x with cancelled := true } : Traffic).intake = x.intake from rfl, hi] at hon
      cases hon
  · exact fun hon => by cases hon
  · exact h

theorem Calm.move (h : Calm x) {m : Move} (hm : m.disturbs = false) : Calm (x.move m) := by
  cases m with
  | shutdown => cases hm
  | failWrite text => cases hm
  | cancel => exact h.cancel
  | stopWrite => exact h.stopWrite
  | goOn => exact h.goOn
  | _ => exact h.quiet (quiet_move x rfl)

variable {timeout : Duration} {σ : Nat → Move} {n : Nat}

theorem calm_after (hσ : ∀ k < n, (σ k).disturbs = false) : Calm (after timeout σ n) := by
  induction n with
  | zero => exact fun _ => ⟨rfl, rfl, rfl⟩
  | succ n ih =>
    rw [after_succ]
    exact (ih fun k hk => hσ k (Nat.lt_succ_of_lt hk)).move (hσ n (Nat.lt_succ_self n))

/-- Where nobody shuts the connection down and no write fails, all requests of the adapter are
refused. -/
theorem refuses_after (hσ : ∀ k < n, (σ k).disturbs = false) :
    List.Forall₂ Refuses (responses (after timeout σ n).posted) (requests (after timeout σ n).received) := by
  induction n with
  | zero => exact .nil
  | succ n ih =>
    have hσ' : ∀ k < n, (σ k).disturbs = false := fun k hk => hσ k (Nat.lt_succ_of_lt hk)
    cases records_change (change_move (after timeout σ n) (σ n)) with
    | rests hi hreported hrests =>
      rw [after_succ, hrests.responses, hrests.received]
      exact ih hσ'
    | ends reason hi hi' hreported hrests =>
      rw [after_succ, hrests.responses, hrests.received]
      exact ih hσ'
    | message m hm =>
      -- the reader reads, so that there is a writer, before the move and after it
      have hwriting := (calm_after hσ' (by rw [hm.reading]; rfl)).2.2
      obtain ⟨qs, hrefuses, -, hall⟩ := refused_after timeout σ (n + 1)
      have hout : (after timeout σ (n + 1)).outlet = .writing := hm.outlet.trans hwriting
      obtain rfl := hall (by rw [hout]; simp)
      exact hrefuses

/-! ### Exactness -/

/-- What comes of all that goes out and comes in on a connection. -/
structure Demultiplexed (timeout : Duration) (σ : Nat → Move) : Prop where
  /-- A call that is given an answer has the number that the answer names, and the answer was matched
  to it when it was taken in. -/
  own : ∀ n me e r, (after timeout σ n).calls me = some (.answered e r) →
    r.requestSeq = e.seq ∧ r ∈ (after timeout σ n).completed
  /-- No two answers that were matched name the same request. -/
  once : ∀ n, ((after timeout σ n).completed.map (·.requestSeq)).Nodup
  /-- A pending request is that of just one call, which has not come to its end, and was not completed
  before. -/
  pending : ∀ n, (after timeout σ n).connection.pending.Nodup ∧
    ∀ s ∈ (after timeout σ n).connection.pending,
      (∃ me, (after timeout σ n).unsettled? me = some s ∧
        ∀ i, (after timeout σ n).number? i = some s → i = me) ∧
      s ∉ (after timeout σ n).completed.map (·.requestSeq)
  /-- Every message that is taken in is handled: an answer completes the pending request that it names
  or counts as one orphan, an event is reported, a request is refused, and that is all. -/
  handled : ∀ n, (after timeout σ (n + 1)).received = (after timeout σ n).received ∨
    ∃ m, TakesIn (after timeout σ n) (after timeout σ (n + 1)) m
  /-- A reader that reads takes in the message that comes next. -/
  reads : ∀ n m, σ n = .read → (after timeout σ n).intake = .reading →
    (after timeout σ n).link.inbound.next.1 = some (.message m) →
    TakesIn (after timeout σ n) (after timeout σ (n + 1)) m
  /-- An answer to a call that may still be answered, and has none yet, completes its request. -/
  reaches : ∀ n me r, TakesIn (after timeout σ n) (after timeout σ (n + 1)) (.response r) →
    (after timeout σ n).hopes? me = some r.requestSeq →
    (after timeout σ n).connection.answer? r.requestSeq = none →
    (after timeout σ (n + 1)).intake = .holding r ∧
      (after timeout σ (n + 1)).completed = (after timeout σ n).completed ++ [r]
  /-- All in all every answer was matched or counts as an orphan. -/
  counted : ∀ n, Counted (after timeout σ n)
  /-- The messages that were taken in are those that have arrived, in their order. -/
  arrived : ∀ n more, (after timeout σ n).MayCome more →
    (after timeout σ n).received.map .message <+: Frame.results ((after timeout σ n).arrived ++ more)
  /-- What is reported are the events among them, in their order, and the end behind them. -/
  reported : ∀ n, Reported (after timeout σ n)
  /-- The requests among them are refused in their order as long as there is a writer, -/
  refused : ∀ n, Refused (after timeout σ n)
  /-- and all of them, unless somebody shuts the connection down or a write fails. -/
  refuses : ∀ n, (∀ k < n, (σ k).disturbs = false) →
    List.Forall₂ Refuses (responses (after timeout σ n).posted)
      (requests (after timeout σ n).received)
  /-- All messages that go out have numbers of their own. -/
  numbers : ∀ n, ((after timeout σ n).posted.map Message.seq).Nodup ∧
    ((after timeout σ n).link.written ++ (after timeout σ n).connection.queue).Sublist
      (after timeout σ n).posted

theorem takesIn_read {m : Message} (hi : x.intake = .reading)
    (hn : x.link.inbound.next.1 = some (.message m)) : TakesIn x x.read m := by
  unfold read
  rw [hi]
  rcases hnext : x.link.inbound.next with ⟨o, r⟩
  rw [hnext] at hn
  obtain rfl : o = some (.message m) := hn
  exact (takesIn_receive hi r m).1

/-- What is kept for a call that has no answer while the reader reads is its number in the table. -/
theorem TakesIn.reaches {r : Response} {me : Nat} (h : TakesIn x y (.response r)) (hkept : Kept x)
    (hopes : x.hopes? me = some r.requestSeq) (hnone : x.connection.answer? r.requestSeq = none) :
    y.intake = .holding r ∧ y.completed = x.completed ++ [r] := by
  have hin : r.requestSeq ∈ x.connection.pending := by
    rcases hkept me _ hopes with hp | hi | ha | hover
    · exact hp
    · rw [h.reading] at hi
      cases hi
    · exact absurd hnone ha
    · rw [h.reading] at hover
      cases hover
  cases h.handles with
  | completes r hin' hconn hi hcompleted => exact ⟨hi, hcompleted⟩
  | orphan r hout => exact absurd hin hout

/-- **Demultiplexing is exact**, whatever happens on a connection and in whatever order. -/
theorem demultiplexed (timeout : Duration) (σ : Nat → Move) : Demultiplexed timeout σ := by
  have hmatched := matched_after timeout σ
  have hnumbered := numbered_after timeout σ
  constructor
  case own => exact fun n => (hmatched n).answered
  case once => exact fun n => (List.nodup_append.mp (hmatched n).nodup).2.1
  case pending =>
    intro n
    obtain ⟨hpending, -, hdisjoint⟩ := List.nodup_append.mp (hmatched n).nodup
    refine ⟨hpending, fun s hs => ⟨?_, fun hc => hdisjoint s hs s hc rfl⟩⟩
    obtain ⟨me, hme⟩ := (hmatched n).unsettled s hs
    refine ⟨me, hme, fun i hi => ?_⟩
    have hnumber := number_of_entered (bind_of Call.entered_of_unsettled hme)
    exact (hnumbered n).own i me s hi hnumber
  case handled =>
    intro n
    cases records_change (change_move (after timeout σ n) (σ n)) with
    | message m hm => exact Or.inr ⟨m, hm⟩
    | ends reason hi hi' hreported hrests => exact Or.inl hrests.received
    | rests hi hreported hrests => exact Or.inl hrests.received
  case reads =>
    intro n m hm hi hn
    rw [after_succ, hm]
    exact takesIn_read hi hn
  case reaches => exact fun n me r h hopes hnone => h.reaches (kept_after timeout σ n) hopes hnone
  case counted => exact counted_after timeout σ
  case arrived => exact fun n => (streamed_after timeout σ n).first
  case reported => exact reported_after timeout σ
  case refused => exact refused_after timeout σ
  case refuses => exact fun n hσ => refuses_after hσ
  case numbers => exact fun n => ⟨(hnumbered n).distinct, (queued_after timeout σ n).sublist⟩

/-- A request is sent. The adapter sends a request with the same number, an event, the answer, and the
answer once more. -/
def crossing : List Move :=
  [.ask 0 "threads" .null, .step 0, .step 0, .step 0, .step 0, .wait 0,
    .arrive (Frame.frames [.request ⟨1, "runInTerminal", .null⟩, .event ⟨2, "stopped", none⟩,
      .response ⟨3, 1, true, "threads", none, none⟩, .response ⟨4, 1, true, "threads", none, none⟩]),
    .read, .read, .read, .goOn, .read, .step 0]

example : let x := crossing.foldl move (start ⟨5000⟩)
    x.completed.map (·.seq) = [3] ∧ x.connection.orphans = 1 ∧ x.reported.length = 1 ∧
      x.posted.map Message.seq = [1, 2] ∧ x.connection.pending = [] := by
  rw [crossing, Frame.frames_eq_spelled]
  decide +kernel

end DebugHost.Traffic
