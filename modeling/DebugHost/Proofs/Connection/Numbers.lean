import DebugHost.Proofs.Connection.Traffic
import Mathlib.Data.List.Nodup

/-! # The numbers of messages

All messages that go out have numbers of their own, whether calls send them or the reader refuses a
request of the adapter (`numbered_after`): a number that was taken is below the next one for good, no two
calls have the same number, and a call that has not used its number yet is the only one to use it. What
was written and what waits to be written are messages that were handed to the writer, in the same order
(`queued_after`). -/

namespace DebugHost.Traffic

open DebugHost.Json

/-! ### Numbers of calls -/

/-- The number of a call, once it has one. -/
def Call.number? : Call → Option Int
  | .asked .. => none
  | .admitted .. => none
  | .numbered seq .. => some seq
  | .entered seq .. => some seq
  | .sent e => some e.seq
  | .looked e => some e.seq
  | .patient e => some e.seq
  | .leaving e _ => some e.seq
  | .answered e _ => some e.seq
  | .failed e _ => e.map (·.seq)
  | .dropped e => some e.seq

/-- The number of a call that it has not sent a message with. -/
def Call.unused? : Call → Option Int
  | .numbered seq .. => some seq
  | .entered seq .. => some seq
  | _ => none

theorem Call.number_of_unused {c : Call} {s : Int} (h : c.unused? = some s) : c.number? = some s := by
  cases c with
  | numbered seq command arguments => exact h
  | entered seq command arguments => exact h
  | _ => cases h

variable {x : Traffic} {o : Option Call} {c' : Call} {conn : Connection} {ms : List Message}

/-- The number of the call `me`. -/
def number? (x : Traffic) (me : Nat) : Option Int := (x.calls me).bind Call.number?

/-- The number of the call `me` that it has not sent a message with. -/
def unused? (x : Traffic) (me : Nat) : Option Int := (x.calls me).bind Call.unused?

/-- What each call has that has something else is had where the other is. -/
theorem bind_of {f g : Call → Option Int} (hfg : ∀ {c s}, f c = some s → g c = some s) {s : Int}
    (h : o.bind f = some s) : o.bind g = some s := by
  obtain ⟨c, hc, hs⟩ := Option.bind_eq_some_iff.mp h
  exact Option.bind_eq_some_iff.mpr ⟨c, hc, hfg hs⟩

theorem number_of_unused {me : Nat} {s : Int} (h : x.unused? me = some s) : x.number? me = some s :=
  bind_of Call.number_of_unused h

/-- What a move of the call `me` makes of all calls. -/
theorem put_bind {β : Type} (f : Call → Option β) (x : Traffic) (me i : Nat) (c : Call)
    (conn : Connection) (ms : List Message) :
    ((x.put me c conn ms).calls i).bind f = if i = me then f c else (x.calls i).bind f := by
  rw [put_calls]
  split <;> rfl

/-- A call keeps its number, and takes the next one if it has none. -/
theorem Goes.number (h : Goes x o c' conn ms) :
    (conn.nextSeq = x.connection.nextSeq ∧ c'.number? = o.bind Call.number?) ∨
    (conn.nextSeq = x.connection.nextSeq + 1 ∧ c'.number? = some x.connection.nextSeq) := by
  cases h with
  | asked => exact Or.inl ⟨rfl, rfl⟩
  | waits => exact Or.inl ⟨rfl, rfl⟩
  | dropped => exact Or.inl ⟨rfl, rfl⟩
  | steps h =>
    cases h with
    | numbered => exact Or.inr ⟨rfl, rfl⟩
    | _ => exact Or.inl ⟨rfl, rfl⟩

/-- A call that has a number it has not used has just taken it, or has handed no message over. -/
theorem Goes.unused {s : Int} (h : Goes x o c' conn ms) (hs : c'.unused? = some s) :
    ms = [] ∧ (o.bind Call.unused? = some s ∨ s = x.connection.nextSeq) := by
  cases h with
  | steps h =>
    cases h with
    | numbered => exact ⟨rfl, Or.inr (Option.some.inj hs).symm⟩
    | entered => exact ⟨rfl, Or.inl hs⟩
    | stays c => exact ⟨rfl, Or.inl hs⟩
    | _ => cases hs
  | _ => cases hs

/-- A call hands over no message, or one with its number. -/
theorem Goes.posts (h : Goes x o c' conn ms) :
    ms = [] ∨ ∃ m, ms = [m] ∧ o.bind Call.unused? = some m.seq ∧ o.bind Call.number? = some m.seq ∧
      conn.nextSeq = x.connection.nextSeq := by
  cases h with
  | steps h =>
    cases h with
    | sent ho => exact Or.inr ⟨_, rfl, rfl, rfl, rfl⟩
    | _ => exact Or.inl rfl
  | _ => exact Or.inl rfl

/-! ### All numbers -/

/-- All messages that were handed to the writer have numbers of their own. -/
structure Numbered (x : Traffic) : Prop where
  posted : ∀ m ∈ x.posted, m.seq < x.connection.nextSeq
  distinct : (x.posted.map Message.seq).Nodup
  taken : ∀ me s, x.number? me = some s → s < x.connection.nextSeq
  own : ∀ me me' s, x.number? me = some s → x.number? me' = some s → me = me'
  unused : ∀ me s, x.unused? me = some s → ∀ m ∈ x.posted, m.seq ≠ s

theorem numbered_start (timeout : Duration) : Numbered (start timeout) where
  posted := List.forall_mem_nil _
  distinct := List.nodup_nil
  taken me s h := by cases h
  own me me' s h := by cases h
  unused me s h := by cases h

/-- Numbers stay where the next number, the calls and the messages stay. -/
theorem Numbered.of_same {y : Traffic} (h : Numbered x)
    (hn : y.connection.nextSeq = x.connection.nextSeq) (hc : y.calls = x.calls)
    (hp : y.posted = x.posted) : Numbered y where
  posted := by
    rw [hp, hn]
    exact h.posted
  distinct := by
    rw [hp]
    exact h.distinct
  taken := by
    unfold number?
    rw [hc, hn]
    exact h.taken
  own := by
    unfold number?
    rw [hc]
    exact h.own
  unused := by
    unfold unused?
    rw [hc, hp]
    exact h.unused

/-- A number may be left out. -/
theorem Numbered.skip {y : Traffic} (h : Numbered x)
    (hn : y.connection.nextSeq = x.connection.nextSeq + 1) (hc : y.calls = x.calls)
    (hp : y.posted = x.posted) : Numbered y where
  posted m hm := by
    rw [hp] at hm
    have hlt := h.posted m hm
    omega
  distinct := by
    rw [hp]
    exact h.distinct
  taken me s hs := by
    unfold number? at hs
    rw [hc] at hs
    have hlt := h.taken me s hs
    omega
  own := by
    unfold number?
    rw [hc]
    exact h.own
  unused := by
    unfold unused?
    rw [hc, hp]
    exact h.unused

/-- A message with a new number may be added where the next number goes up. -/
theorem Numbered.post {y : Traffic} (h : Numbered x) {m : Message}
    (hm : m.seq = x.connection.nextSeq) (hn : y.connection.nextSeq = x.connection.nextSeq + 1)
    (hc : y.calls = x.calls) (hp : y.posted = x.posted ++ [m]) : Numbered y where
  posted m' hm' := by
    rw [hp] at hm'
    rw [hn]
    rcases List.mem_append.mp hm' with hm' | hm'
    · have hlt := h.posted m' hm'
      omega
    · have heq := List.mem_singleton.mp hm'
      rw [heq, hm]
      omega
  distinct := by
    rw [hp, List.map_append, List.nodup_append]
    refine ⟨h.distinct, List.nodup_singleton _, ?_⟩
    intro s hs t ht hst
    obtain ⟨m', hm', rfl⟩ := List.mem_map.mp hs
    have hlt := h.posted m' hm'
    have heq : t = m.seq := List.mem_singleton.mp ht
    rw [hst, heq, hm] at hlt
    exact absurd hlt (Int.lt_irrefl _)
  taken me s hs := by
    unfold number? at hs
    rw [hc] at hs
    have hlt := h.taken me s hs
    rw [hn]
    omega
  own := by
    unfold number?
    rw [hc]
    exact h.own
  unused me s hs m' hm' := by
    unfold unused? at hs
    rw [hc] at hs
    rw [hp] at hm'
    rcases List.mem_append.mp hm' with hm' | hm'
    · exact h.unused me s hs m' hm'
    · have heq := List.mem_singleton.mp hm'
      rw [heq, hm]
      have hlt := h.taken me s (number_of_unused hs)
      omega

/-- The numbers stay good when a call moves. -/
theorem Numbered.call (h : Numbered x) {me : Nat} (hme : x.calls me = o)
    (hgoes : Goes x o c' conn ms) : Numbered (x.put me c' conn ms) := by
  have hmine : x.number? me = o.bind Call.number? := by
    unfold number?
    rw [hme]
  have hmine' : x.unused? me = o.bind Call.unused? := by
    unfold unused?
    rw [hme]
  have hle : x.connection.nextSeq ≤ conn.nextSeq := by
    rcases hgoes.number with ⟨hn, -⟩ | ⟨hn, -⟩ <;> omega
  have hnumber : ∀ {i s}, (x.put me c' conn ms).number? i = some s →
      x.number? i = some s ∨ i = me ∧ s = x.connection.nextSeq ∧ s < conn.nextSeq := by
    intro i s hs
    unfold number? at hs ⊢
    rw [put_bind] at hs
    by_cases hi : i = me
    · rw [if_pos hi] at hs
      rcases hgoes.number with ⟨-, hc⟩ | ⟨hn, hc⟩
      · left
        rw [hi, hme, ← hc, hs]
      · right
        have heq := Option.some.inj (hc.symm.trans hs)
        exact ⟨hi, heq.symm, by omega⟩
    · rw [if_neg hi] at hs
      exact Or.inl hs
  refine ⟨?_, ?_, ?_, ?_, ?_⟩
  · intro m hm
    show m.seq < conn.nextSeq
    rcases List.mem_append.mp hm with hm | hm
    · exact Int.lt_of_lt_of_le (h.posted m hm) hle
    · rcases hgoes.posts with hms | ⟨m', hms, -, hs, -⟩
      · rw [hms] at hm
        cases hm
      · rw [hms] at hm
        rw [List.mem_singleton.mp hm]
        exact Int.lt_of_lt_of_le (h.taken me _ (hmine.trans hs)) hle
  · show ((x.posted ++ ms).map Message.seq).Nodup
    rcases hgoes.posts with hms | ⟨m', hms, hu, -, -⟩
    · rw [hms, List.append_nil]
      exact h.distinct
    · rw [hms, List.map_append]
      refine List.nodup_append.mpr ⟨h.distinct, List.nodup_singleton _, ?_⟩
      intro s hs t ht hst
      obtain ⟨m, hm, rfl⟩ := List.mem_map.mp hs
      exact h.unused me m'.seq (hmine'.trans hu) m hm (hst.trans (List.mem_singleton.mp ht))
  · intro i s hs
    show s < conn.nextSeq
    rcases hnumber hs with hs | ⟨-, -, hlt⟩
    · exact Int.lt_of_lt_of_le (h.taken i s hs) hle
    · exact hlt
  · intro i j s hi hj
    rcases hnumber hi with hi | ⟨hi, hs, -⟩ <;> rcases hnumber hj with hj | ⟨hj, hs', -⟩
    · exact h.own i j s hi hj
    · exact absurd (h.taken i s hi) (by omega)
    · exact absurd (h.taken j s hj) (by omega)
    · rw [hi, hj]
  · intro i s hs m hm
    have hs' := hs
    unfold unused? at hs'
    rw [put_bind] at hs'
    by_cases hi : i = me
    · rw [if_pos hi] at hs'
      obtain ⟨hms, hcase⟩ := hgoes.unused hs'
      rw [hms] at hm
      have hm' : m ∈ x.posted := by simpa [put] using hm
      rcases hcase with hu | heq
      · exact h.unused me s (hmine'.trans hu) m hm'
      · have hlt := h.posted m hm'
        omega
    · rw [if_neg hi] at hs'
      rcases List.mem_append.mp hm with hm | hm
      · exact h.unused i s hs' m hm
      · rcases hgoes.posts with hms | ⟨m', hms, -, hn, -⟩
        · rw [hms] at hm
          cases hm
        · rw [hms] at hm
          rw [List.mem_singleton.mp hm]
          rintro rfl
          exact hi (h.own i me _ (number_of_unused hs') (hmine.trans hn))

/-- The numbers stay good when the reader takes something in. -/
theorem Numbered.takes {y : Traffic} (h : Numbered x) (ht : Takes x y) : Numbered y := by
  cases ht with
  | nothing r hn => exact h.of_same rfl rfl rfl
  | last o r reason hn ho => exact h.of_same rfl rfl rfl
  | message m hn hm =>
    cases hm.handles with
    | completes r hin hconn hi hcompleted hreported hposted =>
      exact h.of_same (congrArg Connection.nextSeq hconn :) hm.calls hposted
    | orphan r hout hconn hi hcompleted hreported hposted =>
      exact h.of_same (congrArg Connection.nextSeq hconn :) hm.calls hposted
    | event e hconn hi hcompleted hreported hposted =>
      exact h.of_same (congrArg Connection.nextSeq hconn :) hm.calls hposted
    | refused q ho hconn hi hcompleted hreported hposted =>
      exact h.post rfl (congrArg Connection.nextSeq hconn :) hm.calls hposted
    | unheard q ho hconn hi hcompleted hreported hposted =>
      exact h.skip (congrArg Connection.nextSeq hconn :) hm.calls hposted

theorem Numbered.change {y : Traffic} (hc : Change x y) (h : Numbered x) : Numbered y := by
  cases hc with
  | call me hme hgoes => exact h.call hme hgoes
  | takes hi ht => exact h.takes ht
  | idle => exact h
  | _ => exact h.of_same rfl rfl rfl

/-- **Numbers are good after every schedule.** -/
theorem numbered_after (timeout : Duration) (σ : Nat → Move) (n : Nat) :
    Numbered (after timeout σ n) :=
  after_keeps timeout (numbered_start timeout) (fun _ _ => Numbered.change) σ n

/-! ### What goes out -/

/-- What was handed to the writer waits or has been taken by it, and what was written has been taken. -/
def Queued (x : Traffic) : Prop :=
  ∃ front, x.posted = front ++ x.connection.queue ∧ x.link.written.Sublist front

theorem Queued.sublist (h : Queued x) : (x.link.written ++ x.connection.queue).Sublist x.posted := by
  obtain ⟨front, hp, hs⟩ := h
  rw [hp]
  exact hs.append (List.Sublist.refl _)

theorem Queued.post {y : Traffic} (h : Queued x) (ms : List Message)
    (hq : y.connection.queue = x.connection.queue ++ ms) (hp : y.posted = x.posted ++ ms)
    (hw : y.link.written = x.link.written) : Queued y := by
  obtain ⟨front, hposted, hs⟩ := h
  exact ⟨front, by rw [hp, hq, hposted, List.append_assoc], hw ▸ hs⟩

theorem Queued.of_same {y : Traffic} (h : Queued x) (hq : y.connection.queue = x.connection.queue)
    (hp : y.posted = x.posted) (hw : y.link.written = x.link.written) : Queued y :=
  h.post [] (by rw [hq, List.append_nil]) (by rw [hp, List.append_nil]) hw

/-- What a call hands over is put behind what waits. -/
theorem Goes.queue (h : Goes x o c' conn ms) : conn.queue = x.connection.queue ++ ms := by
  cases h with
  | steps h =>
    cases h with
    | sent ho => rfl
    | _ => exact (List.append_nil _).symm
  | _ => exact (List.append_nil _).symm

theorem Queued.takes {y : Traffic} (h : Queued x) (ht : Takes x y) : Queued y := by
  cases ht with
  | nothing r hn => exact h.of_same rfl rfl rfl
  | last o r reason hn ho => exact h.of_same rfl rfl rfl
  | message m hn hm =>
    cases hm.handles with
    | completes r hin hconn hi hcompleted hreported hposted =>
      exact h.of_same (congrArg Connection.queue hconn :) hposted hm.written
    | orphan r hout hconn hi hcompleted hreported hposted =>
      exact h.of_same (congrArg Connection.queue hconn :) hposted hm.written
    | event e hconn hi hcompleted hreported hposted =>
      exact h.of_same (congrArg Connection.queue hconn :) hposted hm.written
    | refused q ho hconn hi hcompleted hreported hposted =>
      exact h.post [_] (congrArg Connection.queue hconn :) hposted hm.written
    | unheard q ho hconn hi hcompleted hreported hposted =>
      exact h.of_same (congrArg Connection.queue hconn :) hposted hm.written

theorem Queued.change {y : Traffic} (hc : Change x y) (h : Queued x) : Queued y := by
  cases hc with
  | call me hme hgoes => exact h.post _ hgoes.queue rfl rfl
  | takes hi ht => exact h.takes ht
  | idle => exact h
  | wrote m rest hq =>
    obtain ⟨front, hp, hs⟩ := h
    have hposted : x.posted = front ++ [m] ++ rest := by
      rw [hp, hq, List.append_assoc]
      rfl
    exact ⟨front ++ [m], hposted, hs.append (List.Sublist.refl _)⟩
  | lost m rest text hq ho =>
    obtain ⟨front, hp, hs⟩ := h
    have hposted : x.posted = front ++ [m] ++ rest := by
      rw [hp, hq, List.append_assoc]
      rfl
    exact ⟨front ++ [m], hposted, hs.trans (List.sublist_append_left ..)⟩
  | _ => exact h.of_same rfl rfl rfl

/-- **What was written and what waits was handed over**, in the same order. -/
theorem queued_after (timeout : Duration) (σ : Nat → Move) (n : Nat) : Queued (after timeout σ n) :=
  after_keeps timeout ⟨[], rfl, List.Sublist.refl _⟩ (fun _ _ => Queued.change) σ n

end DebugHost.Traffic
