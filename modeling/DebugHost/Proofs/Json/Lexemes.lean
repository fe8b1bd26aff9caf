import DebugHost.Proofs.Json.Scalars
import DebugHost.Proofs.Record
import Mathlib.Tactic.SplitIfs

/-! # Lexemes

A scalar is read from a part at the front of a text, its lexeme, and the same is read from this part in
front of anything else that does not go on with a number (`local_readScalar`). So what stands behind a
scalar does not matter to it. -/

namespace DebugHost.Json

open DebugHost.Decimal DebugHost.Text

/-! ### Readers that look no further -/

/-- What is read is read from a part at the front of a text, whatever stands behind that does not go on
with a number. -/
def Local {α : Type} (read : List UInt8 → Reading α) : Prop :=
  ∀ bs a rest, read bs = .ok (a, rest) →
    ∃ l, bs = l ++ rest ∧ ∀ rest', NumberEnds rest' → read (l ++ rest') = .ok (a, rest')

/-- No digit stands in front. -/
def NoDigit : List UInt8 → Prop
  | [] => True
  | b :: _ => digit? b = none

/-- What is taken from a text are digits, as many as there are. -/
def TakesDigits {β : Type} (take : List UInt8 → β × List UInt8) : Prop :=
  ∀ bs, ∃ l, bs = l ++ (take bs).2 ∧ NoDigit (take bs).2 ∧
    ∀ rest, NoDigit rest → take (l ++ rest) = ((take bs).1, rest)

variable {α β : Type}

theorem NumberEnds.noDigit {rest : List UInt8} (h : NumberEnds rest) : NoDigit rest := by
  cases rest with
  | nil => trivial
  | cons b rest => exact h.1

/-- A text that begins with no digit does not begin with one when its end is replaced by the end of a
number. -/
theorem NoDigit.replace {l rest rest' : List UInt8} (h : NoDigit (l ++ rest)) (h' : NoDigit rest') :
    NoDigit (l ++ rest') := by
  cases l with
  | nil => exact h'
  | cons b l => exact h

theorem Local.map {read : List UInt8 → Reading α} (h : Local read) (f : α → β) :
    Local fun bs => (read bs).map fun (a, rest) => (f a, rest) := by
  intro bs b rest hread
  obtain ⟨⟨a, _⟩, ha, heq⟩ := map_eq_ok.mp hread
  obtain ⟨rfl, rfl⟩ := Prod.mk.inj heq
  obtain ⟨l, hl, hlocal⟩ := h bs a _ ha
  exact ⟨l, hl, fun rest' hrest => by simp only [hlocal rest' hrest, Except.map]⟩

/-- Digits, and then what a local reader reads. -/
theorem Local.digits {take : List UInt8 → β × List UInt8} (ht : TakesDigits take)
    {read : β → List UInt8 → Reading α} (hr : ∀ b, Local (read b)) :
    Local fun bs => read (take bs).1 (take bs).2 := by
  intro bs a rest hread
  obtain ⟨l, hl, hno, htake⟩ := ht bs
  obtain ⟨l', hl', hlocal⟩ := hr _ _ a rest hread
  refine ⟨l ++ l', by rw [List.append_assoc, ← hl', ← hl], fun rest' hrest => ?_⟩
  rw [hl'] at hno
  simp only [List.append_assoc, htake _ (hno.replace hrest.noDigit)]
  exact hlocal rest' hrest

/-! ### Digits -/

theorem skipDigits_noDigit (count : Nat) {bs : List UInt8} (h : NoDigit bs) :
    skipDigits count bs = (count, bs) := by
  cases bs with
  | nil => rfl
  | cons b bs =>
    rw [skipDigits, h]
    rfl

theorem takesDigits_skipDigits (count : Nat) : TakesDigits (skipDigits count) := by
  intro bs
  induction bs generalizing count with
  | nil => exact ⟨[], rfl, trivial, fun rest h => skipDigits_noDigit count h⟩
  | cons b bs ih =>
    by_cases hb : (digit? b).isSome = true
    · obtain ⟨l, hl, hno, htake⟩ := ih (count + 1)
      have hskip : ∀ bs, skipDigits count (b :: bs) = skipDigits (count + 1) bs := fun bs => by
        rw [skipDigits, if_pos hb]
      refine ⟨b :: l, ?_, ?_, fun rest h => ?_⟩
      · rw [hskip, List.cons_append, ← hl]
      · rw [hskip]; exact hno
      · rw [hskip, List.cons_append, hskip, htake rest h]
    · have hno : NoDigit (b :: bs) := Option.not_isSome_iff_eq_none.mp hb
      rw [skipDigits_noDigit count hno]
      exact ⟨[], rfl, hno, fun rest h => skipDigits_noDigit count h⟩

/-- The digits at the front of a text. -/
structure Digits where
  /-- The significand, from as many of them as fit. -/
  value : Nat
  /-- The number of digits that fit. -/
  count : Nat
  /-- Whether there are further digits. -/
  full : Bool
  /-- The number of further digits. -/
  more : Nat

/-- Takes all digits at the front of a text. -/
def allDigits (acc count : Nat) (bs : List UInt8) : Digits × List UInt8 :=
  let s := readSignificand acc count bs
  let r := skipDigits 0 s.rest
  (⟨s.value, s.count, s.full, r.1⟩, r.2)

theorem readSignificand_noDigit (acc count : Nat) {bs : List UInt8} (h : NoDigit bs) :
    readSignificand acc count bs = ⟨acc, count, false, bs⟩ := by
  cases bs with
  | nil => rfl
  | cons b bs => rw [readSignificand, h]

theorem allDigits_noDigit (acc count : Nat) {bs : List UInt8} (h : NoDigit bs) :
    allDigits acc count bs = (⟨acc, count, false, 0⟩, bs) := by
  simp only [allDigits, readSignificand_noDigit acc count h, skipDigits_noDigit 0 h]

theorem takesDigits_allDigits (acc count : Nat) : TakesDigits (allDigits acc count) := by
  intro bs
  induction bs generalizing acc count with
  | nil => exact ⟨[], rfl, trivial, fun rest h => allDigits_noDigit acc count h⟩
  | cons b bs ih =>
    cases hb : digit? b with
    | none =>
      have hno : NoDigit (b :: bs) := hb
      rw [allDigits_noDigit acc count hno]
      exact ⟨[], rfl, hno, fun rest h => allDigits_noDigit acc count h⟩
    | some d =>
      by_cases hmax : wordMax < acc * 10 + d
      · -- the significand is full: its next digit stays for those that are skipped
        have hfull : ∀ bs, allDigits acc count (b :: bs) =
            (⟨acc, count, true, (skipDigits 0 (b :: bs)).1⟩, (skipDigits 0 (b :: bs)).2) := by
          intro bs
          simp only [allDigits, readSignificand, hb, if_pos hmax]
        obtain ⟨l, hl, hno, htake⟩ := takesDigits_skipDigits 0 (b :: bs)
        rw [hfull]
        refine ⟨l, hl, hno, fun rest h => ?_⟩
        cases l with
        | nil =>
          rw [List.nil_append] at hl
          rw [← hl] at hno
          exact absurd (hb.symm.trans hno) (by simp)
        | cons c l =>
          obtain ⟨rfl, -⟩ := List.cons.inj hl
          have hskip := htake rest h
          rw [List.cons_append] at hskip ⊢
          rw [hfull, hskip]
      · have hnext : ∀ bs, allDigits acc count (b :: bs) = allDigits (acc * 10 + d) (count + 1) bs := by
          intro bs
          simp only [allDigits, readSignificand, hb, if_neg hmax]
        obtain ⟨l, hl, hno, htake⟩ := ih (acc * 10 + d) (count + 1)
        refine ⟨b :: l, ?_, ?_, fun rest h => ?_⟩
        · rw [hnext, List.cons_append, ← hl]
        · rw [hnext]; exact hno
        · rw [hnext, List.cons_append, hnext, htake rest h]

/-- A significand that is not full is followed by no digit. -/
theorem readSignificand_rest {acc count : Nat} {bs : List UInt8}
    (h : (readSignificand acc count bs).full = false) :
    NoDigit (readSignificand acc count bs).rest := by
  induction bs generalizing acc count with
  | nil => trivial
  | cons b bs ih =>
    rw [readSignificand] at h ⊢
    split
    · next hb => exact hb
    · next d hb =>
      simp only [hb] at h
      split at h
      · cases h
      · next hmax =>
        rw [if_neg hmax]
        exact ih h

/-! ### Numbers -/

theorem scaled_eq_ok {positive : Bool} {n : Nat} {e : Int} {bs rest : List UInt8} {x : Binary64}
    (h : scaled positive n e bs = .ok (x, rest)) :
    rest = bs ∧ ∀ rest', scaled positive n e rest' = .ok (x, rest') := by
  unfold scaled at h ⊢
  split at h
  · cases h
  · next y hy =>
    obtain ⟨rfl, rfl⟩ := Prod.mk.inj (Except.ok.inj h)
    exact ⟨rfl, fun rest' => rfl⟩

theorem finishReal_ends (positive : Bool) (n : Nat) (e : Int) {rest : List UInt8} (h : NumberEnds rest) :
    finishReal positive n e rest = scaled positive n e rest := by
  cases rest with
  | nil => rfl
  | cons b rest => rw [finishReal, h.2.2, if_neg Bool.false_ne_true]

/-- The sign of an exponent is none, or one octet. -/
theorem exponentSign_digit {bs rest : List UInt8} {b : UInt8} {up : Bool} {d : Nat}
    (h : exponentSign bs = (up, b :: rest)) (hb : digit? b = some d) :
    ∃ l, bs = l ++ b :: rest ∧ ∀ rest', exponentSign (l ++ b :: rest') = (up, b :: rest') := by
  unfold exponentSign at h
  split at h
  · obtain ⟨rfl, rfl⟩ := Prod.mk.inj h
    exact ⟨[43], rfl, fun _ => rfl⟩
  · obtain ⟨rfl, rfl⟩ := Prod.mk.inj h
    exact ⟨[45], rfl, fun _ => rfl⟩
  · next hplus hminus =>
    obtain ⟨rfl, rfl⟩ := Prod.mk.inj h
    refine ⟨[], rfl, fun rest' => ?_⟩
    unfold exponentSign
    split
    · next heq => cases heq; cases hb
    · next heq => cases heq; cases hb
    · rfl

/-- The digits of an exponent are read up to the last, or up to the one that makes it too large. -/
theorem readExponentDigits_eq (acc : Nat) (bs : List UInt8) :
    ∃ l, bs = l ++ (readExponentDigits acc bs).2 ∧
      ∀ rest, (readExponentDigits acc bs).1 = none ∨ NoDigit rest →
        readExponentDigits acc (l ++ rest) = ((readExponentDigits acc bs).1, rest) := by
  induction bs generalizing acc with
  | nil =>
    refine ⟨[], rfl, fun rest h => ?_⟩
    have hno : NoDigit rest := h.resolve_left (by simp [readExponentDigits])
    cases rest with
    | nil => rfl
    | cons b rest => simp only [List.nil_append, readExponentDigits, show digit? b = none from hno]
  | cons b bs ih =>
    cases hb : digit? b with
    | none =>
      simp only [readExponentDigits, hb]
      refine ⟨[], rfl, fun rest h => ?_⟩
      have hno : NoDigit rest := h.resolve_left (by simp)
      cases rest with
      | nil => rfl
      | cons b rest => rw [List.nil_append, readExponentDigits, hno]
    | some d =>
      by_cases hmax : exponentMax < acc * 10 + d
      · simp only [readExponentDigits, hb, if_pos hmax]
        refine ⟨[b], rfl, fun rest _ => ?_⟩
        simp only [List.singleton_append, readExponentDigits, hb, if_pos hmax]
      · obtain ⟨l, hl, hread⟩ := ih (acc * 10 + d)
        simp only [readExponentDigits, hb, if_neg hmax]
        refine ⟨b :: l, by rw [List.cons_append, ← hl], fun rest h => ?_⟩
        simp only [List.cons_append, readExponentDigits, hb, if_neg hmax, hread rest h]

theorem local_readExponent (positive : Bool) (n : Nat) (e : Int) : Local (readExponent positive n e) := by
  intro bs x rest h
  unfold readExponent at h
  rcases hsign : exponentSign bs with ⟨up, _ | ⟨b, ds⟩⟩
  · simp only [hsign] at h
    cases h
  · simp only [hsign] at h
    cases hb : digit? b with
    | none => simp only [hb] at h; cases h
    | some d =>
      simp only [hb] at h
      obtain ⟨l, hl, hl'⟩ := exponentSign_digit hsign hb
      obtain ⟨l₁, hl₁, hdigits⟩ := readExponentDigits_eq d ds
      rcases hread : readExponentDigits d ds with ⟨_ | k, r⟩ <;> simp only [hread] at h hl₁ hdigits
      · -- too large an exponent: further digits are skipped
        split at h
        · cases h
        · next hrange =>
          obtain ⟨rfl, rfl⟩ := Prod.mk.inj (Except.ok.inj h)
          obtain ⟨l₂, hl₂, hno, hskip⟩ := takesDigits_skipDigits 0 r
          refine ⟨l ++ b :: (l₁ ++ l₂), ?_, fun rest' hrest => ?_⟩
          · rw [hl, hl₁, List.append_assoc, List.cons_append, List.append_assoc, ← hl₂]
          · simp only [List.append_assoc, List.cons_append, readExponent, hl', hb,
              hdigits _ (Or.inl trivial), if_neg hrange, hskip rest' hrest.noDigit]
      · obtain ⟨rfl, hscaled⟩ := scaled_eq_ok h
        refine ⟨l ++ b :: l₁, ?_, fun rest' hrest => ?_⟩
        · rw [hl, hl₁, List.append_assoc, List.cons_append]
        · simp only [List.append_assoc, List.cons_append, readExponent, hl', hb,
            hdigits _ (Or.inr hrest.noDigit), hscaled]

theorem local_finishReal (positive : Bool) (n : Nat) (e : Int) : Local (finishReal positive n e) := by
  intro bs x rest h
  have hends : scaled positive n e bs = .ok (x, rest) → ∃ l, bs = l ++ rest ∧
      ∀ rest', NumberEnds rest' → finishReal positive n e (l ++ rest') = .ok (x, rest') := by
    intro h
    obtain ⟨rfl, hscaled⟩ := scaled_eq_ok h
    exact ⟨[], rfl, fun rest' hrest => by rw [List.nil_append, finishReal_ends _ _ _ hrest, hscaled]⟩
  cases bs with
  | nil => exact hends h
  | cons b bs =>
    rw [finishReal] at h
    split at h
    · next hletter =>
      obtain ⟨l, hl, hlocal⟩ := local_readExponent positive n e bs x rest h
      refine ⟨b :: l, by rw [hl, List.cons_append], fun rest' hrest => ?_⟩
      rw [List.cons_append, finishReal, if_pos hletter, hlocal rest' hrest]
    · exact hends h

/-- A reader is local if a local one reads the same. -/
theorem Local.congr {read read' : List UInt8 → Reading α} (h : Local read')
    (heq : ∀ bs r, read bs = .ok r ↔ read' bs = .ok r) : Local read := by
  intro bs a rest hread
  obtain ⟨l, hl, hlocal⟩ := h bs a rest ((heq _ _).mp hread)
  exact ⟨l, hl, fun rest' hrest => (heq _ _).mpr (hlocal rest' hrest)⟩

/-- What is read only under a condition. -/
theorem Local.guard {read : List UInt8 → Reading α} (h : Local read) (p : Prop) [Decidable p]
    (stop : List UInt8 → Stop) : Local fun bs => if p then read bs else .error (stop bs) := by
  intro bs a rest hread
  by_cases hp : p
  · simp only [if_pos hp] at hread ⊢
    exact h bs a rest hread
  · simp only [if_neg hp] at hread
    cases hread

theorem local_readFraction (positive : Bool) (n : Nat) (e : Int) :
    Local (readFraction positive n e) := by
  -- a fraction has a digit
  refine (Local.digits (takesDigits_allDigits n 0) fun s =>
    (local_finishReal positive s.value (e - s.count)).guard (s.full = true ∨ s.count ≠ 0)
      (.mk .invalidNumber)).congr fun bs r => ?_
  simp only [readFraction, allDigits]
  split
  · next hfull => simp [hfull]
  · next hfull =>
    rw [skipDigits_noDigit 0 (readSignificand_rest (Bool.eq_false_iff.mpr hfull))]
    split
    · next hcount => split <;> simp [hcount, hfull]
    · next hcount => simp [hcount]

theorem local_readTail (positive : Bool) (n : Nat) : Local (readTail positive n) := by
  intro bs x rest h
  cases bs with
  | nil =>
    cases h
    exact ⟨[], rfl, fun rest' hrest => readTail_ends positive n hrest⟩
  | cons b bs =>
    rw [readTail] at h
    split at h
    · next hpoint =>
      obtain ⟨l, hl, hlocal⟩ := (local_readFraction positive n 0).map Number.real bs x rest h
      refine ⟨b :: l, by rw [hl, List.cons_append], fun rest' hrest => ?_⟩
      rw [List.cons_append, readTail, if_pos hpoint]
      exact hlocal rest' hrest
    · next hpoint =>
      split at h
      · next hletter =>
        obtain ⟨l, hl, hlocal⟩ := (local_readExponent positive n 0).map Number.real bs x rest h
        refine ⟨b :: l, by rw [hl, List.cons_append], fun rest' hrest => ?_⟩
        rw [List.cons_append, readTail, if_neg hpoint, if_pos hletter]
        exact hlocal rest' hrest
      · cases h
        exact ⟨[], rfl, fun rest' hrest => readTail_ends positive n hrest⟩

/-- What is read behind a whole part that does not fit 64 bits, of which `more` digits are left out. -/
def readLongTail (positive : Bool) (n more : Nat) : List UInt8 → Reading Binary64
  | 46 :: bs => readFraction positive n more bs
  | bs => finishReal positive n more bs

theorem readLong_eq (positive : Bool) (n : Nat) (bs : List UInt8) :
    readLong positive n bs = readLongTail positive n (skipDigits 0 bs).1 (skipDigits 0 bs).2 := by
  unfold readLong
  rcases skipDigits 0 bs with ⟨more, _ | ⟨b, rest⟩⟩
  · rfl
  · simp only [readLongTail]
    by_cases hb : b = 46
    · subst hb; rfl
    · split
      · next heq => exact absurd (List.cons.inj (Prod.mk.inj heq).2).1 hb
      · next heq =>
        obtain ⟨rfl, rfl⟩ := Prod.mk.inj heq
        split
        · next heq => exact absurd (List.cons.inj heq).1 hb
        · rfl

theorem readLongTail_other (positive : Bool) (n more : Nat) {bs : List UInt8}
    (h : bs.head? ≠ some 46) : readLongTail positive n more bs = finishReal positive n more bs := by
  unfold readLongTail
  split
  · exact absurd rfl h
  · rfl

theorem local_readLongTail (positive : Bool) (n more : Nat) :
    Local (readLongTail positive n more) := by
  intro bs x rest h
  by_cases hpoint : bs.head? = some 46
  · obtain ⟨bs, rfl⟩ := List.head?_eq_some_iff.mp hpoint
    obtain ⟨l, hl, hlocal⟩ := local_readFraction positive n more bs x rest h
    exact ⟨46 :: l, by rw [hl, List.cons_append], hlocal⟩
  · rw [readLongTail_other positive n more hpoint] at h
    obtain ⟨l, hl, hlocal⟩ := local_finishReal positive n more bs x rest h
    refine ⟨l, hl, fun rest' hrest => ?_⟩
    rw [readLongTail_other, hlocal rest' hrest]
    cases l with
    | nil =>
      cases rest' with
      | nil => simp
      | cons b rest' => simpa using hrest.2.1
    | cons b l => rw [hl] at hpoint; exact hpoint

/-- What is read behind the digits of the whole part of a number. -/
def readRest (positive : Bool) (s : Digits) (bs : List UInt8) : Reading Number :=
  if s.full then (readLongTail positive s.value s.more bs).map fun (x, r) => (.real x, r)
  else readTail positive s.value bs

theorem local_readRest (positive : Bool) (s : Digits) : Local (readRest positive s) := by
  unfold readRest
  by_cases hfull : s.full
  · simp only [if_pos hfull]
    exact (local_readLongTail positive s.value s.more).map Number.real
  · simp only [if_neg hfull]
    exact local_readTail positive s.value

/-- A whole part that begins with zero is zero. -/
theorem readNumber_zero (positive : Bool) {b : UInt8} (hb : digit? b = some 0) {bs : List UInt8}
    {r : Number × List UInt8} :
    readNumber positive (b :: bs) = .ok r ↔ NoDigit bs ∧ readTail positive 0 bs = .ok r := by
  unfold readNumber
  simp only [hb]
  cases bs with
  | nil => exact (and_iff_right trivial).symm
  | cons c bs =>
    simp only [NoDigit]
    cases digit? c <;> simp

/-- A whole part that begins with another digit has all digits that follow. -/
theorem readNumber_digits (positive : Bool) {b : UInt8} {d : Nat} (hb : digit? b = some d) (hd : d ≠ 0)
    (bs : List UInt8) : readNumber positive (b :: bs) =
      readRest positive (allDigits d 1 bs).1 (allDigits d 1 bs).2 := by
  obtain ⟨d, rfl⟩ := Nat.exists_eq_succ_of_ne_zero hd
  have hall : (allDigits d.succ 1 bs).1.full = (readSignificand d.succ 1 bs).full := rfl
  unfold readNumber readRest
  simp only [hb, readLong_eq]
  rw [hall]
  by_cases hfull : (readSignificand d.succ 1 bs).full = true
  · rw [if_pos hfull, if_pos hfull]
    rfl
  · rw [if_neg hfull, if_neg hfull]
    simp only [allDigits]
    rw [skipDigits_noDigit 0 (readSignificand_rest (Bool.eq_false_iff.mpr hfull))]

theorem local_readNumber (positive : Bool) : Local (readNumber positive) := by
  intro bs x rest h
  cases bs with
  | nil => cases h
  | cons b bs =>
    cases hb : digit? b with
    | none =>
      unfold readNumber at h
      simp only [hb] at h
      cases h
    | some d =>
      by_cases hd : d = 0
      · subst hd
        obtain ⟨hno, h⟩ := (readNumber_zero positive hb).mp h
        obtain ⟨l, rfl, hlocal⟩ := local_readTail positive 0 bs x rest h
        refine ⟨b :: l, rfl, fun rest' hrest => ?_⟩
        exact (readNumber_zero positive hb).mpr ⟨hno.replace hrest.noDigit, hlocal rest' hrest⟩
      · rw [readNumber_digits positive hb hd] at h
        obtain ⟨l, rfl, hlocal⟩ := Local.digits (takesDigits_allDigits d 1) (local_readRest positive)
          bs x rest h
        refine ⟨b :: l, rfl, fun rest' hrest => ?_⟩
        rw [List.cons_append, readNumber_digits positive hb hd]
        exact hlocal rest' hrest

theorem local_readNumber_cons (b : UInt8) : Local fun bs => readNumber true (b :: bs) := by
  intro bs x rest h
  obtain ⟨l, hl, hlocal⟩ := local_readNumber true (b :: bs) x rest h
  cases l with
  | nil => exact absurd (hlocal [] trivial) (by simp [readNumber])
  | cons c l =>
    obtain ⟨rfl, rfl⟩ := List.cons.inj hl
    exact ⟨l, rfl, hlocal⟩

/-! ### Strings -/

/-- What is read of a string is read from a part at the front of a text, whatever stands behind. -/
def Escapes (read : (bs : List UInt8) → Except Stop (α × Tail bs)) : Prop :=
  ∀ bs a rest, read bs = .ok (a, rest) →
    ∃ l, bs = l ++ rest.1 ∧ ∀ rest', ∃ h, read (l ++ rest') = .ok (a, ⟨rest', h⟩)

theorem le_append (l rest : List UInt8) : rest.length ≤ (l ++ rest).length := by
  rw [List.length_append]
  exact Nat.le_add_left ..

theorem escapes_readHex : Escapes readHex := by
  intro bs n rest h
  unfold readHex at h
  split at h
  · next a b c d behind =>
    refine ⟨[a, b, c, d], ?_, fun rest' => ⟨le_append _ rest', ?_⟩⟩
    · split at h
      · cases h; rfl
      · cases h
    · split at h
      · next ha hb hc hd =>
        cases h
        simp only [List.cons_append, List.nil_append, readHex, ha, hb, hc, hd]
      · cases h
  · cases h

theorem escapes_readTrailing (n : Nat) : Escapes (readTrailing n) := by
  intro bs c rest h
  unfold readTrailing at h
  split at h
  · cases h
  · cases h
  · next behind =>
    split at h
    · cases h
    · next m rest' hle hhex =>
      split at h
      · next htrailing =>
        obtain ⟨rfl, rfl⟩ := Prod.mk.inj (Except.ok.inj h)
        obtain ⟨l, hl, hread⟩ := escapes_readHex behind m _ hhex
        refine ⟨92 :: 117 :: l, by rw [List.cons_append, List.cons_append, ← hl], fun rest'' => ?_⟩
        obtain ⟨hle', hread⟩ := hread rest''
        refine ⟨le_append (92 :: 117 :: l) rest'', ?_⟩
        simp only [List.cons_append, readTrailing, hread, if_pos htrailing]
      · cases h
  · cases h
  · cases h

theorem escapes_readCodePoint : Escapes readCodePoint := by
  intro bs c rest h
  unfold readCodePoint at h
  split at h
  · cases h
  · next n behind hhex =>
    obtain ⟨l, hl, hread⟩ := escapes_readHex bs n _ hhex
    split at h
    · cases h
    · next htrailing =>
      split at h
      · next hleading =>
        split at h
        · cases h
        · next c' rest' hle htrail =>
          cases h
          obtain ⟨l', hl', hread'⟩ := escapes_readTrailing n _ c _ htrail
          refine ⟨l ++ l', by rw [List.append_assoc, ← hl', ← hl], fun rest'' => ?_⟩
          obtain ⟨hle₁, hread'⟩ := hread' rest''
          obtain ⟨hle₂, hread⟩ := hread (l' ++ rest'')
          rw [List.append_assoc]
          refine ⟨Nat.le_trans hle₁ hle₂, ?_⟩
          simp only [readCodePoint, hread, if_neg htrailing, if_pos hleading, hread']
      · next hleading =>
        cases h
        refine ⟨l, hl, fun rest'' => ?_⟩
        obtain ⟨hle, hread⟩ := hread rest''
        refine ⟨hle, ?_⟩
        simp only [readCodePoint, hread, if_neg htrailing, if_neg hleading]

/-- An escape that is no code point is one octet, whatever stands behind it. -/
theorem readEscape_one {b : UInt8} (hu : b ≠ 117) :
    (∃ c, ∀ bs, readEscape (b :: bs) = .ok (c, ⟨bs, le_append [b] bs⟩)) ∨
      ∀ bs, ∃ stop, readEscape (b :: bs) = .error stop := by
  simp only [readEscape, hu, if_false]
  split_ifs
  case neg => exact Or.inr fun _ => ⟨_, rfl⟩
  all_goals exact Or.inl ⟨_, fun _ => rfl⟩

theorem escapes_readEscape : Escapes readEscape := by
  intro bs c rest h
  cases bs with
  | nil => cases h
  | cons b bs =>
    by_cases hu : b = 117
    · subst hu
      cases hread : readCodePoint bs with
      | error e => simp [readEscape, hread] at h
      | ok r =>
        obtain ⟨l, hl, hcode⟩ := escapes_readCodePoint bs r.1 r.2 hread
        obtain ⟨hle, heq⟩ := readEscape_u hread
        obtain ⟨rfl, rfl⟩ := Prod.mk.inj (Except.ok.inj (heq.symm.trans h))
        refine ⟨117 :: l, by rw [List.cons_append, ← hl], fun rest' => ?_⟩
        obtain ⟨hle', hcode⟩ := hcode rest'
        exact readEscape_u hcode
    · rcases readEscape_one hu with ⟨c', hone⟩ | hnone
      · obtain ⟨rfl, rfl⟩ := Prod.mk.inj (Except.ok.inj ((hone bs).symm.trans h))
        exact ⟨[b], rfl, fun rest' => ⟨_, hone rest'⟩⟩
      · obtain ⟨stop, herror⟩ := hnone bs
        cases herror.symm.trans h

/-! ### Characters -/

/-- A character that is no basic Latin one is read from its octets. -/
theorem follow_some {more : Nat} {low high : UInt8} {acc n : Nat} {bs rest : List UInt8}
    (h : Utf8.follow more low high acc bs = (some n, rest)) :
    ∃ l, bs = l ++ rest ∧ ∀ rest', Utf8.follow more low high acc (l ++ rest') = (some n, rest') := by
  induction more generalizing low high acc bs with
  | zero =>
    obtain ⟨⟨⟩, rfl⟩ := Prod.mk.inj (Utf8.follow.eq_1 low high acc bs ▸ h)
    exact ⟨[], rfl, fun rest' => Utf8.follow.eq_1 ..⟩
  | succ more ih =>
    cases bs with
    | nil => cases h
    | cons b bs =>
      rw [Utf8.follow] at h
      split at h
      · next hrange =>
        obtain ⟨l, hl, hfollow⟩ := ih h
        refine ⟨b :: l, by rw [hl, List.cons_append], fun rest' => ?_⟩
        rw [List.cons_append, Utf8.follow, if_pos hrange, hfollow]
      · cases h

theorem next_some {b : UInt8} {bs rest : List UInt8} {c : Char} (h : Utf8.next b bs = (some c, rest)) :
    ∃ l, bs = l ++ rest ∧ ∀ rest', Utf8.next b (l ++ rest') = (some c, rest') := by
  unfold Utf8.next at h
  split at h
  · next hlatin =>
    obtain ⟨hc, rfl⟩ := Prod.mk.inj h
    refine ⟨[], rfl, fun rest' => ?_⟩
    rw [Utf8.next, if_pos hlatin, hc]
    rfl
  · next hlatin =>
    split at h
    · cases h
    · next lead hlead =>
      rcases hfollow : Utf8.follow lead.more lead.low lead.high lead.bits bs with ⟨_ | n, r⟩
      · simp only [hfollow] at h; cases h
      · simp only [hfollow] at h
        obtain ⟨hc, rfl⟩ := Prod.mk.inj h
        obtain ⟨l, hl, hread⟩ := follow_some hfollow
        refine ⟨l, hl, fun rest' => ?_⟩
        simp only [Utf8.next, if_neg hlatin, hlead, hread, hc]

/-- A string in which octets are no characters is not read. -/
theorem readChars_bad {acc : List Char} {bad bs : List UInt8} {r : List Char × List UInt8} :
    readChars acc (some bad) bs ≠ .ok r := by
  induction hn : bs.length using Nat.strongRecOn generalizing acc bad bs with
  | ind n ih =>
    subst hn
    cases bs with
    | nil => intro h; rw [readChars] at h; cases h
    | cons b bs =>
      intro h
      rw [readChars] at h
      split at h
      · cases h
      · split at h
        · split at h
          · cases h
          · next c rest hread =>
            exact ih rest.1.length (Nat.lt_succ_of_le rest.2) rfl h
        · split at h
          · cases h
          · have hle := Utf8.length_next_le b bs
            simp only at h
            split at h
            · exact ih _ (Nat.lt_succ_of_le hle) rfl h
            · exact ih _ (Nat.lt_succ_of_le hle) rfl h

theorem readChars_local {acc cs : List Char} {bs rest : List UInt8}
    (h : readChars acc none bs = .ok (cs, rest)) :
    ∃ l, bs = l ++ rest ∧ ∀ rest', readChars acc none (l ++ rest') = .ok (cs, rest') := by
  induction hn : bs.length using Nat.strongRecOn generalizing acc bs with
  | ind n ih =>
    subst hn
    cases bs with
    | nil => rw [readChars] at h; cases h
    | cons b bs =>
      rw [readChars] at h
      split at h
      · next hquote =>
        cases h
        refine ⟨[b], rfl, fun rest' => ?_⟩
        rw [List.singleton_append, readChars, if_pos hquote]
      · next hquote =>
        split at h
        · next hslash =>
          split at h
          · cases h
          · next c behind hread =>
            obtain ⟨l, hl, hescape⟩ := escapes_readEscape bs c behind hread
            obtain ⟨l', hl', hchars⟩ := ih _ (Nat.lt_succ_of_le behind.2) h rfl
            refine ⟨b :: (l ++ l'), by rw [List.cons_append, List.append_assoc, ← hl', ← hl],
              fun rest' => ?_⟩
            obtain ⟨hle, hescape⟩ := hescape (l' ++ rest')
            rw [List.cons_append, List.append_assoc, readChars, if_neg hquote, if_pos hslash, hescape]
            exact hchars rest'
        · next hslash =>
          split at h
          · cases h
          · next hcontrol =>
            have hle := Utf8.length_next_le b bs
            simp only at h
            rcases hnext : Utf8.next b bs with ⟨_ | c, r⟩
            · rw [hnext] at h
              exact absurd h readChars_bad
            · rw [hnext] at h hle
              obtain ⟨l, hl, hread⟩ := next_some hnext
              obtain ⟨l', hl', hchars⟩ := ih _ (Nat.lt_succ_of_le hle) h rfl
              simp only at hl'
              refine ⟨b :: (l ++ l'), by rw [List.cons_append, List.append_assoc, ← hl', ← hl],
                fun rest' => ?_⟩
              rw [List.cons_append, List.append_assoc, readChars, if_neg hquote, if_neg hslash,
                if_neg hcontrol]
              simp only [hread]
              exact hchars rest'

/-- A string is read from its own octets. -/
theorem readString_local {bs rest : List UInt8} {s : String} (h : readString bs = .ok (s, rest)) :
    ∃ l, bs = l ++ rest ∧ ∀ rest', readString (l ++ rest') = .ok (s, rest') := by
  obtain ⟨⟨cs, _⟩, hcs, heq⟩ := map_eq_ok.mp h
  obtain ⟨rfl, rfl⟩ := Prod.mk.inj heq
  obtain ⟨l, hl, hread⟩ := readChars_local hcs
  exact ⟨l, hl, fun rest' => map_eq_ok.mpr ⟨_, hread rest', rfl⟩⟩

theorem readLetters_eq_ok {es bs rest : List UInt8} :
    readLetters es bs = .ok rest ↔ bs = es ++ rest := by
  induction es generalizing bs with
  | nil => exact ⟨fun h => Except.ok.inj h, fun h => congrArg _ h⟩
  | cons e es ih =>
    cases bs with
    | nil => simp [readLetters]
    | cons b bs =>
      rw [readLetters, List.cons_append, List.cons.injEq]
      split
      · next h => exact ih.trans (and_iff_right h).symm
      · next h => simp [h]

theorem local_readLetters (es : List UInt8) (v : Value) :
    Local fun bs => (readLetters es bs).map (v, ·) := by
  intro bs a rest h
  obtain ⟨_, hbs, heq⟩ := map_eq_ok.mp h
  obtain ⟨rfl, rfl⟩ := Prod.mk.inj heq
  exact ⟨es, readLetters_eq_ok.mp hbs, fun rest' _ =>
    map_eq_ok.mpr ⟨rest', readLetters_eq_ok.mpr rfl, rfl⟩⟩

/-- **A scalar is read from its own octets**, whatever stands behind them that does not go on with a
number. -/
theorem local_readScalar (b : UInt8) : Local (readScalar b) := by
  unfold readScalar
  split_ifs with hnull htrue hfalse hminus hdigit hquote
  · exact local_readLetters _ _
  · exact local_readLetters _ _
  · exact local_readLetters _ _
  · exact (local_readNumber false).map Number.value
  · exact (local_readNumber_cons b).map Number.value
  · intro bs v rest h
    obtain ⟨⟨s, _⟩, hs, heq⟩ := map_eq_ok.mp h
    obtain ⟨rfl, rfl⟩ := Prod.mk.inj heq
    obtain ⟨l, hl, hread⟩ := readString_local hs
    exact ⟨l, hl, fun rest' _ => map_eq_ok.mpr ⟨_, hread rest', rfl⟩⟩
  · intro bs v rest h
    cases h

end DebugHost.Json
