import DebugHost.Proofs.Json.Scalars
import DebugHost.Proofs.Json.Shape
import DebugHost.Proofs.Record
import Mathlib.Tactic.SplitIfs

/-! # The values that are written and read

A value whose numbers are whole and fit (`Value.isWhole`) is read back from what is written for it,
whatever stands behind, by a reader for at least its depth (`readValue_chars`). The induction is on the
depth: the parts of an array or object are read by the reader for the next lower one.

A value that is read is nested no deeper than its reader allows, and all its whole numbers fit 64 bits
(`readable_readValue`). Of all values, only those with a number that is not whole can thus be read and
not be read back when they are written. -/

namespace DebugHost.Json

open DebugHost.Text.Utf8

/-! ### Values that can be read back -/

/-- Whether a scalar is no number, or a whole number that fits 64 bits. -/
def isWholeScalar : Value → Bool
  | .int n => decide (Fits n)
  | .real _ => false
  | _ => true

/-- Whether all numbers of a value are whole and fit 64 bits. -/
def Value.isWhole (v : Value) : Bool := v.every isWholeScalar

/-! ### The parts of arrays and objects -/

/-- A reader reads a value from what is written for it. -/
def Reads (item : List UInt8 → Reading Value) (v : Value) : Prop :=
  ∀ rest, NumberEnds rest → item (octets (chars v) ++ rest) = .ok (v, rest)

theorem skipBlanks_cons {b : UInt8} (h : isBlankOctet b = false) (bs : List UInt8) :
    skipBlanks (b :: bs) = b :: bs := by
  rw [skipBlanks, List.dropWhile_cons, h, if_neg Bool.false_ne_true]

theorem digit_octet {b : UInt8} (h : (digit? b).isSome = true) :
    isBlankOctet b = false ∧ b ≠ 93 := by
  refine ⟨?_, ?_⟩
  · cases hb : isBlankOctet b with
    | false => rfl
    | true =>
      rcases of_decide_eq_true hb with rfl | rfl | rfl | rfl <;> exact absurd h (by decide)
  · rintro rfl
    exact absurd h (by decide)

/-- A value begins with an octet that is neither a blank nor the end of an array. -/
theorem octets_chars {v : Value} (hv : v.isWhole = true) :
    ∃ b bs, octets (chars v) = b :: bs ∧ isBlankOctet b = false ∧ b ≠ 93 := by
  cases v with
  | null => exact ⟨110, _, rfl, rfl, by decide⟩
  | bool b =>
    cases b with
    | true => exact ⟨116, _, rfl, rfl, by decide⟩
    | false => exact ⟨102, _, rfl, rfl, by decide⟩
  | int n =>
    have hends : NumberEnds [] := trivial
    obtain ⟨b, bs, hbs, hb, -⟩ := readScalar_int (of_decide_eq_true hv) hends
    refine ⟨b, bs, hbs, ?_⟩
    rcases hb with rfl | hb
    · decide
    · exact digit_octet hb
  | real x => cases hv
  | str s => exact ⟨34, _, octets_latin (by decide) _, rfl, by decide⟩
  | arr items =>
    cases items with
    | nil => exact ⟨91, _, rfl, rfl, by decide⟩
    | cons v rest => exact ⟨91, _, octets_latin (by decide) _, rfl, by decide⟩
  | obj members =>
    cases members with
    | nil => exact ⟨123, _, rfl, rfl, by decide⟩
    | cons m rest => exact ⟨123, _, octets_latin (by decide) _, rfl, by decide⟩

variable {item : List UInt8 → Reading Value}

theorem numberEnds_itemChars (vs : List Value) (rest : List UInt8) :
    NumberEnds (octets (itemChars vs) ++ rest) := by
  cases vs with
  | nil => exact ⟨rfl, by decide, rfl⟩
  | cons v vs =>
    rw [itemChars, octets_latin (by decide)]
    exact ⟨rfl, by decide, rfl⟩

theorem length_itemChars (vs : List Value) : vs.length < (octets (itemChars vs)).length := by
  induction vs with
  | nil => decide
  | cons v vs ih =>
    rw [itemChars, octets_latin (by decide), octets_append]
    simp only [List.length_cons, List.length_append]
    omega

/-- The items of an array behind the first are read up to its end. -/
theorem readItems_itemChars {vs : List Value} (hw : ∀ v ∈ vs, v.isWhole = true)
    (hr : ∀ v ∈ vs, Reads item v) {fuel : Nat} (hf : vs.length < fuel) (acc : List Value)
    (rest : List UInt8) :
    readItems item fuel false acc (octets (itemChars vs) ++ rest) =
      .ok (acc.reverse ++ vs, rest) := by
  induction vs generalizing fuel acc with
  | nil =>
    obtain ⟨fuel, rfl⟩ := Nat.exists_eq_succ_of_ne_zero (Nat.ne_of_gt hf)
    rw [List.append_nil]
    rfl
  | cons v vs ih =>
    obtain ⟨fuel, rfl⟩ := Nat.exists_eq_succ_of_ne_zero (Nat.ne_zero_of_lt hf)
    obtain ⟨b, bs, hbs, hblank, hend⟩ := octets_chars (hw v (List.mem_cons_self ..))
    have hitem := hr v (List.mem_cons_self ..) _ (numberEnds_itemChars vs rest)
    have hnext : nextItem false (octets (itemChars (v :: vs)) ++ rest) =
        .ok (true, octets (chars v) ++ (octets (itemChars vs) ++ rest)) := by
      rw [itemChars, octets_latin (by decide), octets_append, hbs]
      simp only [List.cons_append, List.append_assoc]
      rw [nextItem, skipBlanks_cons (by decide)]
      simp only
      rw [if_neg (by decide), if_neg Bool.false_ne_true, if_pos (by decide), skipBlanks_cons hblank]
      simp only
      rw [if_neg hend]
    rw [readItems, hnext]
    simp only [hitem]
    rw [ih (fun w hw' => hw w (List.mem_cons_of_mem v hw'))
      (fun w hw' => hr w (List.mem_cons_of_mem v hw')) (Nat.lt_of_succ_lt_succ hf),
      List.reverse_cons, List.append_assoc]
    rfl

theorem numberEnds_memberChars (ms : List (String × Value)) (rest : List UInt8) :
    NumberEnds (octets (memberChars ms) ++ rest) := by
  cases ms with
  | nil => exact ⟨rfl, by decide, rfl⟩
  | cons m ms =>
    rw [memberChars, octets_latin (by decide)]
    exact ⟨rfl, by decide, rfl⟩

theorem length_memberChars (ms : List (String × Value)) :
    ms.length < (octets (memberChars ms)).length := by
  induction ms with
  | nil => decide
  | cons m ms ih =>
    rw [memberChars, octets_latin (by decide), octets_append, octets_latin (by decide), octets_append]
    simp only [List.length_cons, List.length_append]
    omega

/-- The name of a further member is read. -/
theorem nextName_quoted (n : String) (cs : List Char) (rest : List UInt8) :
    nextName false (octets (',' :: (quoted n ++ cs)) ++ rest) =
      .ok (some n, octets cs ++ rest) := by
  obtain ⟨bs, hbs, hread⟩ := readString_quoted n (octets cs ++ rest)
  rw [octets_latin (by decide), octets_append, hbs]
  simp only [List.cons_append, List.append_assoc]
  rw [nextName, skipBlanks_cons (by decide)]
  simp only
  rw [if_neg (by decide), if_neg Bool.false_ne_true, if_pos (by decide), skipBlanks_cons (by decide)]
  simp only
  rw [if_pos trivial, hread]
  rfl

/-- The name of a first member is read. -/
theorem nextName_first (n : String) (cs : List Char) (rest : List UInt8) :
    nextName true (octets (quoted n ++ cs) ++ rest) = .ok (some n, octets cs ++ rest) := by
  obtain ⟨bs, hbs, hread⟩ := readString_quoted n (octets cs ++ rest)
  rw [octets_append, hbs]
  simp only [List.cons_append, List.append_assoc]
  rw [nextName, skipBlanks_cons (by decide)]
  simp only
  rw [if_neg (by decide), if_pos trivial, if_pos trivial, hread]
  rfl

theorem readColon_colon (cs : List Char) (rest : List UInt8) :
    readColon (octets (':' :: cs) ++ rest) = .ok (octets cs ++ rest) := by
  rw [octets_latin (by decide)]
  rfl

/-- The members of an object behind the first are read up to its end. -/
theorem readMembers_memberChars {ms : List (String × Value)} (hr : ∀ m ∈ ms, Reads item m.2)
    {fuel : Nat} (hf : ms.length < fuel) (acc : List (String × Value)) (rest : List UInt8) :
    readMembers item fuel false acc (octets (memberChars ms) ++ rest) =
      .ok (acc.reverse ++ ms, rest) := by
  induction ms generalizing fuel acc with
  | nil =>
    obtain ⟨fuel, rfl⟩ := Nat.exists_eq_succ_of_ne_zero (Nat.ne_of_gt hf)
    rw [List.append_nil]
    rfl
  | cons m ms ih =>
    obtain ⟨fuel, rfl⟩ := Nat.exists_eq_succ_of_ne_zero (Nat.ne_zero_of_lt hf)
    obtain ⟨n, v⟩ := m
    have hitem := hr (n, v) (List.mem_cons_self ..) _ (numberEnds_memberChars ms rest)
    rw [memberChars, readMembers, nextName_quoted]
    simp only [readColon_colon]
    rw [octets_append, List.append_assoc, hitem]
    simp only
    rw [ih (fun w hw' => hr w (List.mem_cons_of_mem _ hw')) (Nat.lt_of_succ_lt_succ hf),
      List.reverse_cons, List.append_assoc]
    rfl

/-! ### Values -/

theorem readValue_scalar {v : Value} {b : UInt8} {bs rest : List UInt8} {depth : Nat}
    (hbs : octets (chars v) = b :: bs) (hb : isBlankOctet b = false) (hne : b ≠ 91 ∧ b ≠ 123)
    (hread : readScalar b (bs ++ rest) = .ok (v, rest)) :
    readValue depth (octets (chars v) ++ rest) = .ok (v, rest) := by
  rw [hbs, List.cons_append, readValue, skipBlanks_cons hb]
  simp only
  rw [if_neg hne.1, if_neg hne.2, hread]

theorem readValue_arr {depth : Nat} {items : List Value} (hw : ∀ v ∈ items, v.isWhole = true)
    (hr : ∀ v ∈ items, Reads (readValue depth) v) : Reads (readValue (depth + 1)) (.arr items) := by
  intro rest _
  cases items with
  | nil => rfl
  | cons v vs =>
    obtain ⟨b, bs, hbs, hblank, hend⟩ := octets_chars (hw v (List.mem_cons_self ..))
    have hitem := hr v (List.mem_cons_self ..) _ (numberEnds_itemChars vs rest)
    have hnext : nextItem true (octets (chars v) ++ (octets (itemChars vs) ++ rest)) =
        .ok (true, octets (chars v) ++ (octets (itemChars vs) ++ rest)) := by
      rw [hbs, List.cons_append, nextItem, skipBlanks_cons hblank]
      simp only
      rw [if_neg hend, if_pos trivial]
    rw [chars, octets_latin (by decide), octets_append]
    simp only [List.cons_append, List.append_assoc]
    rw [readValue, skipBlanks_cons (by decide)]
    simp only
    rw [if_pos (by decide), readItems, hnext]
    simp only [hitem]
    rw [readItems_itemChars (fun w hw' => hw w (List.mem_cons_of_mem v hw'))
      (fun w hw' => hr w (List.mem_cons_of_mem v hw')) _ [v] rest]
    · rfl
    · have hlength := length_itemChars vs
      simp only [List.length_append]
      omega

theorem readValue_obj {depth : Nat} {members : List (String × Value)}
    (hr : ∀ m ∈ members, Reads (readValue depth) m.2) :
    Reads (readValue (depth + 1)) (.obj members) := by
  intro rest _
  cases members with
  | nil => rfl
  | cons m ms =>
    obtain ⟨n, v⟩ := m
    have hitem := hr (n, v) (List.mem_cons_self ..) _ (numberEnds_memberChars ms rest)
    rw [chars, octets_latin (by decide), List.cons_append, readValue, skipBlanks_cons (by decide)]
    simp only
    rw [if_neg (by decide), if_pos (by decide), readMembers, nextName_first]
    simp only [readColon_colon]
    rw [octets_append, List.append_assoc, hitem]
    simp only
    rw [readMembers_memberChars (fun w hw' => hr w (List.mem_cons_of_mem _ hw')) _ [(n, v)] rest]
    · rfl
    · have hlength := length_memberChars ms
      simp only [octets_append, octets_cons, List.length_append]
      omega

/-- **A value is read back from what is written for it.** -/
theorem readValue_chars {depth : Nat} {v : Value} (hd : v.depth ≤ depth) (hw : v.isWhole = true) :
    Reads (readValue depth) v := by
  induction depth using Nat.strongRecOn generalizing v with
  | ind depth ih =>
    cases v with
    | null => exact fun rest _ => readValue_scalar (b := 110) rfl rfl (by decide) rfl
    | bool b =>
      cases b with
      | true => exact fun rest _ => readValue_scalar (b := 116) rfl rfl (by decide) rfl
      | false => exact fun rest _ => readValue_scalar (b := 102) rfl rfl (by decide) rfl
    | int n =>
      intro rest hrest
      obtain ⟨b, bs, hbs, hb, hread⟩ := readScalar_int (of_decide_eq_true hw) hrest
      refine readValue_scalar hbs ?_ ?_ hread
      · rcases hb with rfl | hb
        · rfl
        · exact (digit_octet hb).1
      · refine ⟨?_, ?_⟩ <;> rintro rfl <;> revert hb <;> decide
    | real x => cases hw
    | str s =>
      intro rest _
      obtain ⟨bs, hbs, hread⟩ := readString_quoted s rest
      refine readValue_scalar hbs rfl (by decide) ?_
      show (readString (bs ++ rest)).map _ = _
      rw [hread]
      rfl
    | arr items =>
      obtain ⟨depth, rfl⟩ := Nat.exists_eq_succ_of_ne_zero (Nat.ne_zero_of_lt hd)
      have hitems := Value.depthOfItems_le.mp (Nat.le_of_succ_le_succ hd)
      have hwhole := Value.every_arr.mp hw
      exact readValue_arr hwhole fun v hv =>
        ih depth (Nat.lt_succ_self depth) (hitems v hv) (hwhole v hv)
    | obj members =>
      obtain ⟨depth, rfl⟩ := Nat.exists_eq_succ_of_ne_zero (Nat.ne_zero_of_lt hd)
      have hmembers := Value.depthOfMembers_le.mp (Nat.le_of_succ_le_succ hd)
      have hwhole := Value.every_obj.mp hw
      exact readValue_obj fun m hm =>
        ih depth (Nat.lt_succ_self depth) (hmembers m hm) (hwhole m hm)

end DebugHost.Json

/-! ### What is read -/

namespace DebugHost.Json

/-! ### Scalars -/

/-- Whether a scalar is no whole number, or one that fits 64 bits. -/
def isFittingScalar : Value → Bool
  | .int n => decide (Fits n)
  | _ => true

theorem readSignificand_le {acc : Nat} (count : Nat) {bs : List UInt8} (h : acc ≤ wordMax) :
    (readSignificand acc count bs).value ≤ wordMax := by
  induction bs generalizing acc count with
  | nil => exact h
  | cons b bs ih =>
    rw [readSignificand]
    split
    · exact h
    · split
      · exact h
      · next hle => exact ih _ (Nat.le_of_not_lt hle)

theorem whole_fits (positive : Bool) {n : Nat} (h : n ≤ wordMax) :
    isFittingScalar (whole positive n).value = true := by
  unfold wordMax at h
  unfold whole
  split
  · exact decide_eq_true ⟨by omega, by omega⟩
  · split
    · rfl
    · exact decide_eq_true ⟨by omega, by omega⟩

theorem readTail_fits {positive : Bool} {n : Nat} (h : n ≤ wordMax) {bs rest : List UInt8} {x : Number}
    (hx : readTail positive n bs = .ok (x, rest)) : isFittingScalar x.value = true := by
  unfold readTail at hx
  split at hx
  · split at hx
    · obtain ⟨_, -, ⟨⟩⟩ := map_eq_ok.mp hx
      rfl
    · split at hx
      · obtain ⟨_, -, ⟨⟩⟩ := map_eq_ok.mp hx
        rfl
      · cases hx
        exact whole_fits positive h
  · cases hx
    exact whole_fits positive h

theorem digit?_le {b : UInt8} {d : Nat} (h : digit? b = some d) : d ≤ wordMax := by
  have hb := b.toNat_lt
  unfold digit? at h
  split at h
  · cases h
    unfold wordMax
    omega
  · cases h

theorem readNumber_fits {positive : Bool} {bs rest : List UInt8} {x : Number}
    (hx : readNumber positive bs = .ok (x, rest)) : isFittingScalar x.value = true := by
  unfold readNumber at hx
  split at hx
  · cases hx
  · split at hx
    · cases hx
    · split at hx
      · split at hx
        · cases hx
        · exact readTail_fits (Nat.zero_le _) hx
      · exact readTail_fits (Nat.zero_le _) hx
    · next d _ hd =>
      simp only at hx
      split at hx
      · obtain ⟨_, -, ⟨⟩⟩ := map_eq_ok.mp hx
        rfl
      · exact readTail_fits (readSignificand_le 1 (digit?_le hd)) hx

theorem value_depth (x : Number) : x.value.depth = 0 := by
  cases x <;> rfl

/-- What is read as a scalar is one, and fits. -/
theorem readScalar_fits {b : UInt8} {bs rest : List UInt8} {v : Value}
    (hv : readScalar b bs = .ok (v, rest)) : v.depth = 0 ∧ isFittingScalar v = true := by
  unfold readScalar at hv
  split_ifs at hv
  · obtain ⟨_, -, ⟨⟩⟩ := map_eq_ok.mp hv
    exact ⟨rfl, rfl⟩
  · obtain ⟨_, -, ⟨⟩⟩ := map_eq_ok.mp hv
    exact ⟨rfl, rfl⟩
  · obtain ⟨_, -, ⟨⟩⟩ := map_eq_ok.mp hv
    exact ⟨rfl, rfl⟩
  · obtain ⟨⟨x, _⟩, hx, ⟨⟩⟩ := map_eq_ok.mp hv
    exact ⟨value_depth x, readNumber_fits hx⟩
  · obtain ⟨⟨x, _⟩, hx, ⟨⟩⟩ := map_eq_ok.mp hv
    exact ⟨value_depth x, readNumber_fits hx⟩
  · obtain ⟨_, -, ⟨⟩⟩ := map_eq_ok.mp hv
    exact ⟨rfl, rfl⟩

/-! ### Arrays and objects -/

/-- A reader reads only values with a property. -/
def Yields (item : List UInt8 → Reading Value) (P : Value → Prop) : Prop :=
  ∀ bs v rest, item bs = .ok (v, rest) → P v

variable {item : List UInt8 → Reading Value} {P : Value → Prop}

theorem readItems_yields (hi : Yields item P) {fuel : Nat} {first : Bool} {acc vs : List Value}
    {bs rest : List UInt8} (hacc : ∀ v ∈ acc, P v)
    (h : readItems item fuel first acc bs = .ok (vs, rest)) : ∀ v ∈ vs, P v := by
  induction fuel generalizing first acc bs with
  | zero => cases h
  | succ fuel ih =>
    rw [readItems] at h
    split at h
    · cases h
    · cases h
      exact fun v hv => hacc v (List.mem_reverse.mp hv)
    · split at h
      · cases h
      · next v rest' hv =>
        refine ih (fun w hw => ?_) h
        rcases List.mem_cons.mp hw with rfl | hw
        · exact hi _ _ _ hv
        · exact hacc w hw

theorem readMembers_yields (hi : Yields item P) {fuel : Nat} {first : Bool}
    {acc ms : List (String × Value)} {bs rest : List UInt8} (hacc : ∀ m ∈ acc, P m.2)
    (h : readMembers item fuel first acc bs = .ok (ms, rest)) : ∀ m ∈ ms, P m.2 := by
  induction fuel generalizing first acc bs with
  | zero => cases h
  | succ fuel ih =>
    rw [readMembers] at h
    split at h
    · cases h
    · cases h
      exact fun m hm => hacc m (List.mem_reverse.mp hm)
    · split at h
      · cases h
      · split at h
        · cases h
        · next v rest' hv =>
          refine ih (fun m hm => ?_) h
          rcases List.mem_cons.mp hm with rfl | hm
          · exact hi _ _ _ hv
          · exact hacc m hm

/-! ### Values -/

/-- A value that a reader of so many levels may read. -/
structure Value.Readable (depth : Nat) (v : Value) : Prop where
  depth_le : v.depth ≤ depth
  fits : v.every isFittingScalar = true

namespace Value

variable {depth : Nat}

theorem readable_scalar {v : Value} (hd : v.depth = 0) (h : isFittingScalar v = true) :
    v.Readable depth :=
  ⟨hd ▸ Nat.zero_le depth, (every_scalar hd).trans h⟩

theorem readable_arr {vs : List Value} (h : ∀ v ∈ vs, v.Readable depth) :
    (Value.arr vs).Readable (depth + 1) :=
  ⟨Nat.succ_le_succ (depthOfItems_le.mpr fun v hv => (h v hv).depth_le),
    every_arr.mpr fun v hv => (h v hv).fits⟩

theorem readable_obj {ms : List (String × Value)} (h : ∀ m ∈ ms, m.2.Readable depth) :
    (Value.obj ms).Readable (depth + 1) :=
  ⟨Nat.succ_le_succ (depthOfMembers_le.mpr fun m hm => (h m hm).depth_le),
    every_obj.mpr fun m hm => (h m hm).fits⟩

theorem Readable.canonical {v : Value} (h : v.Readable depth) : v.canonical.Readable depth :=
  ⟨Nat.le_trans (depth_canonical_le v) h.depth_le, every_canonical h.fits⟩

end Value

/-- **What is read is within the depth of its reader, and fits.** -/
theorem readable_readValue (depth : Nat) : Yields (readValue depth) (Value.Readable depth) := by
  induction depth with
  | zero =>
    intro bs v rest h
    rw [readValue] at h
    split at h
    · cases h
    · split at h
      · cases h
      · split at h
        · cases h
        · obtain ⟨hd, hf⟩ := readScalar_fits h
          exact Value.readable_scalar hd hf
  | succ depth ih =>
    intro bs v rest h
    rw [readValue] at h
    split at h
    · cases h
    · split at h
      · obtain ⟨⟨vs, _⟩, hvs, ⟨⟩⟩ := map_eq_ok.mp h
        exact Value.readable_arr (readItems_yields ih (List.forall_mem_nil _) hvs)
      · split at h
        · obtain ⟨⟨ms, _⟩, hms, ⟨⟩⟩ := map_eq_ok.mp h
          exact Value.readable_obj (readMembers_yields ih (List.forall_mem_nil _) hms)
        · obtain ⟨hd, hf⟩ := readScalar_fits h
          exact Value.readable_scalar hd hf

end DebugHost.Json
