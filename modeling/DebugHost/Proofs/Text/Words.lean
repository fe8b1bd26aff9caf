import DebugHost.Text.Character
import DebugHost.Text.Integer
import Mathlib.Data.List.DropRight
import Mathlib.Tactic.Ring

/-! # Words, pieces and numerals

The pieces of a text are what stands between the places of a character (`pieces_eq_splitOn`). Trimming gives
the word that blanks are around (`trimBlanks_padded`). A text is read as a number exactly if it is a sign and
digits that spell a number of the range (`parse_eq_ok_iff`), so that a numeral is read as its number
(`parse_numeral`), in particular the one that is written for it (`numeral_toDigits`). -/

namespace DebugHost.Text

/-! ### Blanks around a word -/

theorem dropEnd_concat {p : Char → Bool} {c : Char} (hc : p c = false) (cs : List Char)
    {ds : List Char} (hds : ∀ d ∈ ds, p d = true) : dropEnd p ((cs ++ [c]) ++ ds) = cs ++ [c] := by
  have hreverse : ((cs ++ [c]) ++ ds).reverse = ds.reverse ++ c :: cs.reverse := by
    simp only [List.reverse_append, List.reverse_cons, List.reverse_nil, List.nil_append,
      List.cons_append]
  rw [dropEnd, hreverse, List.dropWhile_append_of_pos fun d hd => hds d (List.mem_reverse.mp hd),
    List.dropWhile_cons_of_neg (by rw [hc]; exact Bool.false_ne_true), List.reverse_cons,
    List.reverse_reverse]

/-- Characters behind the last that is not of the class are dropped. -/
theorem dropEnd_append {p : Char → Bool} {cs ds : List Char} (hne : cs ≠ [])
    (hcs : ∀ c ∈ cs, p c = false) (hds : ∀ d ∈ ds, p d = true) : dropEnd p (cs ++ ds) = cs := by
  obtain ⟨init, c, rfl⟩ := List.eq_nil_or_concat cs |>.resolve_left hne
  rw [List.concat_eq_append] at hcs ⊢
  exact dropEnd_concat (hcs c (List.mem_append_right init (List.mem_singleton.mpr rfl))) init hds

/-- Some characters are a word with blanks around it. -/
def Padded (word cs : List Char) : Prop :=
  ∃ front back, cs = front ++ word ++ back ∧ (∀ c ∈ front, isBlank c = true) ∧
    ∀ c ∈ back, isBlank c = true

theorem dropEnd_prefix (p : Char → Bool) (cs : List Char) :
    ∃ back, cs = dropEnd p cs ++ back ∧ ∀ c ∈ back, p c = true := by
  refine ⟨(cs.reverse.takeWhile p).reverse, ?_, fun c hc => ?_⟩
  · rw [dropEnd, ← List.reverse_append, List.takeWhile_append_dropWhile, List.reverse_reverse]
  · exact List.mem_takeWhile_imp (List.mem_reverse.mp hc)

/-- What stands before a character that is not of the class stays. -/
theorem dropEnd_behind {p : Char → Bool} {c : Char} (hc : p c = false) (cs ds : List Char) :
    dropEnd p (cs ++ c :: ds) = cs ++ c :: dropEnd p ds := by
  induction ds using List.reverseRecOn with
  | nil =>
    have h : dropEnd p ((cs ++ [c]) ++ []) = cs ++ [c] := dropEnd_concat hc cs (List.forall_mem_nil _)
    rw [List.append_nil] at h
    exact h
  | append_singleton ds d ih =>
    show List.rdropWhile p (cs ++ c :: (ds ++ [d])) = cs ++ c :: List.rdropWhile p (ds ++ [d])
    rw [← List.cons_append, ← List.append_assoc]
    by_cases hd : p d = true
    · rw [List.rdropWhile_concat_pos _ _ _ hd, List.rdropWhile_concat_pos _ _ _ hd]
      exact ih
    · rw [List.rdropWhile_concat_neg _ _ _ hd, List.rdropWhile_concat_neg _ _ _ hd,
        List.append_assoc, List.cons_append]

/-- **Trimming leaves the word** of some characters that are a word with blanks around it. -/
theorem trimBlanks_padded {word cs : List Char} (h : Padded word cs) (hne : word ≠ [])
    (hword : ∀ c ∈ word, isBlank c = false) :
    trimBlanks (String.ofList cs) = String.ofList word := by
  obtain ⟨front, back, rfl, hfront, hback⟩ := h
  have hdrop : (front ++ word ++ back).dropWhile isBlank = word ++ back := by
    rw [List.append_assoc, List.dropWhile_append_of_pos hfront]
    obtain ⟨c, word, rfl⟩ := List.exists_cons_of_ne_nil hne
    have hc := hword c (List.mem_cons_self ..)
    exact List.dropWhile_cons_of_neg (by rw [hc]; exact Bool.false_ne_true)
  rw [trimBlanks, String.toList_ofList, hdrop, dropEnd_append hne hword hback]

/-- Trimming leaves something that the blanks were around. -/
theorem padded_trimBlanks (cs : List Char) : Padded (trimBlanks (String.ofList cs)).toList cs := by
  obtain ⟨back, hback, hblank⟩ := dropEnd_prefix isBlank (cs.dropWhile isBlank)
  refine ⟨cs.takeWhile isBlank, back, ?_, fun c hc => List.mem_takeWhile_imp hc, hblank⟩
  rw [trimBlanks, String.toList_ofList, String.toList_ofList, List.append_assoc, ← hback,
    List.takeWhile_append_dropWhile]

/-- Nothing is left of blanks, and only of blanks. -/
theorem trimBlanks_eq_empty_iff (s : String) : trimBlanks s = "" ↔ ∀ c ∈ s.toList, isBlank c = true := by
  have hempty : trimBlanks s = "" ↔ ∀ c ∈ s.toList.dropWhile isBlank, isBlank c = true := by
    rw [← List.rdropWhile_eq_nil_iff, ← String.toList_inj, trimBlanks, String.toList_ofList]
    rfl
  rw [hempty]
  constructor
  · intro h c hc
    rw [← List.takeWhile_append_dropWhile (p := isBlank) (l := s.toList)] at hc
    exact (List.mem_append.mp hc).elim List.mem_takeWhile_imp (h c)
  · exact fun h c hc => h c ((List.dropWhile_suffix _).subset hc)

/-- Blanks that end the characters may be dropped. -/
theorem Padded.dropEnd {word cs ds : List Char} {p : Char → Bool} (h : Padded word cs) (hne : word ≠ [])
    (hword : ∀ c ∈ word, isBlank c = false) (hp : ∀ c, p c = true → isBlank c = true)
    (hds : ∀ d ∈ ds, p d = true) : Padded word (dropEnd p (cs ++ ds)) := by
  obtain ⟨front, back, rfl, hfront, hback⟩ := h
  obtain ⟨init, c, rfl⟩ := (List.eq_nil_or_concat word).resolve_left hne
  rw [List.concat_eq_append] at hword ⊢
  have hc : p c = false := by
    have hblank := hword c (by simp)
    cases hpc : p c with
    | false => rfl
    | true => rw [hp c hpc] at hblank; cases hblank
  have hsplit : front ++ (init ++ [c]) ++ back ++ ds = (front ++ init) ++ c :: (back ++ ds) := by
    simp only [List.append_assoc, List.cons_append, List.nil_append]
  obtain ⟨tail, htail, -⟩ := dropEnd_prefix p (back ++ ds)
  refine ⟨front, Text.dropEnd p (back ++ ds), ?_, hfront, fun d hd => ?_⟩
  · rw [hsplit, dropEnd_behind hc]
    simp only [List.append_assoc, List.cons_append, List.nil_append]
  · have hmem : d ∈ back ++ ds := by
      rw [htail]
      exact List.mem_append_left _ hd
    rcases List.mem_append.mp hmem with hd | hd
    · exact hback d hd
    · exact hp d (hds d hd)

/-! ### Pieces -/

theorem pieces_eq_splitOn (mark : Char) (cs : List Char) : pieces mark cs = cs.splitOn mark := by
  induction cs with
  | nil => rfl
  | cons c cs ih =>
    rw [pieces, ih, List.splitOn_cons_eq_if_modifyHead]
    obtain ⟨p, ps, hps⟩ := List.exists_cons_of_ne_nil (List.splitOn_ne_nil mark cs)
    simp only [hps, beq_iff_eq, List.modifyHead_cons]

theorem not_mem_of_mem_pieces {mark : Char} {cs p : List Char} (h : p ∈ pieces mark cs) : mark ∉ p := by
  induction cs generalizing p with
  | nil =>
    cases List.mem_singleton.mp h
    exact List.not_mem_nil
  | cons c cs ih =>
    rw [pieces] at h
    split at h
    · rcases List.mem_cons.mp h with rfl | h
      · exact List.not_mem_nil
      · exact ih h
    · next hc =>
      split at h
      · cases List.mem_singleton.mp h
        simpa using Ne.symm hc
      · next q qs hq =>
        rcases List.mem_cons.mp h with rfl | h
        · have hfree := ih (hq ▸ List.mem_cons_self ..)
          simpa [hfree] using Ne.symm hc
        · exact ih (hq ▸ List.mem_cons_of_mem q h)

namespace Integer

/-! ### Numerals -/

/-- Digits, perhaps behind a plus sign, that spell a number. -/
def Numeral (n : Nat) (word : List Char) : Prop :=
  ∃ ds, (word = ds ∨ word = '+' :: ds) ∧ ds ≠ [] ∧ (∀ d ∈ ds, d.isDigit = true) ∧
    Nat.ofDigitChars 10 ds 0 = n

/-- The digits that are written for a number. -/
theorem numeral_toDigits (n : Nat) : Numeral n (Nat.toDigits 10 n) :=
  ⟨_, Or.inl rfl, Nat.toDigits_ne_nil,
    fun _ hd => Nat.isDigit_of_mem_toDigits (by decide) (by decide) hd,
    Nat.ofDigitChars_toDigits (by decide) (by decide)⟩

theorem le_ofDigitChars (n : Nat) (ds : List Char) : n ≤ Nat.ofDigitChars 10 ds n := by
  induction ds generalizing n with
  | nil => exact Nat.le_refl n
  | cons d ds ih =>
    have h := ih (10 * n + (d.toNat - '0'.toNat))
    rw [Nat.ofDigitChars_cons]
    omega

/-- What may stand in front of the digits of a number of a range, and the sign that it gives the number. -/
inductive Sign (r : Range) : List Char → Int → Prop where
  | none : Sign r [] 1
  | plus : Sign r ['+'] 1
  | minus (h : r.least < 0) : Sign r ['-'] (-1)

variable {r : Range} {sign n : Int}

/-- **Digits are read as the number that they spell**, behind digits that spell `m`. A number that has left
the range does not come back into it. -/
theorem ofDigits_eq_ok_iff (hl : r.least ≤ 0) (hg : 0 ≤ r.greatest) (hs : sign = 1 ∨ sign = -1)
    {ds : List Char} {m : Nat} (hm : r.least ≤ sign * m ∧ sign * m ≤ r.greatest) :
    ofDigits r sign (sign * m) ds = .ok n ↔ (∀ d ∈ ds, d.isDigit = true) ∧
      n = sign * Nat.ofDigitChars 10 ds m ∧ r.least ≤ n ∧ n ≤ r.greatest := by
  induction ds generalizing m with
  | nil =>
    simp only [ofDigits, Except.ok.injEq, Nat.ofDigitChars_nil, List.not_mem_nil, false_imp_iff,
      implies_true, true_and]
    exact ⟨fun h => ⟨h.symm, h ▸ hm⟩, fun h => h.1.symm⟩
  | cons d ds ih =>
    simp only [ofDigits, List.forall_mem_cons, Nat.ofDigitChars_cons]
    by_cases hd : d.isDigit = true
    · have hvalue : sign * m * 10 + sign * ((d.toNat - '0'.toNat : Nat) : Int) =
          sign * ((10 * m + (d.toNat - '0'.toNat) : Nat) : Int) := by
        push_cast
        ring
      have hle := le_ofDigitChars (10 * m + (d.toNat - '0'.toNat)) ds
      rw [if_pos hd, hvalue]
      generalize 10 * m + (d.toNat - '0'.toNat) = k at hle ⊢
      by_cases hk : r.least ≤ sign * k ∧ sign * k ≤ r.greatest
      · rw [Range.check, if_neg (by omega), if_neg (by omega)]
        simp only [hd, true_and]
        exact ih hk
      · have hleft : ∃ f, r.check (sign * k) = .error f := by
          unfold Range.check
          split
          · exact ⟨_, rfl⟩
          · rw [if_pos (by omega)]
            exact ⟨_, rfl⟩
        obtain ⟨f, hf⟩ := hleft
        simp only [hf, reduceCtorEq, false_iff]
        rcases hs with rfl | rfl <;> omega
    · simp only [hd, Bool.false_eq_true, if_false, false_and, reduceCtorEq]

/-- Where digits begin, what stands in front of them is no sign. -/
theorem parse_digit {d : Char} (hd : d.isDigit = true) (ds : List Char) :
    parse r (String.ofList (d :: ds)) = ofDigits r 1 0 (d :: ds) := by
  rw [parse, String.toList_ofList]
  split
  · next h => cases h
  · next h => cases h; cases hd
  · next h => cases h; cases hd
  · next h => cases h; cases hd
  · next h => cases h; cases hd
  · rfl

/-- **What is read as a number of a range**: a sign that the range knows, if there is one, and digits that
spell a number of the range with this sign. -/
theorem parse_eq_ok_iff (hl : r.least ≤ 0) (hg : 0 ≤ r.greatest) {word : List Char} :
    parse r (String.ofList word) = .ok n ↔ ∃ front sign ds, word = front ++ ds ∧ Sign r front sign ∧
      ds ≠ [] ∧ (∀ d ∈ ds, d.isDigit = true) ∧ n = sign * Nat.ofDigitChars 10 ds 0 ∧
      r.least ≤ n ∧ n ≤ r.greatest := by
  have hdigits {sign : Int} (hs : sign = 1 ∨ sign = -1) (ds : List Char) : ofDigits r sign 0 ds = .ok n ↔
      (∀ d ∈ ds, d.isDigit = true) ∧ n = sign * Nat.ofDigitChars 10 ds 0 ∧ r.least ≤ n ∧ n ≤ r.greatest := by
    have hzero : r.least ≤ sign * (0 : Nat) ∧ sign * (0 : Nat) ≤ r.greatest := by simpa using ⟨hl, hg⟩
    rw [← ofDigits_eq_ok_iff hl hg hs hzero, Int.natCast_zero, Int.mul_zero]
  constructor
  · intro h
    rw [parse, String.toList_ofList] at h
    split at h
    · cases h
    · cases h
    · cases h
    · next ds hne => exact ⟨['+'], 1, ds, rfl, .plus, hne, (hdigits (.inl rfl) ds).mp h⟩
    · next ds hne =>
      split at h
      · next hless => exact ⟨['-'], -1, ds, rfl, .minus hless, hne, (hdigits (.inr rfl) ds).mp h⟩
      · cases h
    · next hne _ _ _ _ => exact ⟨[], 1, word, rfl, .none, hne, (hdigits (.inl rfl) word).mp h⟩
  · rintro ⟨front, sign, ds, rfl, hsign, hne, hspelled⟩
    obtain ⟨d, ds, rfl⟩ := List.exists_cons_of_ne_nil hne
    cases hsign with
    | none =>
      rw [List.nil_append, parse_digit (hspelled.1 d (List.mem_cons_self ..))]
      exact (hdigits (.inl rfl) _).mpr hspelled
    | plus =>
      rw [parse, String.toList_ofList]
      exact (hdigits (.inl rfl) _).mpr hspelled
    | minus hless =>
      rw [parse, String.toList_ofList]
      exact (if_pos hless).trans ((hdigits (.inr rfl) _).mpr hspelled)

/-- **A numeral is read as its number**, if it is in the range. -/
theorem parse_numeral (hl : r.least ≤ 0) {n : Nat} {word : List Char} (h : Numeral n word)
    (hg : (n : Int) ≤ r.greatest) : parse r (String.ofList word) = .ok (n : Int) := by
  obtain ⟨ds, hword, hne, hds, rfl⟩ := h
  refine (parse_eq_ok_iff hl (by omega)).mpr ?_
  rcases hword with rfl | rfl
  · exact ⟨[], 1, word, rfl, .none, hne, hds, (one_mul _).symm, by omega, hg⟩
  · exact ⟨['+'], 1, ds, rfl, .plus, hne, hds, (one_mul _).symm, by omega, hg⟩

theorem Numeral.not_blank {n : Nat} {word : List Char} (h : Numeral n word) :
    word ≠ [] ∧ ∀ c ∈ word, isBlank c = false := by
  obtain ⟨ds, hword, hne, hds, -⟩ := h
  have hdigit : ∀ c ∈ ds, isBlank c = false := by
    intro c hc
    have hbounds : 48 ≤ c.toNat ∧ c.toNat ≤ 57 := by
      simpa [Char.isDigit, UInt32.le_iff_toNat_le] using hds c hc
    refine decide_eq_false ?_
    omega
  rcases hword with rfl | rfl
  · exact ⟨hne, hdigit⟩
  · refine ⟨List.cons_ne_nil _ _, fun c hc => ?_⟩
    rcases List.mem_cons.mp hc with rfl | hc
    · decide
    · exact hdigit c hc

end Integer
end DebugHost.Text
