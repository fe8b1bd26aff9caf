import DebugHost.Json.Printer
import DebugHost.Json.Reader
import DebugHost.Proofs.Text.Utf8

/-! # Reading the scalars that are written

The digits of a number are read back as the number if nothing behind them could belong to it
(`NumberEnds`) and it fits 64 bits, with a sign if it is negative and without one otherwise.

Every character of a string is written as itself or as an escape, and read back as this character
(`readChars_escape`), so that a string is read up to its own closing quote and no further. -/

namespace DebugHost.Json

open DebugHost.Text DebugHost.Text.Utf8

/-- Whether a whole number can be read: it fits 64 bits, without a sign unless it is negative. -/
def Fits (n : Int) : Prop := -9223372036854775808 ≤ n ∧ n ≤ 18446744073709551615

instance (n : Int) : Decidable (Fits n) :=
  inferInstanceAs (Decidable (-9223372036854775808 ≤ n ∧ n ≤ 18446744073709551615))

/-- What stands behind a number does not belong to it. -/
def NumberEnds : List UInt8 → Prop
  | [] => True
  | b :: _ => digit? b = none ∧ b ≠ 46 ∧ isExponentLetter b = false

/-! ### Digits -/

/-- The octet of a digit. -/
theorem octets_digit {d : Nat} (h : d < 10) (cs : List Char) :
    octets (Nat.digitChar d :: cs) = UInt8.ofNat (48 + d) :: octets cs := by
  have hd := Nat.toNat_digitChar_of_lt_ten h
  rw [octets_latin (by omega), hd]

theorem digit?_digit : ∀ d < 10, digit? (UInt8.ofNat (48 + d)) = some d := by
  decide

theorem readSignificand_digit {acc d : Nat} (count : Nat) (h : d < 10)
    (hmax : acc * 10 + d ≤ wordMax) (bs : List UInt8) :
    readSignificand acc count (UInt8.ofNat (48 + d) :: bs) =
      readSignificand (acc * 10 + d) (count + 1) bs := by
  rw [readSignificand, digit?_digit d h]
  simp only
  rw [if_neg (Nat.not_lt.mpr hmax)]

/-- The digits of a positive number begin with a positive one and are read onto it. -/
theorem readSignificand_toDigits {n : Nat} (hn : 0 < n) (hmax : n ≤ wordMax) :
    ∃ d ds, Nat.toDigits 10 n = Nat.digitChar d :: ds ∧ 0 < d ∧ d < 10 ∧
      ∀ count rest, ∃ count', readSignificand d count (octets ds ++ rest) =
        readSignificand n count' rest := by
  induction n using Nat.strongRecOn with
  | ind n ih =>
    rcases Nat.lt_or_ge n 10 with hlt | hge
    · exact ⟨n, [], Nat.toDigits_of_lt_base hlt, hn, hlt, fun count rest => ⟨count, rfl⟩⟩
    · obtain ⟨d, ds, hds, hd, hd', hread⟩ := ih (n / 10) (by omega) (by omega) (by omega)
      refine ⟨d, ds ++ [Nat.digitChar (n % 10)], ?_, hd, hd', fun count rest => ?_⟩
      · rw [Nat.toDigits_of_base_le (by decide) hge, hds]
        rfl
      · obtain ⟨count', hcount⟩ := hread count (UInt8.ofNat (48 + n % 10) :: rest)
        have hlast : n % 10 < 10 := Nat.mod_lt n (by decide)
        have hvalue : n / 10 * 10 + n % 10 = n := by omega
        refine ⟨count' + 1, ?_⟩
        rw [octets_append, List.append_assoc, octets_digit hlast]
        show readSignificand d count (octets ds ++ UInt8.ofNat (48 + n % 10) :: rest) = _
        rw [hcount, readSignificand_digit count' hlast (by omega), hvalue]

theorem readSignificand_ends {acc : Nat} (count : Nat) {rest : List UInt8} (h : NumberEnds rest) :
    readSignificand acc count rest = ⟨acc, count, false, rest⟩ := by
  cases rest with
  | nil => rfl
  | cons b rest => rw [readSignificand, h.1]

/-! ### Numbers -/

theorem readTail_ends (positive : Bool) (n : Nat) {rest : List UInt8} (h : NumberEnds rest) :
    readTail positive n rest = .ok (whole positive n, rest) := by
  cases rest with
  | nil => rfl
  | cons b rest => rw [readTail, if_neg h.2.1, h.2.2, if_neg Bool.false_ne_true]

/-- **The digits of a number are read as this number.** -/
theorem readNumber_toDigits (positive : Bool) {n : Nat} (hmax : n ≤ wordMax) {rest : List UInt8}
    (h : NumberEnds rest) :
    readNumber positive (octets (Nat.toDigits 10 n) ++ rest) = .ok (whole positive n, rest) := by
  rcases Nat.eq_zero_or_pos n with rfl | hn
  · show readNumber positive (48 :: rest) = _
    cases rest with
    | nil => rfl
    | cons b rest =>
      have hd : (digit? b).isSome = false := by rw [h.1]; rfl
      have hz : digit? 48 = some 0 := rfl
      rw [readNumber, hz]
      simp only [hd]
      exact readTail_ends positive 0 h
  · obtain ⟨d, ds, hds, hd, hd', hread⟩ := readSignificand_toDigits hn hmax
    obtain ⟨count, hcount⟩ := hread 1 rest
    rw [readSignificand_ends count h] at hcount
    rw [hds, octets_digit hd', List.cons_append]
    unfold readNumber
    simp only [digit?_digit d hd']
    split
    · next hz => cases hz
    · next hz => cases hz; exact absurd hd (Nat.lt_irrefl 0)
    · next d' _ hz =>
      cases hz
      simp only [hcount]
      exact readTail_ends positive n h

/-- The digits of a number begin with one. -/
theorem octets_toDigits (n : Nat) :
    ∃ b bs, octets (Nat.toDigits 10 n) = b :: bs ∧ (digit? b).isSome = true := by
  induction n using Nat.strongRecOn with
  | ind n ih =>
    rcases Nat.lt_or_ge n 10 with hlt | hge
    · refine ⟨UInt8.ofNat (48 + n), [], ?_, ?_⟩
      · rw [Nat.toDigits_of_lt_base hlt]; exact octets_digit hlt []
      · rw [digit?_digit n hlt]; rfl
    · obtain ⟨b, bs, hbs, hb⟩ := ih (n / 10) (by omega)
      refine ⟨b, bs ++ octets [Nat.digitChar (n % 10)], ?_, hb⟩
      rw [Nat.toDigits_of_base_le (by decide) hge, octets_append, hbs, List.cons_append]

theorem digit_ne {b : UInt8} (h : (digit? b).isSome = true) :
    b ≠ 110 ∧ b ≠ 116 ∧ b ≠ 102 ∧ b ≠ 45 := by
  refine ⟨?_, ?_, ?_, ?_⟩ <;> rintro rfl <;> exact absurd h (by decide)

/-- **A whole number is read as this number.** -/
theorem readScalar_int {n : Int} (hn : Fits n) {rest : List UInt8} (h : NumberEnds rest) :
    ∃ b bs, octets (intDigits n) = b :: bs ∧ (b = 45 ∨ (digit? b).isSome = true) ∧
      readScalar b (bs ++ rest) = .ok (.int n, rest) := by
  cases n with
  | ofNat n =>
    obtain ⟨b, bs, hbs, hb⟩ := octets_toDigits n
    obtain ⟨h1, h2, h3, h4⟩ := digit_ne hb
    have hmax : n ≤ wordMax := by
      have hmax : (n : Int) ≤ 18446744073709551615 := hn.2
      unfold wordMax
      omega
    have hread := readNumber_toDigits true hmax h
    rw [hbs] at hread
    refine ⟨b, bs, hbs, Or.inr hb, ?_⟩
    rw [readScalar, if_neg h1, if_neg h2, if_neg h3, if_neg h4, if_pos hb]
    exact congrArg (Except.map fun x => (Number.value x.1, x.2)) hread
  | negSucc n =>
    have hmax : n + 1 ≤ 9223372036854775808 := by
      have hmin := hn.1
      omega
    have hwhole : whole false (n + 1) = .int (Int.negSucc n) := by
      rw [whole, if_neg Bool.false_ne_true, if_neg (by omega)]
      rfl
    have hread := readNumber_toDigits false (n := n + 1) (Nat.le_trans hmax (by decide)) h
    refine ⟨45, octets (Nat.toDigits 10 (n + 1)), octets_latin (by decide) _, Or.inl rfl, ?_⟩
    rw [readScalar, if_neg (by decide), if_neg (by decide), if_neg (by decide), if_pos rfl, hread,
      hwhole]
    rfl

/-! ### Escapes -/

theorem hexDigit_digitChar : ∀ n < 16, hexDigit? (UInt8.ofNat (Nat.digitChar n).toNat) = some n := by
  decide

theorem digitChar_latin : ∀ n < 16, (Nat.digitChar n).toNat < 128 := by
  decide

theorem readHex_low {n : Nat} (h : n < 256) (rest : List UInt8) :
    ∃ hr, readHex (48 :: 48 :: UInt8.ofNat (Nat.digitChar (n / 16)).toNat ::
      UInt8.ofNat (Nat.digitChar (n % 16)).toNat :: rest) = .ok (n, ⟨rest, hr⟩) := by
  have h1 := hexDigit_digitChar (n / 16) (by omega)
  have h2 := hexDigit_digitChar (n % 16) (Nat.mod_lt n (by decide))
  have h0 : hexDigit? 48 = some 0 := rfl
  have hvalue : ((0 * 16 + 0) * 16 + n / 16) * 16 + n % 16 = n := by omega
  have hr : rest.length ≤ (48 :: 48 :: UInt8.ofNat (Nat.digitChar (n / 16)).toNat ::
      UInt8.ofNat (Nat.digitChar (n % 16)).toNat :: rest).length := by
    simp only [List.length_cons]
    omega
  refine ⟨hr, ?_⟩
  simp only [readHex, h0, h1, h2, hvalue]

theorem readEscape_u {bs : List UInt8} {c : Char} {rest : Tail bs}
    (h : readCodePoint bs = .ok (c, rest)) :
    ∃ hr, readEscape (117 :: bs) = .ok (c, ⟨rest.1, hr⟩) := by
  refine ⟨Nat.le_succ_of_le rest.2, ?_⟩
  simp [readEscape, h]

/-- A control character is read from its number. -/
theorem readEscape_number {c : Char} (h : c.toNat < 0x20) (rest : List UInt8) :
    ∃ hr, readEscape (octets ['u', '0', '0', Nat.digitChar (c.toNat / 16),
      Nat.digitChar (c.toNat % 16)] ++ rest) = .ok (c, ⟨rest, hr⟩) := by
  obtain ⟨hr, hhex⟩ := readHex_low (n := c.toNat) (Nat.lt_trans h (by decide)) rest
  have hpoint : readCodePoint (48 :: 48 :: UInt8.ofNat (Nat.digitChar (c.toNat / 16)).toNat ::
      UInt8.ofNat (Nat.digitChar (c.toNat % 16)).toNat :: rest) = .ok (c, ⟨rest, hr⟩) := by
    have ht : isTrailing c.toNat = false := decide_eq_false (by omega)
    have hl : isLeading c.toNat = false := decide_eq_false (by omega)
    simp only [readCodePoint, hhex, ht, hl, Char.ofNat_toNat]
    rfl
  rw [octets_latin (by decide), octets_latin (by decide), octets_latin (by decide),
    octets_latin (digitChar_latin _ (by omega)), octets_latin (digitChar_latin _ (by omega))]
  exact readEscape_u hpoint

/-- A character that is escaped is read from its escape. -/
theorem readEscape_escape (c : Char) :
    (∃ es, escape c = '\\' :: es ∧
      ∀ rest, ∃ hr, readEscape (octets es ++ rest) = .ok (c, ⟨rest, hr⟩)) ∨
    escape c = [c] ∧ 0x20 ≤ c.toNat ∧ c ≠ '"' ∧ c ≠ '\\' := by
  unfold escape
  split
  · exact Or.inl ⟨_, rfl, fun rest => ⟨_, rfl⟩⟩
  · exact Or.inl ⟨_, rfl, fun rest => ⟨_, rfl⟩⟩
  · exact Or.inl ⟨_, rfl, fun rest => ⟨_, rfl⟩⟩
  · exact Or.inl ⟨_, rfl, fun rest => ⟨_, rfl⟩⟩
  · exact Or.inl ⟨_, rfl, fun rest => ⟨_, rfl⟩⟩
  · exact Or.inl ⟨_, rfl, fun rest => ⟨_, rfl⟩⟩
  · exact Or.inl ⟨_, rfl, fun rest => ⟨_, rfl⟩⟩
  · next hquote hslash _ _ _ _ _ =>
    split
    · next h => exact Or.inl ⟨_, rfl, readEscape_number h⟩
    · next h => exact Or.inr ⟨rfl, Nat.le_of_not_lt h, hquote, hslash⟩


/-! ### Strings -/

theorem readChars_quote (acc : List Char) (rest : List UInt8) :
    readChars acc none (34 :: rest) = .ok (acc.reverse, rest) := by
  rw [readChars, if_pos rfl]

/-- **A character is read from what is written for it.** -/
theorem readChars_escape (c : Char) (acc : List Char) (rest : List UInt8) :
    readChars acc none (octets (escape c) ++ rest) = readChars (c :: acc) none rest := by
  rcases readEscape_escape c with ⟨es, he, hread⟩ | ⟨he, hlow, hquote, hslash⟩
  · obtain ⟨hr, hread⟩ := hread rest
    rw [he, octets_latin (by decide), List.cons_append, readChars, if_neg (by decide),
      if_pos (by decide), hread]
    rfl
  · obtain ⟨b, bs, hc, hb, hnext⟩ := next_char c rest
    have hne : ∀ d : Char, c ≠ d → d.toNat < 128 → b ≠ UInt8.ofNat d.toNat := by
      rintro d hd hlatin rfl
      rw [toNat_octet (Nat.lt_trans hlatin (by decide))] at hb
      rcases hb with hb | hb
      · exact hd (Char.toNat_inj.mp hb.symm)
      · exact absurd hlatin (Nat.not_lt.mpr hb)
    have hquote' : b ≠ 34 := hne '"' hquote (by decide)
    have hslash' : b ≠ 92 := hne '\\' hslash (by decide)
    have hprint : ¬ b < 32 := by
      rw [UInt8.lt_iff_toNat_lt]
      show ¬ b.toNat < 32
      omega
    rw [he, octets_cons, hc]
    show readChars acc none (b :: (bs ++ [] ++ rest)) = _
    rw [List.append_nil, readChars, if_neg hquote', if_neg hslash', if_neg hprint, hnext]

theorem readChars_quoted (cs acc : List Char) (rest : List UInt8) :
    readChars acc none (octets (cs.flatMap escape) ++ 34 :: rest) =
      .ok (acc.reverse ++ cs, rest) := by
  induction cs generalizing acc with
  | nil => rw [List.append_nil]; exact readChars_quote acc rest
  | cons c cs ih =>
    rw [List.flatMap_cons, octets_append, List.append_assoc, readChars_escape, ih,
      List.reverse_cons, List.append_assoc]
    rfl

/-- **A string is read up to its closing quote.** -/
theorem readString_quoted (s : String) (rest : List UInt8) :
    ∃ bs, octets (quoted s) = 34 :: bs ∧ readString (bs ++ rest) = .ok (s, rest) := by
  refine ⟨octets (s.toList.flatMap escape ++ ['"']), octets_latin (by decide) _, ?_⟩
  rw [octets_append, List.append_assoc, readString]
  have hq : octets ['"'] ++ rest = 34 :: rest := rfl
  rw [hq, readChars_quoted]
  exact congrArg (fun s => Except.ok (s, rest)) String.ofList_toList

end DebugHost.Json
