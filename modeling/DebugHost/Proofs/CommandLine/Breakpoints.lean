import DebugHost.CommandLine.Arguments
import DebugHost.Proofs.Text.Words

/-! # Breakpoints of the command line

A text is read as a breakpoint exactly if it is a file, a colon and a line from one on
(`breakpoint_grammar`). The last colon is the one that divides it (`splitLastColon_eq_some_iff`), so that the
file may hold colons, and the line is read as a signed number of 64 bits, so that it may have a plus sign and
zeros in front. Minus signs are read, but what is behind them is no line from one on. -/

namespace DebugHost.CommandLine

open DebugHost.Text DebugHost.Text.Integer

/-- **A text is divided at its last colon.** -/
theorem splitLastColon_eq_some_iff {cs front behind : List Char} :
    splitLastColon cs = some (front, behind) ↔ cs = front ++ ':' :: behind ∧ ':' ∉ behind := by
  constructor
  · intro h
    have hcut := List.takeWhile_append_dropWhile (p := (· != ':')) (l := cs.reverse)
    unfold splitLastColon at h
    split at h
    · cases h
    · next c back hdrop =>
      cases h
      have hcolon : c = ':' := by
        simpa [hdrop] using List.head?_dropWhile_not (· != ':') cs.reverse
      rw [hdrop, hcolon] at hcut
      refine ⟨?_, fun hmem => ?_⟩
      · have hcs := congrArg List.reverse hcut
        rw [List.reverse_reverse] at hcs
        refine hcs.symm.trans ?_
        simp only [List.reverse_append, List.reverse_cons, List.append_assoc, List.singleton_append]
      · simpa using List.mem_takeWhile_imp (List.mem_reverse.mp hmem)
  · rintro ⟨rfl, hfree⟩
    have hbehind : ∀ c ∈ behind.reverse, (c != ':') = true := fun c hc =>
      bne_iff_ne.mpr fun hcolon => hfree (hcolon ▸ List.mem_reverse.mp hc)
    have hreverse : (front ++ ':' :: behind).reverse = behind.reverse ++ ':' :: front.reverse := by
      simp
    unfold splitLastColon
    rw [hreverse, List.dropWhile_append_of_pos hbehind, List.takeWhile_append_of_pos hbehind]
    simp

/-- A text is the number of a line: a sign, if there is one, and digits that spell a signed number of 64 bits
from one on. -/
def IsLine (word : List Char) (n : Int) : Prop :=
  ∃ front sign digits, word = front ++ digits ∧ (front, sign) ∈ [([], 1), (['+'], 1), (['-'], -1)] ∧
    digits ≠ [] ∧ (∀ d ∈ digits, d.isDigit = true) ∧ n = sign * (Nat.ofDigitChars 10 digits 0 : Int) ∧
    -9223372036854775808 ≤ n ∧ n ≤ 9223372036854775807 ∧ 1 ≤ n

theorem sign_int64_iff {front : List Char} {sign : Int} :
    Sign .int64 front sign ↔ (front, sign) ∈ [([], 1), (['+'], 1), (['-'], -1)] := by
  constructor
  · rintro (_ | _ | _) <;> simp
  · intro h
    simp only [List.mem_cons, Prod.mk.injEq, List.not_mem_nil, or_false] at h
    rcases h with ⟨rfl, rfl⟩ | ⟨rfl, rfl⟩ | ⟨rfl, rfl⟩
    · exact .none
    · exact .plus
    · exact .minus (by decide)

/-- What is read as a line. -/
theorem isLine_iff {word : List Char} {n : Int} :
    IsLine word n ↔ Integer.parse .int64 (String.ofList word) = .ok n ∧ 1 ≤ n := by
  rw [parse_eq_ok_iff (by decide) (by decide)]
  unfold IsLine
  constructor
  · rintro ⟨front, sign, digits, hword, hsign, hne, hdigits, hvalue, hleast, hgreatest, hn⟩
    exact ⟨⟨front, sign, digits, hword, sign_int64_iff.mpr hsign, hne, hdigits, hvalue, hleast, hgreatest⟩,
      hn⟩
  · rintro ⟨⟨front, sign, digits, hword, hsign, hne, hdigits, hvalue, hleast, hgreatest⟩, hn⟩
    exact ⟨front, sign, digits, hword, sign_int64_iff.mp hsign, hne, hdigits, hvalue, hleast, hgreatest, hn⟩

/-- A line is free of colons. -/
theorem IsLine.free {word : List Char} {n : Int} (h : IsLine word n) : ':' ∉ word := by
  obtain ⟨front, sign, digits, rfl, hsign, -, hdigits, -⟩ := h
  rw [List.mem_append, not_or]
  refine ⟨?_, fun hmem => absurd (hdigits ':' hmem) (by decide)⟩
  simp only [List.mem_cons, Prod.mk.injEq, List.not_mem_nil, or_false] at hsign
  rcases hsign with ⟨rfl, -⟩ | ⟨rfl, -⟩ | ⟨rfl, -⟩ <;> decide

/-- A number from one on is written as a line. -/
theorem isLine_toDigits {n : Nat} (hone : 1 ≤ n) (hgreatest : n ≤ 9223372036854775807) :
    IsLine (Nat.toDigits 10 n) n :=
  isLine_iff.mpr ⟨parse_numeral (by decide) (numeral_toDigits n) (by simp [Range.int64]; omega), by omega⟩

/-- What is read as a breakpoint, by the characters of the file and of the line. -/
theorem parseBreakpoint_eq_ok_iff {value : String} {p : Path} {n : Int} :
    parseBreakpoint value = .ok (p, n) ↔ ∃ line, value.toList = p.text.toList ++ ':' :: line ∧
      p.text ≠ "" ∧ IsLine line n := by
  unfold parseBreakpoint
  constructor
  · intro h
    split at h
    · cases h
    · next file line hsplit =>
      split at h
      · cases h
      · next m hline =>
        split at h
        · cases h
        · next hgood =>
          cases h
          obtain ⟨hfile, hm⟩ := not_or.mp hgood
          refine ⟨line, ?_, fun hempty => hfile ?_, isLine_iff.mpr ⟨hline, by omega⟩⟩
          · rw [String.toList_ofList]
            exact (splitLastColon_eq_some_iff.mp hsplit).1
          · simpa using congrArg String.toList hempty
  · rintro ⟨line, hvalue, hfile, hline⟩
    obtain ⟨hread, hone⟩ := isLine_iff.mp hline
    have hfile' : ¬ (p.text.toList = [] ∨ n < 1) := by
      rintro (hempty | hless)
      · exact hfile (String.toList_injective hempty)
      · omega
    simp only [splitLastColon_eq_some_iff.mpr ⟨hvalue, hline.free⟩, hread, if_neg hfile', String.ofList_toList]

/-- **A text is read as a breakpoint exactly if it is a file, a colon and a line**, and it is read as these. So
every file with every line from one on can be given. -/
theorem breakpoint_grammar :
    (∀ (value : String) (p : Path) (n : Int), parseBreakpoint value = .ok (p, n) ↔
      ∃ line : String, value = p.text ++ ":" ++ line ∧ p.text ≠ "" ∧ ':' ∉ line.toList ∧
        IsLine line.toList n) ∧
    ∀ (file : String) (n : Nat), file ≠ "" → 1 ≤ n → n ≤ 9223372036854775807 →
      parseBreakpoint (file ++ ":" ++ toString n) = .ok (⟨file⟩, n) := by
  refine ⟨fun value p n => parseBreakpoint_eq_ok_iff.trans ?_, fun file n hfile hone hgreatest => ?_⟩
  · constructor
    · rintro ⟨line, hvalue, hfile, hline⟩
      refine ⟨String.ofList line, String.toList_injective ?_, hfile, ?_, ?_⟩
      · simp [hvalue]
      · simpa using hline.free
      · simpa using hline
    · rintro ⟨line, rfl, hfile, -, hline⟩
      exact ⟨line.toList, by simp, hfile, hline⟩
  · refine parseBreakpoint_eq_ok_iff.mpr ⟨Nat.toDigits 10 n, ?_, hfile, isLine_toDigits hone hgreatest⟩
    simp [Nat.repr]

/-- A file with colons, a plus sign and zeros in front of the line. -/
theorem breakpoint_grammar_colons :
    parseBreakpoint "C:/a:1:+007" = .ok (⟨"C:/a:1"⟩, 7) ∧ parseBreakpoint "a.py:-3" ≠ .ok (⟨"a.py"⟩, -3) := by
  refine ⟨(breakpoint_grammar.1 _ _ _).mpr ⟨"+007", ?_, ?_, ?_, ['+'], 1, ['0', '0', '7'], ?_⟩, fun h => ?_⟩
  · decide
  · decide
  · decide
  · exact ⟨by decide, by decide, by decide, List.all_eq_true.mp (by decide), by decide, by decide, by decide,
      by decide⟩
  · obtain ⟨line, -, -, -, front, sign, digits, -, -, -, -, -, -, -, hone⟩ :=
      (breakpoint_grammar.1 _ _ _).mp h
    exact absurd hone (by decide)

end DebugHost.CommandLine
