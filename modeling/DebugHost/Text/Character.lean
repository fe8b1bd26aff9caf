/-! # Classes of characters

Blanks, and trimming them from the ends of a text; cutting a text at a character; the digits of
hexadecimal numbers; and classes that tables of ranges give. -/

namespace DebugHost.Text

/-! ### Blanks -/

/-- Whether a character has the property White_Space. -/
def isBlank (c : Char) : Bool :=
  let n := c.toNat
  (9 ≤ n ∧ n ≤ 13) ∨ n = 0x20 ∨ n = 0x85 ∨ n = 0xA0 ∨ n = 0x1680 ∨ (0x2000 ≤ n ∧ n ≤ 0x200A) ∨
    n = 0x2028 ∨ n = 0x2029 ∨ n = 0x202F ∨ n = 0x205F ∨ n = 0x3000

theorem isBlank_of_isWhitespace {c : Char} (h : c.isWhitespace = true) : isBlank c = true := by
  simp only [Char.isWhitespace, Bool.or_eq_true, decide_eq_true_eq] at h
  rcases h with ((h | h) | h) | h <;> subst h <;> decide

/-- Drops the characters of a class from the end of a list. -/
def dropEnd (p : Char → Bool) (cs : List Char) : List Char := (cs.reverse.dropWhile p).reverse

/-- Drops the characters of a class from the end of a text. -/
def trimEndBy (p : Char → Bool) (s : String) : String := String.ofList (dropEnd p s.toList)

/-- Drops the blanks at both ends of a text. -/
def trimBlanks (s : String) : String := String.ofList (dropEnd isBlank (s.toList.dropWhile isBlank))

/-! ### Pieces -/

/-- The pieces of a text between the places of a character. -/
def pieces (mark : Char) : List Char → List (List Char)
  | [] => [[]]
  | c :: cs =>
    if c = mark then [] :: pieces mark cs
    else
      match pieces mark cs with
      | [] => [[c]]
      | p :: ps => (c :: p) :: ps

/-! ### Hexadecimal digits -/

/-- The value of a hexadecimal digit. -/
def hexValue? (c : Char) : Option Nat :=
  if c.isDigit then some (c.toNat - '0'.toNat)
  else if 'a' ≤ c ∧ c ≤ 'f' then some (c.toNat - 'a'.toNat + 10)
  else if 'A' ≤ c ∧ c ≤ 'F' then some (c.toNat - 'A'.toNat + 10)
  else none

/-- The number that hexadecimal digits spell, behind `acc`. -/
def hexNumber? : Nat → List Char → Option Nat
  | acc, [] => some acc
  | acc, c :: cs => do hexNumber? (acc * 16 + (← hexValue? c)) cs

/-- The character with a number in hexadecimal digits. -/
def scalar? (digits : List Char) : Option Char := do
  let n ← hexNumber? 0 digits
  if n < 0xD800 ∨ (0xDFFF < n ∧ n < 0x110000) then some (Char.ofNat n) else none

example : hexNumber? 0 ['f', 'F'] = some 255 ∧ scalar? ['d', '8', '0', '0'] = none := by decide

/-! ### Tables of ranges

The ranges are of the numbers of characters. A table is in rising order, and a large class has several
tables. -/

namespace Ranges

/-- Whether a range of the table `t` holds `n`: a search by halves between the positions `lo` and `hi`
in at most `fuel` steps. -/
def holds (t : Array (Nat × Nat)) (n : Nat) : Nat → Nat → Nat → Bool
  | 0, _, _ => false
  | fuel + 1, lo, hi =>
    if lo < hi then
      let mid := (lo + hi) / 2
      let (first, last) := t.getD mid (0, 0)
      if n < first then holds t n fuel lo mid
      else if last < n then holds t n fuel (mid + 1) hi
      else true
    else false

/-- Whether one of some tables holds a character. -/
def member (tables : List (Array (Nat × Nat))) (c : Char) : Bool :=
  tables.any fun t => holds t c.toNat 16 0 t.size

end Ranges

end DebugHost.Text
