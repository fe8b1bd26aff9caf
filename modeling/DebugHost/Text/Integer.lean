/-! # Decimal integers

Reading a whole number of a given range from its decimal digits, with an optional sign, and the
reasons for refusing a text. The range decides whether a minus sign may stand in front. -/

namespace DebugHost.Text.Integer

/-- Why a text is not a number of the range. -/
inductive Fault
  /-- The text has no characters. -/
  | empty
  /-- A character is no digit, or there is no digit at all. -/
  | invalidDigit
  /-- The number is above the range. -/
  | tooLarge
  /-- The number is below the range. -/
  | tooSmall
deriving DecidableEq, Repr

/-- The wording of a refusal. -/
def Fault.message : Fault → String
  | .empty => "cannot parse integer from empty string"
  | .invalidDigit => "invalid digit found in string"
  | .tooLarge => "number too large to fit in target type"
  | .tooSmall => "number too small to fit in target type"

/-- A closed range of integers. -/
structure Range where
  /-- Least member. -/
  least : Int
  /-- Greatest member. -/
  greatest : Int
deriving DecidableEq, Repr

/-- The signed numbers of 64 bits. -/
def Range.int64 : Range := ⟨-9223372036854775808, 9223372036854775807⟩

/-- The unsigned numbers of 64 bits. -/
def Range.word64 : Range := ⟨0, 18446744073709551615⟩

/-- Whether a number lies in the range. -/
def Range.holds (r : Range) (n : Int) : Bool := r.least ≤ n ∧ n ≤ r.greatest

/-- The number if it lies in the range. -/
def Range.check (r : Range) (n : Int) : Except Fault Int :=
  if n < r.least then .error .tooSmall
  else if r.greatest < n then .error .tooLarge
  else .ok n

/-- Digits as the number they spell with the sign `sign`. A faulty digit behind a number that has
already left the range is reported as the number being out of range. -/
def ofDigits (r : Range) (sign : Int) : Int → List Char → Except Fault Int
  | acc, [] => .ok acc
  | acc, c :: cs =>
    if c.isDigit then
      match r.check (acc * 10 + sign * ((c.toNat - '0'.toNat : Nat) : Int)) with
      | .ok next => ofDigits r sign next cs
      | .error f => .error f
    else .error .invalidDigit

/-- Reads a number of the range: a plus sign or none, or a minus sign if the range has negative
members, then digits. -/
def parse (r : Range) (s : String) : Except Fault Int :=
  match s.toList with
  | [] => .error .empty
  | '+' :: [] => .error .invalidDigit
  | '-' :: [] => .error .invalidDigit
  | '+' :: cs => ofDigits r 1 0 cs
  | '-' :: cs => if r.least < 0 then ofDigits r (-1) 0 cs else .error .invalidDigit
  | cs => ofDigits r 1 0 cs

example : (parse .int64 "-9223372036854775808").toOption = some (-9223372036854775808) := by
  decide +kernel

example : (parse .word64 "+7").toOption = some 7 := by decide +kernel

end DebugHost.Text.Integer
