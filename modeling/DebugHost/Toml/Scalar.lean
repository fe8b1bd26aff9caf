import DebugHost.Text.Integer
import DebugHost.Toml.Table

/-! # TOML numbers, truth values and dates

Values that are written as one word: a run of letters, digits and a few signs, of which a date may be
followed by a blank and a time. -/

namespace DebugHost.Toml

open DebugHost.Decimal DebugHost.Text

/-! ### Numbers -/

/-- The digits of a run in which single underscores may stand between digits. -/
def digitRun? (isDigit : Char → Bool) : List Char → Option (List Char)
  | [] => none
  | [c] => if isDigit c then some [c] else none
  | c :: '_' :: rest => if isDigit c then (digitRun? isDigit rest).map (c :: ·) else none
  | c :: rest => if isDigit c then (digitRun? isDigit rest).map (c :: ·) else none

/-- The number that digits of a base spell. -/
def numberOf (base : Nat) (value : Char → Nat) (ds : List Char) : Nat :=
  ds.foldl (fun n c => n * base + value c) 0

/-- The value of a digit up to sixteen. -/
def digitValue (c : Char) : Nat :=
  if c.isDigit then c.toNat - '0'.toNat
  else if 'a' ≤ c then c.toNat - 'a'.toNat + 10
  else c.toNat - 'A'.toNat + 10

/-- Whether a character is a digit of a base of at most sixteen. -/
def isDigitOf (base : Nat) (c : Char) : Bool :=
  (c.isDigit || ('a' ≤ c && c ≤ 'f') || ('A' ≤ c && c ≤ 'F')) && digitValue c < base

/-- Digits without a needless zero in front. -/
def wholeDigits? (cs : List Char) : Option (List Char) := do
  match ← digitRun? Char.isDigit cs with
  | ['0'] => some ['0']
  | '0' :: _ => none
  | ds => some ds

/-- A sign, and what stands behind it. -/
def signOf : List Char → Bool × List Char
  | '+' :: cs => (false, cs)
  | '-' :: cs => (true, cs)
  | cs => (false, cs)

/-- A whole number of 64 bits. -/
def inRange? (n : Int) : Option Value := if Integer.Range.int64.holds n then some (.int n) else none

/-- A whole number: decimal with an optional sign, or in one of three other bases. -/
def integer? : List Char → Option Value
  | '0' :: 'x' :: cs => based 16 cs
  | '0' :: 'o' :: cs => based 8 cs
  | '0' :: 'b' :: cs => based 2 cs
  | cs => do
    let (negative, cs) := signOf cs
    let n : Int := numberOf 10 digitValue (← wholeDigits? cs)
    inRange? (if negative then -n else n)
where
  /-- The digits of another base. -/
  based (base : Nat) (cs : List Char) : Option Value := do
    inRange? (numberOf base digitValue (← digitRun? (isDigitOf base) cs))

/-- The exponent of a number, if there is one. -/
def exponent? : List Char → Option Int
  | [] => some 0
  | _ :: cs => do
    let (negative, cs) := signOf cs
    let n : Int := numberOf 10 digitValue (← digitRun? Char.isDigit cs)
    some (if negative then -n else n)

/-- Whether a character begins an exponent. -/
def isExponentMark (c : Char) : Bool := c = 'e' || c = 'E'

/-- A number with a decimal point or an exponent, or a word for an infinity or no number. A number that
is too large is refused, while one that is too small becomes the negative infinity. -/
def real? (cs : List Char) : Option Value := do
  let (negative, cs) := signOf cs
  let signed (x : Binary64) : Value := .real (if negative then x.neg else x)
  let finite (x : Binary64) : Option Value := if x.isHuge && !negative then none else some (signed x)
  if cs = ['i', 'n', 'f'] then return signed .infinity
  if cs = ['n', 'a', 'n'] then return signed .notANumber
  let mantissa := cs.takeWhile fun c => !isExponentMark c
  let power := cs.dropWhile fun c => !isExponentMark c
  let e ← exponent? power
  let whole ← wholeDigits? (mantissa.takeWhile (· != '.'))
  match mantissa.dropWhile (· != '.') with
  | [] => if power = [] then none else finite (.ofScaled (numberOf 10 digitValue whole) e)
  | _ :: fraction =>
    let ds ← digitRun? Char.isDigit fraction
    finite (.ofScaled (numberOf 10 digitValue (whole ++ ds)) (e - ds.length))

/-! ### Dates and times -/

/-- The number of two digits. -/
def two? (a b : Char) : Option Nat :=
  if a.isDigit && b.isDigit then some (digitValue a * 10 + digitValue b) else none

/-- Number of days of a month. -/
def monthDays (year month : Nat) : Nat :=
  if month = 2 then
    if year % 4 = 0 ∧ (year % 100 ≠ 0 ∨ year % 400 = 0) then 29 else 28
  else if month ∈ [4, 6, 9, 11] then 30
  else 31

/-- What stands behind a date. -/
def afterDate? : List Char → Option (List Char)
  | a :: b :: c :: d :: '-' :: e :: f :: '-' :: g :: h :: rest => do
    let year := (← two? a b) * 100 + (← two? c d)
    let month ← two? e f
    let day ← two? g h
    if 1 ≤ month ∧ month ≤ 12 ∧ 1 ≤ day ∧ day ≤ monthDays year month then some rest else none
  | _ => none

/-- What stands behind a time of day. -/
def afterTime? : List Char → Option (List Char)
  | a :: b :: ':' :: c :: d :: ':' :: e :: f :: rest => do
    if (← two? a b) ≤ 23 ∧ (← two? c d) ≤ 59 ∧ (← two? e f) ≤ 60 then
      match rest with
      | '.' :: rest =>
        if (rest.takeWhile Char.isDigit).isEmpty then none else some (rest.dropWhile Char.isDigit)
      | rest => some rest
    else none
  | _ => none

/-- Whether a text is the distance of a time zone, or nothing. -/
def isZone : List Char → Bool
  | [] => true
  | ['Z'] => true
  | ['z'] => true
  | [s, a, b, ':', c, d] =>
    (s = '+' || s = '-') && (two? a b).any (· ≤ 23) && (two? c d).any (· ≤ 59)
  | _ => false

/-- Whether a text is a date, a time of day, or both. -/
def isMoment (cs : List Char) : Bool :=
  match afterDate? cs with
  | some [] => true
  | some (c :: rest) =>
    (c = 'T' || c = 't' || c = ' ') && (match afterTime? rest with
      | some zone => isZone zone
      | none => false)
  | none => afterTime? cs = some []

/-! ### Words -/

/-- Whether a character may stand in a word. -/
def isWordChar (c : Char) : Bool :=
  c.isAlphanum || c = '+' || c = '-' || c = '.' || c = '_' || c = ':'

/-- The word in front, and what stands behind it. A time that stands behind a date and a blank belongs
to the word. -/
def word (cs : List Char) : List Char × List Char :=
  let w := cs.takeWhile isWordChar
  let rest := cs.dropWhile isWordChar
  match rest with
  | ' ' :: more =>
    let time := more.takeWhile isWordChar
    if afterDate? w = some [] ∧ (time.head?.any Char.isDigit) then
      (w ++ ' ' :: time, more.dropWhile isWordChar)
    else (w, rest)
  | _ => (w, rest)

/-- The value of a word. -/
def wordValue? (w : List Char) : Option Value :=
  if w = ['t', 'r', 'u', 'e'] then some (.bool true)
  else if w = ['f', 'a', 'l', 's', 'e'] then some (.bool false)
  else if isMoment w then some (.moment (String.ofList w))
  else (integer? w).or (real? w)

end DebugHost.Toml
