/-! # Decimals of floating point numbers

Floating point numbers of 64 bits, the shortest decimals that are read back as such a number, and the texts of
numbers that show every digit in its place. -/

namespace DebugHost.Decimal

/-! ### Double precision numbers

Floating point numbers of 64 bits, kept as their bit pattern so that equality is equality of numbers
as written. Every operation gives the number nearest to the exact result, and of two that are as near
the even one. -/

/-- A floating point number of 64 bits, given by its bit pattern. -/
structure Binary64 where
  /-- Sign, exponent and fraction. -/
  bits : UInt64
deriving DecidableEq, Repr, Inhabited

namespace Binary64

/-- Whether the number is below zero, or is the negative zero. -/
def isNegative (x : Binary64) : Bool := 0x8000000000000000 ≤ x.bits

/-- The bits of the exponent. -/
def exponentBits (x : Binary64) : Nat := (x.bits.toNat >>> 52) % 2048

/-- The bits of the fraction. -/
def fractionBits (x : Binary64) : Nat := x.bits.toNat % 4503599627370496

/-- Whether the number is an infinity or no number at all. -/
def isHuge (x : Binary64) : Bool := x.exponentBits = 2047

/-- Whether the number is a zero of either sign. -/
def isZero (x : Binary64) : Bool := x.exponentBits = 0 ∧ x.fractionBits = 0

/-- The number with the other sign. -/
def neg (x : Binary64) : Binary64 := ⟨x.bits ^^^ 0x8000000000000000⟩

/-- The significand and the binary exponent: a finite number is the one times two to the other. -/
def parts (x : Binary64) : Nat × Int :=
  if x.exponentBits = 0 then (x.fractionBits, -1074)
  else (x.fractionBits + 4503599627370496, (x.exponentBits : Int) - 1075)

/-- Whether the number below the given one is only half as far away as the one above: the
significand is the least of its binary exponent. -/
def isBoundary (x : Binary64) : Bool := x.fractionBits = 0 ∧ 1 < x.exponentBits

/-- Zero. -/
def zero : Binary64 := ⟨0⟩

/-- The positive infinity. -/
def infinity : Binary64 := ⟨0x7FF0000000000000⟩

/-- What is no number. -/
def notANumber : Binary64 := ⟨0x7FF8000000000000⟩

/-- The quotient of two numbers, rounded to the nearest whole number, of two as near to the even one. -/
def divideNearest (n d : Nat) : Nat :=
  let q := n / d
  let r := n % d
  if d < 2 * r ∨ (d = 2 * r ∧ q % 2 = 1) then q + 1 else q

/-- The number nearest to `n / d`, for positive `n` and `d`. Its last place is worth two to the
`place`-th: the significand has 53 bits unless the number is very small. -/
def ofRatio (n d : Nat) : Binary64 :=
  let guess : Int := (n.log2 : Int) - d.log2
  let reaches (e : Int) : Bool :=
    if 0 ≤ e then d <<< e.toNat ≤ n else d ≤ n <<< (-e).toNat
  let place : Int := max ((if reaches guess then guess else guess - 1) - 52) (-1074)
  let significand :=
    if 0 ≤ place then divideNearest n (d <<< place.toNat) else divideNearest (n <<< (-place).toNat) d
  let bits := ((place + 1074).toNat <<< 52) + significand
  ⟨UInt64.ofNat (min bits infinity.bits.toNat)⟩

/-- The number nearest to `n`. -/
def ofNat (n : Nat) : Binary64 := if n = 0 then zero else ofRatio n 1

/-- The number nearest to ten to the `k`-th. -/
def pow10 (k : Nat) : Binary64 := ofRatio (Nat.pow 10 k) 1

/-- The product of two finite numbers that are not negative. -/
def mul (x y : Binary64) : Binary64 :=
  if x.isZero || y.isZero then zero
  else
    let e := x.parts.2 + y.parts.2
    ofRatio ((x.parts.1 * y.parts.1) <<< e.toNat) (1 <<< (-e).toNat)

/-- The quotient of two finite numbers that are not negative, of which the second is not zero. -/
def div (x y : Binary64) : Binary64 :=
  if x.isZero then zero
  else
    let e := x.parts.2 - y.parts.2
    ofRatio (x.parts.1 <<< e.toNat) (y.parts.1 <<< (-e).toNat)

end Binary64

/-! ### Shortest decimals

The decimal number with the fewest digits among those that are read back as a given floating point
number, the nearest of them if there are several. The search goes through the decimal grids from one
to seventeen digits and takes the first that has a point in the interval of numbers that round to
the given one; if a grid has such a point, one of the two grid points around the number is one. -/

/-- The number `digits · 10 ^ exponent`. -/
structure Scaled where
  /-- The digits as a whole number. -/
  digits : Nat
  /-- The power of ten. -/
  exponent : Int
deriving DecidableEq, Repr

/-- Numbers over one denominator: the number itself and the ends of the interval of numbers that
round to it. -/
structure Interval where
  /-- Lower end. -/
  low : Nat
  /-- The number itself. -/
  mid : Nat
  /-- Upper end. -/
  high : Nat
  /-- The common denominator. -/
  den : Nat
  /-- Whether the ends belong to the interval. -/
  closed : Bool

/-- The interval of numbers that round to a positive finite number. -/
def Interval.of (x : Binary64) : Interval :=
  let (m, q) := x.parts
  let low := if x.isBoundary then 4 * m - 1 else 4 * m - 2
  let up := (q - 2).toNat
  let down := (2 - q).toNat
  ⟨low <<< up, (4 * m) <<< up, (4 * m + 2) <<< up, 1 <<< down, m % 2 = 0⟩

/-- Whether `c · 10 ^ k` lies in the interval. -/
def Interval.contains (i : Interval) (c : Nat) (k : Int) : Bool :=
  let value := c * Nat.pow 10 k.toNat * i.den
  let unit := Nat.pow 10 (-k).toNat
  if i.closed then i.low * unit ≤ value ∧ value ≤ i.high * unit
  else i.low * unit < value ∧ value < i.high * unit

/-- The greatest whole number `c` such that `c · 10 ^ k` is not above the number itself. -/
def Interval.below (i : Interval) (k : Int) : Nat :=
  i.mid * Nat.pow 10 (-k).toNat / (i.den * Nat.pow 10 k.toNat)

/-- Which of two decimals is taken for a number in the middle between them. -/
inductive Tie where
  /-- The one whose last digit is even. -/
  | even
  /-- The greater one. -/
  | up
deriving DecidableEq, Repr

/-- Whether the number itself is nearer to `c · 10 ^ k` than to `(c + 1) · 10 ^ k`. -/
def Interval.nearerBelow (i : Interval) (tie : Tie) (c : Nat) (k : Int) : Bool :=
  let twice := 2 * (i.mid * Nat.pow 10 (-k).toNat)
  let middle := (2 * c + 1) * (i.den * Nat.pow 10 k.toNat)
  twice < middle || (twice = middle && tie = .even && c % 2 = 0)

/-- A point of the grid of step `10 ^ k` in the interval, the nearest to the number itself. -/
def Interval.point? (i : Interval) (tie : Tie) (k : Int) : Option Nat :=
  let c := i.below k
  match i.contains c k && c != 0, i.contains (c + 1) k with
  | true, true => if i.nearerBelow tie c k then some c else some (c + 1)
  | true, false => some c
  | false, true => some (c + 1)
  | false, false => none

/-- The power of ten of the first digit of `mid / den`, searched upwards from `-e` in at most `fuel`
steps. -/
def leadingBelowOne (mid den : Nat) : Nat → Nat → Nat
  | 0, e => e
  | fuel + 1, e => if den ≤ mid * Nat.pow 10 e then e else leadingBelowOne mid den fuel (e + 1)

/-- The power of ten of the first digit of the number. -/
def Interval.leading (i : Interval) : Int :=
  if i.den ≤ i.mid then ((Nat.toDigits 10 (i.mid / i.den)).length : Int) - 1
  else -((leadingBelowOne i.mid i.den 400 1 : Nat) : Int)

/-- The first grid with a point in the interval, searched from step `10 ^ k` on in at most `fuel`
finer grids. -/
def Interval.search (i : Interval) (tie : Tie) : Nat → Int → Scaled
  | 0, k => ⟨i.below k, k⟩
  | fuel + 1, k =>
    match i.point? tie k with
    | some c => ⟨c, k⟩
    | none => i.search tie fuel (k - 1)

/-- The same number without a last digit that is zero. -/
def Scaled.trimmed (s : Scaled) : Scaled :=
  if s.digits % 10 = 0 then ⟨s.digits / 10, s.exponent + 1⟩ else s

/-- The shortest decimal that is read back as the positive finite number `x`. A last digit that is
zero can only come from the first grid, whose upper neighbour may be the next power of ten. -/
def shortest (x : Binary64) (tie : Tie) : Scaled :=
  let i := Interval.of x
  (i.search tie 17 i.leading).trimmed

/-! ### Positional decimals

Floating point numbers in words of an error message: all digits in their places, with a decimal point
in any case. -/

/-- A scaled number without a sign and without an exponent. -/
def Scaled.positional (s : Scaled) : List Char :=
  let ds := Nat.toDigits 10 s.digits
  let point : Int := ds.length + s.exponent
  if 0 ≤ s.exponent then ds ++ List.replicate s.exponent.toNat '0' ++ ['.', '0']
  else if 0 < point then ds.take point.toNat ++ '.' :: ds.drop point.toNat
  else '0' :: '.' :: (List.replicate (-point).toNat '0' ++ ds)

/-- The text of a number: its digits in their places, or the word for an infinity or no number. -/
def Binary64.positional (x : Binary64) : String :=
  if x.isHuge ∧ x.fractionBits ≠ 0 then "NaN"
  else
    let magnitude :=
      if x.isHuge then ['i', 'n', 'f']
      else if x.isZero then ['0', '.', '0']
      else (shortest x .up).positional
    String.ofList (if x.isNegative then '-' :: magnitude else magnitude)

/-- The text of a number like `Binary64.positional`, but without a fraction that is zero. -/
def Binary64.plain (x : Binary64) : String :=
  let cs := x.positional.toList
  String.ofList (if ['.', '0'].isSuffixOf cs then cs.take (cs.length - 2) else cs)

/-- The number nearest to `digits · 10 ^ exponent`. Exponents that are out of all bounds give zero or
infinity. -/
def Binary64.ofScaled (digits : Nat) (exponent : Int) : Binary64 :=
  let size : Int := (Nat.toDigits 10 digits).length + exponent
  if digits = 0 ∨ size < -400 then .zero
  else if 400 < size then .infinity
  else if exponent < 0 then .ofRatio digits (Nat.pow 10 exponent.natAbs)
  else .ofRatio (digits * Nat.pow 10 exponent.natAbs) 1

/-! ### Reading

Numbers are read in more forms: a sign or none, then digits with at most one decimal point among, before or
behind them and an exponent or none, or a word in any case for an infinity or for no number. -/

/-- The sign in front: whether it is a minus sign, and what stands behind it. -/
def signed : List Char → Bool × List Char
  | '-' :: cs => (true, cs)
  | '+' :: cs => (false, cs)
  | cs => (false, cs)

/-- The number that decimal digits spell; there has to be one. -/
def digits? (cs : List Char) : Option Nat :=
  if cs.isEmpty || !cs.all Char.isDigit then none
  else some (cs.foldl (fun n c => n * 10 + (c.toNat - '0'.toNat)) 0)

/-- The exponent behind its mark. -/
def exponent? (cs : List Char) : Option Int := do
  let (negative, cs) := signed cs
  let n ← digits? cs
  return if negative then -(n : Int) else n

/-- The number that digits with a point and an exponent spell. -/
def finite? (cs : List Char) : Option Binary64 := do
  let isMark (c : Char) := c = 'e' || c = 'E'
  let mantissa := cs.takeWhile fun c => !isMark c
  let whole := mantissa.takeWhile (· != '.')
  let fraction := (mantissa.dropWhile (· != '.')).drop 1
  let power ← match cs.dropWhile fun c => !isMark c with
    | [] => some 0
    | _ :: e => exponent? e
  let n ← digits? (whole ++ fraction)
  return .ofScaled n (power - fraction.length)

/-- The number that a text spells. -/
def Binary64.parse? (s : String) : Option Binary64 := do
  let (negative, cs) := signed s.toList
  let word := String.ofList (cs.map Char.toLower)
  let x ←
    if word = "inf" || word = "infinity" then some .infinity
    else if word = "nan" then some .notANumber
    else finite? cs
  return if negative then x.neg else x

example : Binary64.parse? "-.5e1" = some ⟨0xC014000000000000⟩ := by decide +kernel

example : Binary64.parse? "5." = some ⟨0x4014000000000000⟩ ∧ Binary64.parse? "." = none := by
  decide +kernel

end DebugHost.Decimal
