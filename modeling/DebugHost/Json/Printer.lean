import DebugHost.Decimal
import DebugHost.Json.Value

/-! # Writing JSON

Values as compact text: no blanks, in strings only the escapes that must be, whole numbers in full,
other numbers by their shortest decimal. A number that is not whole is written without an exponent
from `0.00001` to below ten to the sixteenth, and always shows a decimal point or an exponent. -/

namespace DebugHost.Json

open DebugHost.Decimal

/-- What stands for one character of a string. -/
def escape (c : Char) : List Char :=
  match c with
  | '"' => ['\\', '"']
  | '\\' => ['\\', '\\']
  | '\x08' => ['\\', 'b']
  | '\x0c' => ['\\', 'f']
  | '\n' => ['\\', 'n']
  | '\r' => ['\\', 'r']
  | '\t' => ['\\', 't']
  | c =>
    if c.toNat < 0x20 then
      ['\\', 'u', '0', '0', Nat.digitChar (c.toNat / 16), Nat.digitChar (c.toNat % 16)]
    else [c]

/-- The characters of a string between double quotes. -/
def quoted (s : String) : List Char := '"' :: (s.toList.flatMap escape ++ ['"'])

/-- The characters of a whole number. -/
def intDigits : Int → List Char
  | .ofNat n => Nat.toDigits 10 n
  | .negSucc n => '-' :: Nat.toDigits 10 (n + 1)

/-- A scaled number without a sign: plain from `0.00001` to below ten to the sixteenth, with an
exponent otherwise. -/
def scaledText (s : Scaled) : List Char :=
  let ds := Nat.toDigits 10 s.digits
  let point : Int := ds.length + s.exponent
  if 0 < point ∧ point ≤ 16 then
    if 0 ≤ s.exponent then ds ++ List.replicate s.exponent.toNat '0' ++ ['.', '0']
    else ds.take point.toNat ++ '.' :: ds.drop point.toNat
  else if -5 < point ∧ point ≤ 0 then
    '0' :: '.' :: (List.replicate (-point).toNat '0' ++ ds)
  else
    let mantissa := match ds with
      | [] => []
      | [d] => [d]
      | d :: rest => d :: '.' :: rest
    let e := point - 1
    mantissa ++ 'e' :: (if e < 0 then '-' else '+') :: Nat.toDigits 10 e.natAbs

/-- The characters of a number that is not whole. -/
def realText (x : Binary64) : List Char :=
  let magnitude := if x.isZero then ['0', '.', '0'] else scaledText (shortest x .even)
  if x.isNegative then '-' :: magnitude else magnitude

mutual

/-- The characters of a value. -/
def chars : Value → List Char
  | .null => ['n', 'u', 'l', 'l']
  | .bool true => ['t', 'r', 'u', 'e']
  | .bool false => ['f', 'a', 'l', 's', 'e']
  | .int n => intDigits n
  | .real x => realText x
  | .str s => quoted s
  | .arr [] => ['[', ']']
  | .arr (v :: rest) => '[' :: (chars v ++ itemChars rest)
  | .obj [] => ['{', '}']
  | .obj ((n, v) :: rest) => '{' :: (quoted n ++ ':' :: (chars v ++ memberChars rest))

/-- The items of an array behind the first, and its end. -/
def itemChars : List Value → List Char
  | [] => [']']
  | v :: rest => ',' :: (chars v ++ itemChars rest)

/-- The members of an object behind the first, and its end. -/
def memberChars : List (String × Value) → List Char
  | [] => ['}']
  | (n, v) :: rest => ',' :: (quoted n ++ ':' :: (chars v ++ memberChars rest))

end

/-- The text of a value. -/
def text (v : Value) : String := String.ofList (chars v)

end DebugHost.Json
