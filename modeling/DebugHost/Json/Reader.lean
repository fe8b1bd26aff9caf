import DebugHost.Json.Fault
import DebugHost.Json.Value
import DebugHost.Text.Utf8

/-! # Reading JSON

A reader of JSON values from octets. It keeps the members of an object as they stand in the text,
stops at the first fault, and says how much of the text was left there. Arrays and objects may be
nested up to a depth that the caller gives. -/

namespace DebugHost.Json

open DebugHost.Decimal DebugHost.Text

/-- Whether an octet is a blank: space, tab, line feed or carriage return. -/
def isBlankOctet (b : UInt8) : Bool := b = 32 ∨ b = 9 ∨ b = 10 ∨ b = 13

/-- What is left behind the blanks at the front. -/
def skipBlanks (bs : List UInt8) : List UInt8 := bs.dropWhile isBlankOctet

theorem length_skipBlanks_le (bs : List UInt8) : (skipBlanks bs).length ≤ bs.length :=
  (List.dropWhile_sublist _).length_le

/-! ### Literals -/

/-- Reads the remaining letters of a literal. -/
def readLetters : List UInt8 → List UInt8 → Except Stop (List UInt8)
  | [], bs => .ok bs
  | _ :: _, [] => .error ⟨.endInValue, []⟩
  | e :: es, b :: bs => if b = e then readLetters es bs else .error ⟨.expectedIdent, bs⟩

/-! ### Numbers -/

/-- A number as it is read: whole, or with a fraction or an exponent, or beyond 64 bits. -/
inductive Number where
  | int (n : Int)
  | real (x : Binary64)
deriving DecidableEq, Repr

/-- The number as a value. -/
def Number.value : Number → Value
  | .int n => .int n
  | .real x => .real x

/-- The value of an octet that is a digit. -/
def digit? (b : UInt8) : Option Nat := if 48 ≤ b ∧ b ≤ 57 then some (b.toNat - 48) else none

/-- Greatest whole number of 64 bits. -/
def wordMax : Nat := 18446744073709551615

/-- Digits read onto a significand of 64 bits. -/
structure Significand where
  /-- The significand. -/
  value : Nat
  /-- Number of digits that were read. -/
  count : Nat
  /-- Whether a further digit stands in front that no longer fits. -/
  full : Bool
  /-- What is left. -/
  rest : List UInt8

/-- Reads digits onto `acc` as long as the result fits 64 bits. -/
def readSignificand (acc count : Nat) : List UInt8 → Significand
  | [] => ⟨acc, count, false, []⟩
  | b :: bs =>
    match digit? b with
    | none => ⟨acc, count, false, b :: bs⟩
    | some d =>
      if wordMax < acc * 10 + d then ⟨acc, count, true, b :: bs⟩
      else readSignificand (acc * 10 + d) (count + 1) bs

/-- Drops digits and counts them. -/
def skipDigits (count : Nat) : List UInt8 → Nat × List UInt8
  | [] => (count, [])
  | b :: bs => if (digit? b).isSome then skipDigits (count + 1) bs else (count, b :: bs)

/-- The number `significand · 10 ^ exponent`: the significand is rounded, then scaled by one power
of ten, or by several where one does not reach. `none` above the greatest number. -/
def scaleBy : Nat → Binary64 → Int → Option Binary64
  | 0, x, _ => some x
  | fuel + 1, x, e =>
    if 0 ≤ e then
      if e ≤ 308 then
        let y := x.mul (.pow10 e.toNat)
        if y.isHuge then none else some y
      else if x.isZero then some x else none
    else if -308 ≤ e then some (x.div (.pow10 (-e).toNat))
    else if x.isZero then some x
    else scaleBy fuel (x.div (.pow10 308)) (e + 308)

/-- The number `significand · 10 ^ exponent` with a sign, once all its octets are read. -/
def scaled (positive : Bool) (significand : Nat) (exponent : Int) (rest : List UInt8) :
    Reading Binary64 :=
  match scaleBy 4 (.ofNat significand) exponent with
  | none => .error ⟨.numberOutOfRange, rest⟩
  | some x => .ok (if positive then x else x.neg, rest)

/-- Greatest exponent that is taken for its value; larger ones count as infinite. -/
def exponentMax : Nat := 2147483647

/-- Reads the digits of an exponent onto `acc`; `none` for one that is too large, with what is left
behind the digit that made it so. -/
def readExponentDigits (acc : Nat) : List UInt8 → Option Nat × List UInt8
  | [] => (some acc, [])
  | b :: bs =>
    match digit? b with
    | none => (some acc, b :: bs)
    | some d =>
      if exponentMax < acc * 10 + d then (none, bs) else readExponentDigits (acc * 10 + d) bs

/-- The sign in front of an exponent. -/
def exponentSign : List UInt8 → Bool × List UInt8
  | 43 :: bs => (true, bs)
  | 45 :: bs => (false, bs)
  | bs => (true, bs)

/-- Reads an exponent behind its letter and scales the significand. -/
def readExponent (positive : Bool) (significand : Nat) (start : Int) (bs : List UInt8) :
    Reading Binary64 :=
  let (up, bs) := exponentSign bs
  match bs with
  | [] => .error ⟨.endInValue, []⟩
  | b :: bs =>
    match digit? b with
    | none => .error ⟨.invalidNumber, bs⟩
    | some d =>
      match readExponentDigits d bs with
      | (some e, rest) => scaled positive significand (if up then start + e else start - e) rest
      | (none, rest) =>
        if significand ≠ 0 ∧ up then .error ⟨.numberOutOfRange, rest⟩
        else .ok (if positive then .zero else Binary64.zero.neg, (skipDigits 0 rest).2)

/-- Whether an octet is the letter of an exponent. -/
def isExponentLetter (b : UInt8) : Bool := b = 101 ∨ b = 69

/-- Reads an exponent if there is one and scales the significand. -/
def finishReal (positive : Bool) (significand : Nat) (exponent : Int) (bs : List UInt8) :
    Reading Binary64 :=
  match bs with
  | b :: rest =>
    if isExponentLetter b then readExponent positive significand exponent rest
    else scaled positive significand exponent (b :: rest)
  | [] => scaled positive significand exponent []

/-- Reads a fraction behind its point. -/
def readFraction (positive : Bool) (significand : Nat) (exponent : Int) (bs : List UInt8) :
    Reading Binary64 :=
  let s := readSignificand significand 0 bs
  if s.full then finishReal positive s.value (exponent - s.count) (skipDigits 0 s.rest).2
  else if s.count = 0 then
    match s.rest with
    | [] => .error ⟨.endInValue, []⟩
    | _ :: rest => .error ⟨.invalidNumber, rest⟩
  else finishReal positive s.value (exponent - s.count) s.rest

/-- A whole number with its sign. The negative zero and negative numbers below 64 bits are no whole
numbers. -/
def whole (positive : Bool) (n : Nat) : Number :=
  if positive then .int n
  else if n = 0 ∨ 9223372036854775808 < n then .real (Binary64.ofNat n).neg
  else .int (-n)

/-- Reads what follows the whole part of a number. -/
def readTail (positive : Bool) (significand : Nat) (bs : List UInt8) : Reading Number :=
  match bs with
  | b :: rest =>
    if b = 46 then (readFraction positive significand 0 rest).map fun (x, r) => (.real x, r)
    else if isExponentLetter b then
      (readExponent positive significand 0 rest).map fun (x, r) => (.real x, r)
    else .ok (whole positive significand, b :: rest)
  | [] => .ok (whole positive significand, [])

/-- Reads a number whose whole part does not fit 64 bits: the further digits only count. -/
def readLong (positive : Bool) (significand : Nat) (bs : List UInt8) : Reading Binary64 :=
  match skipDigits 0 bs with
  | (count, 46 :: rest) => readFraction positive significand count rest
  | (count, rest) => finishReal positive significand count rest

/-- Reads a number behind its sign. -/
def readNumber (positive : Bool) : List UInt8 → Reading Number
  | [] => .error ⟨.endInValue, []⟩
  | b :: bs =>
    match digit? b with
    | none => .error ⟨.invalidNumber, bs⟩
    | some 0 =>
      match bs with
      | c :: rest =>
        if (digit? c).isSome then .error ⟨.invalidNumber, rest⟩ else readTail positive 0 (c :: rest)
      | [] => readTail positive 0 []
    | some d =>
      let s := readSignificand d 1 bs
      if s.full then (readLong positive s.value s.rest).map fun (x, r) => (.real x, r)
      else readTail positive s.value s.rest

/-! ### Strings -/

/-- The value of an octet that is a hexadecimal digit. -/
def hexDigit? (b : UInt8) : Option Nat :=
  if 48 ≤ b ∧ b ≤ 57 then some (b.toNat - 48)
  else if 97 ≤ b ∧ b ≤ 102 then some (b.toNat - 87)
  else if 65 ≤ b ∧ b ≤ 70 then some (b.toNat - 55)
  else none

/-- What is left of a text behind a part of it: never more than the text. -/
abbrev Tail (bs : List UInt8) := { rest : List UInt8 // rest.length ≤ bs.length }

/-- Reads four hexadecimal digits. -/
def readHex (bs : List UInt8) : Except Stop (Nat × Tail bs) :=
  match bs with
  | a :: b :: c :: d :: rest =>
    match hexDigit? a, hexDigit? b, hexDigit? c, hexDigit? d with
    | some a, some b, some c, some d =>
      .ok (((a * 16 + b) * 16 + c) * 16 + d, ⟨rest, by simp only [List.length_cons]; omega⟩)
    | _, _, _, _ => .error ⟨.invalidEscape, rest⟩
  | _ => .error ⟨.endInString, []⟩

/-- Whether a number is the first half of a pair that spells one character. -/
def isLeading (n : Nat) : Bool := 0xD800 ≤ n ∧ n ≤ 0xDBFF

/-- Whether a number is the second half of a pair that spells one character. -/
def isTrailing (n : Nat) : Bool := 0xDC00 ≤ n ∧ n ≤ 0xDFFF

/-- Reads the second half of a pair, whose first half is `n`. -/
def readTrailing (n : Nat) (bs : List UInt8) : Except Stop (Char × Tail bs) :=
  match bs with
  | [] => .error ⟨.endInString, []⟩
  | 92 :: [] => .error ⟨.endInString, []⟩
  | 92 :: 117 :: rest =>
    match readHex rest with
    | .error e => .error e
    | .ok (m, ⟨rest', h⟩) =>
      if isTrailing m then
        .ok (Char.ofNat ((n - 0xD800) * 0x400 + (m - 0xDC00) + 0x10000),
          ⟨rest', by simp only [List.length_cons]; omega⟩)
      else .error ⟨.loneSurrogate, rest'⟩
  | 92 :: _ :: rest => .error ⟨.endOfHexEscape, rest⟩
  | _ :: rest => .error ⟨.endOfHexEscape, rest⟩

/-- Reads a character that is given by its number. -/
def readCodePoint (bs : List UInt8) : Except Stop (Char × Tail bs) :=
  match readHex bs with
  | .error e => .error e
  | .ok (n, rest) =>
    if isTrailing n then .error ⟨.loneSurrogate, rest.1⟩
    else if isLeading n then
      match readTrailing n rest.1 with
      | .error e => .error e
      | .ok (c, ⟨rest', h⟩) => .ok (c, ⟨rest', Nat.le_trans h rest.2⟩)
    else .ok (Char.ofNat n, rest)

/-- Reads an escape behind its backslash. -/
def readEscape (bs : List UInt8) : Except Stop (Char × Tail bs) :=
  match bs with
  | [] => .error ⟨.endInString, []⟩
  | b :: rest =>
    let one (c : Char) : Except Stop (Char × Tail (b :: rest)) :=
      .ok (c, ⟨rest, by simp only [List.length_cons]; omega⟩)
    if b = 34 then one '"'
    else if b = 92 then one '\\'
    else if b = 47 then one '/'
    else if b = 98 then one '\x08'
    else if b = 102 then one '\x0c'
    else if b = 110 then one '\n'
    else if b = 114 then one '\r'
    else if b = 116 then one '\t'
    else if b = 117 then
      match readCodePoint rest with
      | .error e => .error e
      | .ok (c, ⟨rest', h⟩) => .ok (c, ⟨rest', by simp only [List.length_cons]; omega⟩)
    else .error ⟨.invalidEscape, rest⟩

/-- How many octets longer the escape `bs` behind a backslash is than its character. -/
def excess (bs : List UInt8) (c : Char) : Nat :=
  let length := if bs.head? = some 117 then if c.toNat < 0x10000 then 6 else 12 else 2
  length - c.utf8Size

/-- Reads the characters of a string up to its closing quote onto `acc`, last first. Octets that
are no characters only count once the string is closed. The fault is then placed as far from the end of
the string as the first of them is when every escape is replaced by its character: `bad` is what stands
behind that place. -/
def readChars (acc : List Char) (bad : Option (List UInt8)) (bs : List UInt8) :
    Reading (List Char) :=
  match bs with
  | [] => .error ⟨.endInString, []⟩
  | b :: bs =>
    if b = 34 then
      match bad with
      | none => .ok (acc.reverse, bs)
      | some rest => .error ⟨.invalidCodePoint, rest⟩
    else if b = 92 then
      match readEscape bs with
      | .error e => .error e
      | .ok (c, rest) =>
        have : rest.1.length ≤ bs.length := rest.2
        readChars (c :: acc) (bad.map (·.drop (excess bs c))) rest.1
    else if b < 32 then .error ⟨.controlCharacter, bs⟩
    else
      have : (Utf8.next b bs).2.length ≤ bs.length := Utf8.length_next_le b bs
      match (Utf8.next b bs).1 with
      | some c => readChars (c :: acc) bad (Utf8.next b bs).2
      | none => readChars acc (bad.or (some bs)) (Utf8.next b bs).2
termination_by bs.length
decreasing_by all_goals exact Nat.lt_succ_of_le this

/-- Reads a string behind its opening quote. -/
def readString (bs : List UInt8) : Reading String :=
  (readChars [] none bs).map fun (cs, rest) => (String.ofList cs, rest)

/-! ### Arrays and objects -/

/-- A step of reading the items of an array: whether there is a further item, and what is left. -/
def nextItem (first : Bool) (bs : List UInt8) : Reading Bool :=
  match skipBlanks bs with
  | [] => .error ⟨.endInList, []⟩
  | b :: bs =>
    if b = 93 then .ok (false, b :: bs)
    else if first then .ok (true, b :: bs)
    else if b = 44 then
      match skipBlanks bs with
      | [] => .error ⟨.endInValue, []⟩
      | c :: rest => if c = 93 then .error ⟨.trailingComma, rest⟩ else .ok (true, c :: rest)
    else .error ⟨.expectedCommaOrBracket, bs⟩

/-- A step of reading the members of an object: the name of a further member, and what is left. -/
def nextName (first : Bool) (bs : List UInt8) : Reading (Option String) :=
  let name (bs : List UInt8) : Reading (Option String) :=
    (readString bs).map fun (s, rest) => (some s, rest)
  match skipBlanks bs with
  | [] => .error ⟨.endInObject, []⟩
  | b :: bs =>
    if b = 125 then .ok (none, b :: bs)
    else if first then
      if b = 34 then name bs else .error ⟨.keyNotString, bs⟩
    else if b = 44 then
      match skipBlanks bs with
      | [] => .error ⟨.endInValue, []⟩
      | c :: rest =>
        if c = 34 then name rest
        else if c = 125 then .error ⟨.trailingComma, rest⟩
        else .error ⟨.keyNotString, rest⟩
    else .error ⟨.expectedCommaOrBrace, bs⟩

/-- Reads the colon behind the name of a member. -/
def readColon (bs : List UInt8) : Except Stop (List UInt8) :=
  match skipBlanks bs with
  | [] => .error ⟨.endInObject, []⟩
  | b :: bs => if b = 58 then .ok bs else .error ⟨.expectedColon, bs⟩

/-- Reads the end of an array or object, `close`, for a reader that has found no further part. -/
def readClose (close : UInt8) (bs : List UInt8) : List UInt8 :=
  match skipBlanks bs with
  | b :: rest => if b = close then rest else b :: rest
  | [] => []

/-- Reads the items of an array up to its end with `item`, onto `acc`, last first. Every item takes an
octet at least, so that the length of the text is enough `fuel`. -/
def readItems (item : List UInt8 → Reading Value) :
    Nat → Bool → List Value → List UInt8 → Reading (List Value)
  | 0, _, _, bs => .error ⟨.endInList, bs⟩
  | fuel + 1, first, acc, bs =>
    match nextItem first bs with
    | .error e => .error e
    | .ok (false, rest) => .ok (acc.reverse, readClose 93 rest)
    | .ok (true, rest) =>
      match item rest with
      | .error e => .error e
      | .ok (v, rest) => readItems item fuel false (v :: acc) rest

/-- Reads the members of an object up to its end, their values with `item`, onto `acc`, last
first. -/
def readMembers (item : List UInt8 → Reading Value) :
    Nat → Bool → List (String × Value) → List UInt8 → Reading (List (String × Value))
  | 0, _, _, bs => .error ⟨.endInObject, bs⟩
  | fuel + 1, first, acc, bs =>
    match nextName first bs with
    | .error e => .error e
    | .ok (none, rest) => .ok (acc.reverse, readClose 125 rest)
    | .ok (some n, rest) =>
      match readColon rest with
      | .error e => .error e
      | .ok rest =>
        match item rest with
        | .error e => .error e
        | .ok (v, rest) => readMembers item fuel false ((n, v) :: acc) rest

/-! ### Values -/

/-- Reads a value that is neither array nor object, from its first octet `b` on. -/
def readScalar (b : UInt8) (bs : List UInt8) : Reading Value :=
  if b = 110 then (readLetters [117, 108, 108] bs).map (.null, ·)
  else if b = 116 then (readLetters [114, 117, 101] bs).map (.bool true, ·)
  else if b = 102 then (readLetters [97, 108, 115, 101] bs).map (.bool false, ·)
  else if b = 45 then (readNumber false bs).map fun (n, rest) => (n.value, rest)
  else if (digit? b).isSome then (readNumber true (b :: bs)).map fun (n, rest) => (n.value, rest)
  else if b = 34 then (readString bs).map fun (s, rest) => (.str s, rest)
  else .error ⟨.expectedValue, bs⟩

/-- Reads a value in which arrays and objects are nested at most `depth` levels deep. -/
def readValue : Nat → List UInt8 → Reading Value
  | depth, bs =>
    match skipBlanks bs with
    | [] => .error ⟨.endInValue, []⟩
    | b :: rest =>
      if b = 91 then
        match depth with
        | 0 => .error ⟨.tooDeep, rest⟩
        | depth + 1 =>
          (readItems (readValue depth) (rest.length + 1) true [] rest).map
            fun (vs, r) => (.arr vs, r)
      else if b = 123 then
        match depth with
        | 0 => .error ⟨.tooDeep, rest⟩
        | depth + 1 =>
          (readMembers (readValue depth) (rest.length + 1) true [] rest).map
            fun (ms, r) => (.obj ms, r)
      else readScalar b rest

/-- Levels of arrays and objects that a document may have. -/
def maxDepth : Nat := 127

/-- Reads the end of a document. -/
def readEnd (bs : List UInt8) : Except Stop Unit :=
  match skipBlanks bs with
  | [] => .ok ()
  | _ :: rest => .error ⟨.trailingCharacters, rest⟩

/-- Reads a whole document. -/
def readDocument (bs : List UInt8) : Except Stop Value :=
  match readValue maxDepth bs with
  | .error e => .error e
  | .ok (v, rest) => (readEnd rest).map fun _ => v

end DebugHost.Json
