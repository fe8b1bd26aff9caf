import DebugHost.Decimal
import DebugHost.Text.Utf8

/-! # Formatted output

What `echo` and `printf` write: escapes, and directives with flags, width and precision. Output is made
of octets, since an escape may name any octet. -/

namespace DebugHost.Shell.Format

open DebugHost.Decimal DebugHost.Text

/-- The octets of characters. -/
def octets (cs : List Char) : List UInt8 := Utf8.encode (String.ofList cs)

/-- Whether a character is an octal digit. -/
def isOctal (c : Char) : Bool := '0' ≤ c && c ≤ '7'

/-- The octet that octal digits name. -/
def octal (cs : List Char) : UInt8 := UInt8.ofNat (cs.foldl (fun n c => n * 8 + (c.toNat - 48)) 0)

/-- Reads the escape behind a backslash: its octets and what follows. An unknown escape stands for
itself. -/
def escape : List Char → List UInt8 × List Char
  | [] => ([92], [])
  | c :: rest =>
    match c with
    | 'a' => ([7], rest)
    | 'b' => ([8], rest)
    | 'e' => ([27], rest)
    | 'f' => ([12], rest)
    | 'n' => ([10], rest)
    | 'r' => ([13], rest)
    | 't' => ([9], rest)
    | 'v' => ([11], rest)
    | '\\' => ([92], rest)
    | _ =>
      if isOctal c then
        let ds := ((c :: rest).takeWhile isOctal).take 3
        ([octal ds], (c :: rest).drop ds.length)
      else ([92], c :: rest)

/-- The octets of a text with escapes; `\c` ends it, as the second component tells. Octal numbers may
have an additional zero in front. -/
def escaped : Nat → List Char → List UInt8 × Bool
  | 0, _ => ([], false)
  | _, [] => ([], false)
  | fuel + 1, '\\' :: cs =>
    match cs with
    | 'c' :: _ => ([], true)
    | '0' :: rest =>
      let ds := (rest.takeWhile isOctal).take 3
      let (more, stop) := escaped fuel (rest.drop ds.length)
      (octal ds :: more, stop)
    | _ =>
      let (front, rest) := escape cs
      let (more, stop) := escaped fuel rest
      (front ++ more, stop)
  | fuel + 1, c :: cs =>
    let (more, stop) := escaped fuel cs
    (octets [c] ++ more, stop)

/-- What `echo` writes. -/
def echo (args : List String) : List UInt8 :=
  let (newline, args) := match args with
    | "-n" :: rest => (false, rest)
    | rest => (true, rest)
  let text := (String.intercalate " " args).toList
  let (out, stop) := escaped (text.length + 1) text
  if newline && !stop then out ++ [10] else out

/-! ### Directives -/

/-- The modifiers of a directive. -/
structure Modifiers where
  left : Bool := false
  plus : Bool := false
  space : Bool := false
  zero : Bool := false
  alternate : Bool := false
  width : Nat := 0
  precision : Option Nat := none

/-- Puts octets into a field of a width, at the right end or at the left. -/
def pad (m : Modifiers) (bs : List UInt8) : List UInt8 :=
  let blanks := List.replicate (m.width - bs.length) (32 : UInt8)
  if m.left then bs ++ blanks else blanks ++ bs

/-- The digits of a number in a base, small letters for those above nine. -/
def digits (base n : Nat) : List Char := Nat.toDigits base n

/-- A number as a directive writes it. -/
def number (m : Modifiers) (conversion : Char) (n : Int) : List UInt8 :=
  let isSigned := conversion = 'd' || conversion = 'i'
  let magnitude := if isSigned then n.natAbs else (n % 18446744073709551616).toNat
  let ds := match conversion with
    | 'o' => digits 8 magnitude
    | 'x' => digits 16 magnitude
    | 'X' => (digits 16 magnitude).map Char.toUpper
    | _ => digits 10 magnitude
  let ds := match m.precision with
    | some p => if p = 0 && n = 0 then [] else List.replicate (p - ds.length) '0' ++ ds
    | none => ds
  let sign := if !isSigned then
      if m.alternate && magnitude ≠ 0 then
        match conversion with
        | 'x' => ['0', 'x']
        | 'X' => ['0', 'X']
        | 'o' => ['0']
        | _ => []
      else []
    else if n < 0 then ['-'] else if m.plus then ['+'] else if m.space then [' '] else []
  if m.zero && !m.left && m.precision.isNone then
    octets (sign ++ List.replicate (m.width - sign.length - ds.length) '0' ++ ds)
  else pad m (octets (sign ++ ds))

/-- What is wrong with an argument that should be a number. -/
inductive ArgumentFault where
  /-- It does not start with a number. -/
  | notNumber
  /-- Something stands behind the number. -/
  | notWhole
deriving DecidableEq, Repr

/-- The wording of a fault in an argument. -/
def ArgumentFault.message (argument : String) : ArgumentFault → String
  | .notNumber => argument ++ ": expected numeric value"
  | .notWhole => argument ++ ": not completely converted"

/-- The fault of an argument in which `rest` is left behind a number, if it has one at all. -/
def faultOf (hasDigits : Bool) (rest : List Char) : Option ArgumentFault :=
  if !hasDigits then some .notNumber else if rest.isEmpty then none else some .notWhole

/-- The number an argument stands for, and what is wrong with it. -/
def numberOf (s : String) : Int × Option ArgumentFault :=
  match s.toList with
  | [] => (0, none)
  | '\'' :: c :: _ | '"' :: c :: _ => (c.toNat, none)
  | cs =>
    let (negative, ds) := match cs with
      | '-' :: r => (true, r)
      | '+' :: r => (false, r)
      | r => (false, r)
    let (value, rest) : Nat × List Char :=
      match ds with
      | '0' :: 'x' :: r | '0' :: 'X' :: r =>
        let isHex (c : Char) : Bool :=
          c.isDigit || ('a' ≤ c.toLower && c.toLower ≤ 'f')
        let d (c : Char) : Nat := if c.isDigit then c.toNat - 48 else c.toLower.toNat - 87
        ((r.takeWhile isHex).foldl (fun n c => n * 16 + d c) 0, r.dropWhile isHex)
      | '0' :: r =>
        ((r.takeWhile isOctal).foldl (fun n c => n * 8 + (c.toNat - 48)) 0, r.dropWhile isOctal)
      | r =>
        ((r.takeWhile Char.isDigit).foldl (fun n c => n * 10 + (c.toNat - 48)) 0,
          r.dropWhile Char.isDigit)
    ((if negative then -(value : Int) else value), faultOf ((ds.head?.map Char.isDigit).getD false) rest)

/-! ### Decimals -/

/-- The digits of a number with `places` digits behind the point, at least one digit in front of it. -/
def withPoint (digits : Nat) (places : Nat) : List Char :=
  let ds := Nat.toDigits 10 digits
  let ds := List.replicate (places + 1 - ds.length) '0' ++ ds
  let whole := ds.take (ds.length - places)
  if places = 0 then whole else whole ++ '.' :: ds.drop whole.length

/-- A finite number times ten to the `places`-th, rounded to a whole number; a half goes to the even
one. -/
def rounded (x : Binary64) (places : Int) : Nat :=
  let (m, q) := x.parts
  let num := (m <<< q.toNat) * Nat.pow 10 places.toNat
  let den := (1 <<< (-q).toNat) * Nat.pow 10 (-places).toNat
  let low := num / den
  let twice := 2 * (num % den)
  if twice < den || (twice = den && low % 2 = 0) then low else low + 1

/-- The exponent of the first digit of a finite number that is not zero, when it is written with
`places` further digits. -/
def leadingExponent (x : Binary64) (places : Nat) : Int :=
  let s := shortest x .even
  let e : Int := (Nat.toDigits 10 s.digits).length + s.exponent - 1
  if Nat.pow 10 (places + 1) ≤ rounded x (places - e) then e + 1 else e

/-- A decimal without the zeros at its end. -/
def shortened (cs : List Char) : List Char :=
  if '.' ∈ cs then
    match cs.reverse.dropWhile (· = '0') with
    | '.' :: r => r.reverse
    | r => r.reverse
  else cs

/-- The magnitude of a finite number as a directive writes it: with all its digits in their places, or
with an exponent, or in the form that fits its size. -/
def decimal (conversion : Char) (alternate : Bool) (places : Nat) (x : Binary64) : List Char :=
  let fits := conversion = 'g' || conversion = 'G'
  let short (cs : List Char) : List Char := if fits && !alternate then shortened cs else cs
  let places := if fits then places - 1 else places
  let e := if x.isZero then 0 else leadingExponent x places
  if conversion = 'f' || conversion = 'F' then withPoint (rounded x places) places
  else if fits && -4 ≤ e && e ≤ places then
    short (withPoint (rounded x (places - e)) (places - e).toNat)
  else
    let ds := Nat.toDigits 10 e.natAbs
    short (withPoint (rounded x (places - e)) places) ++
      (if conversion.isUpper then 'E' else 'e') :: (if e < 0 then '-' else '+') ::
        (List.replicate (2 - ds.length) '0' ++ ds)

/-- The decimal number that an argument stands for, and what is wrong with it. -/
def decimalOf (s : String) : Binary64 × Option ArgumentFault :=
  let (negative, cs) := match s.toList with
    | '-' :: r => (true, r)
    | '+' :: r => (false, r)
    | r => (false, r)
  let whole := cs.takeWhile Char.isDigit
  let (fraction, rest) := match cs.drop whole.length with
    | '.' :: r => (r.takeWhile Char.isDigit, r.dropWhile Char.isDigit)
    | r => ([], r)
  let (exponent, rest) : Int × List Char := match rest with
    | e :: r =>
      let (sign, ds) : Int × List Char := match r with
        | '-' :: ds => (-1, ds)
        | '+' :: ds => (1, ds)
        | ds => (1, ds)
      if (e = 'e' || e = 'E') && (ds.head?.map Char.isDigit).getD false then
        (sign * (String.ofList (ds.takeWhile Char.isDigit)).toNat?.getD 0, ds.dropWhile Char.isDigit)
      else (0, rest)
    | [] => (0, [])
  let digits := (String.ofList (whole ++ fraction)).toNat?.getD 0
  let x := Binary64.ofScaled digits (exponent - fraction.length)
  (if negative then x.neg else x,
    if s = "" then none else faultOf (!(whole ++ fraction).isEmpty) rest)

/-- A decimal number as a directive writes it. -/
def real (m : Modifiers) (conversion : Char) (x : Binary64) : List UInt8 :=
  let sign := if x.isNegative then ['-'] else if m.plus then ['+'] else if m.space then [' '] else []
  let ds := if x.isHuge then "inf".toList else decimal conversion m.alternate (m.precision.getD 6) x
  if m.zero && !m.left then
    octets (sign ++ List.replicate (m.width - sign.length - ds.length) '0' ++ ds)
  else pad m (octets (sign ++ ds))

/-- What has been written, the arguments that are left, and what is wrong with others. -/
structure Progress where
  out : List (List UInt8) := []
  args : List String
  faults : List String := []
  /-- Whether output has been ended early. -/
  stopped : Bool := false
  /-- What is wrong with a directive. -/
  invalid : Option String := none

/-- Takes the next argument; a missing one is empty. -/
def Progress.take (p : Progress) : String × Progress :=
  match p.args with
  | a :: rest => (a, { p with args := rest })
  | [] => ("", p)

/-- Adds output. -/
def Progress.write (p : Progress) (bs : List UInt8) : Progress := { p with out := bs :: p.out }

/-- Takes the next argument as a number. -/
def Progress.takeNumber (p : Progress) : Int × Progress :=
  let (a, p) := p.take
  let (n, fault) := numberOf a
  (n, { p with faults := p.faults ++ fault.toList.map (ArgumentFault.message a) })

/-- Reads flags. -/
def flags : Modifiers → List Char → Modifiers × List Char
  | m, '-' :: cs => flags { m with left := true } cs
  | m, '+' :: cs => flags { m with plus := true } cs
  | m, ' ' :: cs => flags { m with space := true } cs
  | m, '0' :: cs => flags { m with zero := true } cs
  | m, '#' :: cs => flags { m with alternate := true } cs
  | m, cs => (m, cs)

/-- Reads a width or a precision. -/
def size (cs : List Char) (p : Progress) : Int × List Char × Progress :=
  match cs with
  | '*' :: rest =>
    let (n, p) := p.takeNumber
    (n, rest, p)
  | _ =>
    let ds := cs.takeWhile Char.isDigit
    (ds.foldl (fun n c => n * 10 + ((c.toNat - 48 : Nat) : Int)) 0, cs.drop ds.length, p)

/-- Writes what a directive asks for. -/
def directive (m : Modifiers) (conversion : Char) (p : Progress) : Progress :=
  if conversion ∈ ['d', 'i', 'o', 'u', 'x', 'X'] then
    let (n, p) := p.takeNumber
    p.write (number m conversion n)
  else if conversion = 'c' then
    let (a, p) := p.take
    p.write (pad m ((Utf8.encode a).take 1))
  else if conversion = 's' || conversion = 'b' then
    let (a, p) := p.take
    let (bs, stop) := if conversion = 'b' then escaped (a.length + 1) a.toList
      else (Utf8.encode a, false)
    let bs := match m.precision with
      | some n => bs.take n
      | none => bs
    { p.write (pad m bs) with stopped := stop }
  else if conversion ∈ ['e', 'E', 'f', 'F', 'g', 'G'] then
    let (a, p) := p.take
    let (x, fault) := decimalOf a
    { p with faults := p.faults ++ fault.toList.map (ArgumentFault.message a) }.write
      (real m conversion x)
  else
    { p with
      stopped := true
      invalid := some (String.ofList ['%', conversion] ++ ": invalid directive") }

/-- Writes a format once. -/
def once : Nat → List Char → Progress → Progress
  | 0, _, p => p
  | _, [], p => p
  | fuel + 1, '\\' :: cs, p =>
    let (bs, rest) := escape cs
    once fuel rest (p.write bs)
  | fuel + 1, '%' :: '%' :: cs, p => once fuel cs (p.write [37])
  | fuel + 1, '%' :: cs, p =>
    let (m, cs) := flags {} cs
    let (width, cs, p) := size cs p
    let m := if width < 0 then { m with left := true, width := width.natAbs }
      else { m with width := width.toNat }
    let (m, cs, p) := match cs with
      | '.' :: cs =>
        let (n, cs, p) := size cs p
        ({ m with precision := if n < 0 then none else some n.toNat }, cs, p)
      | cs => (m, cs, p)
    match cs with
    | [] => { p with stopped := true, invalid := some "missing format character" }
    | c :: cs =>
      let p := directive m c p
      if p.stopped then p else once fuel cs p
  | fuel + 1, c :: cs, p => once fuel cs (p.write (octets [c]))

/-- Writes a format as often as there are arguments for it, at least once. -/
def repeated (format : List Char) : Nat → Progress → Progress
  | 0, p => p
  | fuel + 1, p =>
    let q := once (format.length + 1) format p
    if q.stopped || q.args.isEmpty || q.args.length = p.args.length then q
    else repeated format fuel q

/-- What `printf` writes, what it has to say about its arguments, and its status. -/
def printf (format : String) (args : List String) : List UInt8 × List String × Nat :=
  let p := repeated format.toList (args.length + 1) { args }
  let faults := p.faults ++ p.invalid.toList
  (p.out.reverse.flatten, faults, if p.invalid.isSome then 2 else if faults.isEmpty then 0 else 1)

end DebugHost.Shell.Format
