import DebugHost.Shell.Reader
import DebugHost.Text.Integer

/-! # Calculations

The whole numbers of the shell: 64 bits with a sign, the operators of its calculations in their order,
and names whose values are looked up. Assignments are results: a calculation gives its value and the
names it has set. -/

namespace DebugHost.Shell.Arithmetic

/-- How many numbers 64 bits hold: two to the 64th. -/
def wordCount : Nat := 18446744073709551616

/-- Wraps a number into 64 bits with a sign. -/
def wrap (n : Int) : Int := n.bmod wordCount

/-- The numbers with a sign of 64 bits. -/
def range : Text.Integer.Range := .int64

/-- Why a calculation fails. -/
inductive Fault where
  /-- There is no operand where one should be. -/
  | noOperand
  /-- Something stands behind the calculation. -/
  | noEnd
  | noBracket
  | noColon
  | divisionByZero
  /-- The value of a name is no number. -/
  | notNumber (value : String)
deriving DecidableEq, Repr

/-- A calculation as it is read. A text that is none is read up to its fault: what stands in front of
the fault is worked out, and may fail before it. -/
inductive Term where
  | number (n : Int)
  | name (s : String)
  | unary (op : String) (t : Term)
  | binary (op : String) (s t : Term)
  | conditional (test yes no : Term)
  /-- Sets a name, to the value of an operator on what it was if there is one. -/
  | assign (name : String) (op : String) (t : Term)
  /-- A fault of the text, behind what has been read. -/
  | broken (front : Option Term) (f : Fault)
deriving Repr, Inhabited

/-- The wording of a fault in the calculation `text`. -/
def Fault.message (text : String) : Fault → String
  | .noOperand => within "expecting primary"
  | .noEnd => within "expecting EOF"
  | .noBracket => within "expecting ')'"
  | .noColon => within "expecting ':'"
  | .divisionByZero => within "division by zero"
  | .notNumber value => "Illegal number: " ++ value
where
  within (what : String) : String := "arithmetic expression: " ++ what ++ ": \"" ++ text ++ "\""

/-! ### Reading -/

/-- The value of a number as it is written, with the prefixes for bases eight and sixteen. -/
def numeral (cs : List Char) : Int :=
  match cs with
  | '0' :: 'x' :: ds | '0' :: 'X' :: ds =>
    ds.foldl (fun n c => n * 16 + (if c.isDigit then c.toNat - 48 else c.toLower.toNat - 87)) 0
  | '0' :: ds => ds.foldl (fun n c => n * 8 + (c.toNat - 48)) 0
  | ds => ds.foldl (fun n c => n * 10 + (c.toNat - 48)) 0

/-- The number at the front of a text that starts with a digit. Its first characters tell the base, and
only digits of the base belong to it. -/
def takeNumeral (cs : List Char) : List Char :=
  match cs with
  | '0' :: x :: ds =>
    let hex := ds.takeWhile fun c => c.isDigit || ('a' ≤ c.toLower && c.toLower ≤ 'f')
    if (x = 'x' || x = 'X') && !hex.isEmpty then '0' :: x :: hex
    else '0' :: (x :: ds).takeWhile fun c => '0' ≤ c && c ≤ '7'
  | cs => cs.takeWhile Char.isDigit

/-- The operators of two operands by how strongly they bind, the weakest first. A longer operator
stands before its beginnings. -/
def levels : List (List String) :=
  [["||"], ["&&"], ["|"], ["^"], ["&"], ["==", "!="], ["<=", ">=", "<", ">"], ["<<", ">>"],
    ["+", "-"], ["*", "/", "%"]]

/-- A text without blanks in front. -/
def trim (cs : List Char) : List Char := cs.dropWhile (·.isWhitespace)

/-- The operator of a level at the front of a text. An operator that is the beginning of another one,
or of an assignment, does not count. -/
def operatorAhead (ops : List String) (cs : List Char) : Option (String × List Char) :=
  let cs := trim cs
  ops.findSome? fun op =>
    if op.toList.isPrefixOf cs then
      let rest := cs.drop op.length
      let blocked : Bool :=
        match op, rest.head? with
        | "|", some '|' | "&", some '&' | "<", some '<' | ">", some '>' => true
        | "==", _ | "!=", _ | "<=", _ | ">=", _ => false
        | "<<", some '=' | ">>", some '=' => true
        | _, some '=' => !(op ∈ ["||", "&&", "<", ">"])
        | _, _ => false
      if blocked then none else some (op, rest)
    else none

/-- The assignment operator at the front of a text: what stands before its equals sign. -/
def assignAhead (cs : List Char) : Option (String × List Char) :=
  let cs := trim cs
  ["<<=", ">>=", "+=", "-=", "*=", "/=", "%=", "&=", "|=", "^=", "="].findSome? fun op =>
    if op.toList.isPrefixOf cs then
      let rest := cs.drop op.length
      if op = "=" && rest.head? = some '=' then none
      else some (String.ofList (op.toList.dropLast), rest)
    else none

/-- What reading gives: a term and what follows it, or a term that is broken. -/
abbrev Outcome := Except Term (Term × List Char)

/-- A fault where nothing has been read. -/
def fault (f : Fault) : Outcome := .error (.broken none f)

/-- Puts a term into another one, broken or not. -/
def Outcome.within (o : Outcome) (put : Term → Term) : Outcome :=
  match o with
  | .ok (t, rest) => .ok (put t, rest)
  | .error t => .error (put t)

mutual

/-- Reads a calculation. -/
def term (fuel : Nat) (cs : List Char) : Outcome :=
  match fuel with
  | 0 => fault .noOperand
  | fuel + 1 =>
    let cs := trim cs
    let name := match cs with
      | c :: _ => if Reading.isNameStart c then cs.takeWhile Reading.isNamePart else []
      | [] => []
    match if name.isEmpty then none else assignAhead (cs.drop name.length) with
    | some (op, rest) => (term fuel rest).within (.assign (String.ofList name) op)
    | none => conditional fuel cs

/-- Reads a calculation that is no assignment. -/
def conditional (fuel : Nat) (cs : List Char) : Outcome :=
  match fuel with
  | 0 => fault .noOperand
  | fuel + 1 => do
    let (test, rest) ← binary fuel levels cs
    match trim rest with
    | '?' :: rest =>
      match term fuel rest with
      | .error yes => .error (.conditional test yes (.number 0))
      | .ok (yes, rest) =>
        match trim rest with
        | ':' :: rest => (conditional fuel rest).within (.conditional test yes)
        | _ => .error (.conditional test (.broken (some yes) .noColon) (.number 0))
    | _ => return (test, rest)

/-- Reads operands with operators of a level, or of stronger ones, between them. -/
def binary (fuel : Nat) (ls : List (List String)) (cs : List Char) : Outcome :=
  match fuel with
  | 0 => fault .noOperand
  | fuel + 1 =>
    match ls with
    | [] => unary fuel cs
    | ops :: stronger => do
      let (t, rest) ← binary fuel stronger cs
      binaryRest fuel ops stronger t rest

/-- Reads what follows the first operand of a level. -/
def binaryRest (fuel : Nat) (ops : List String) (stronger : List (List String)) (t : Term)
    (cs : List Char) : Outcome :=
  match fuel with
  | 0 => fault .noOperand
  | fuel + 1 =>
    match operatorAhead ops cs with
    | none => .ok (t, cs)
    | some (op, rest) => do
      let (t, rest) ← (binary fuel stronger rest).within (.binary op t)
      binaryRest fuel ops stronger t rest

/-- Reads an operand. -/
def unary (fuel : Nat) (cs : List Char) : Outcome :=
  match fuel with
  | 0 => fault .noOperand
  | fuel + 1 =>
    match trim cs with
    | '(' :: rest => do
      let (t, rest) ← term fuel rest
      match trim rest with
      | ')' :: rest => return (t, rest)
      | _ => .error (.broken (some t) .noBracket)
    | c :: rest =>
      if c ∈ ['-', '+', '!', '~'] then (unary fuel rest).within (.unary (String.ofList [c]))
      else if c.isDigit then
        let ds := takeNumeral (c :: rest)
        .ok (.number (min (numeral ds) range.greatest), (c :: rest).drop ds.length)
      else if Reading.isNameStart c then
        let name := (c :: rest).takeWhile Reading.isNamePart
        .ok (.name (String.ofList name), (c :: rest).drop name.length)
      else fault .noOperand
    | [] => fault .noOperand

end

/-- Reads a whole text as a calculation. -/
def read (s : String) : Term :=
  match term (16 * s.length + 32) s.toList with
  | .ok (t, rest) => if (trim rest).isEmpty then t else .broken (some t) .noEnd
  | .error t => t

/-! ### Values -/

/-- One for what holds. -/
def ofBool (b : Bool) : Int := if b then 1 else 0

/-- The value of an operator on two operands. -/
def apply (op : String) (a b : Int) : Except Fault Int :=
  match op with
  | "+" => .ok (wrap (a + b))
  | "-" => .ok (wrap (a - b))
  | "*" => .ok (wrap (a * b))
  | "/" => if b = 0 then .error .divisionByZero else .ok (wrap (a.tdiv b))
  | "%" => if b = 0 then .error .divisionByZero else .ok (wrap (a.tmod b))
  | "<<" => .ok (wrap (a * (Nat.pow 2 (b % 64).toNat : Nat)))
  | ">>" => .ok (a.fdiv (Nat.pow 2 (b % 64).toNat : Nat))
  | "<" => .ok (ofBool (a < b))
  | "<=" => .ok (ofBool (a ≤ b))
  | ">" => .ok (ofBool (b < a))
  | ">=" => .ok (ofBool (b ≤ a))
  | "==" => .ok (ofBool (a = b))
  | "!=" => .ok (ofBool (a ≠ b))
  | "&&" => .ok (ofBool (a ≠ 0 ∧ b ≠ 0))
  | "||" => .ok (ofBool (a ≠ 0 ∨ b ≠ 0))
  | "&" => .ok (bits (· &&& ·) a b)
  | "|" => .ok (bits (· ||| ·) a b)
  | "^" => .ok (bits (· ^^^ ·) a b)
  | _ => .error .noOperand
where
  bits (f : Nat → Nat → Nat) (a b : Int) : Int :=
    wrap (f (a % wordCount).toNat (b % wordCount).toNat)

/-- The value of a name. -/
def nameValue (lookup : String → Option String) (set : List (String × String)) (name : String) :
    Except Fault Int :=
  let text := (((set.find? (·.1 = name)).map (·.2)).or (lookup name)).getD ""
  let cs := trim text.toList
  let (negative, ds) : Bool × List Char := match cs with
    | '-' :: ds => (true, ds)
    | '+' :: ds => (false, ds)
    | ds => (false, ds)
  if cs.isEmpty then .ok 0
  else
    let number := takeNumeral ds
    if number.isEmpty || !(trim (ds.drop number.length)).isEmpty then .error (.notNumber text)
    else
      let n := if negative then -(numeral number) else numeral number
      if range.holds n then .ok n else .error (.notNumber text)

/-- The fault of the text in a term. -/
def Term.fault? : Term → Option Fault
  | .number _ | .name _ => none
  | .unary _ t | .assign _ _ t => t.fault?
  | .binary _ s t => s.fault?.or t.fault?
  | .conditional test yes no => (test.fault?.or yes.fault?).or no.fault?
  | .broken _ f => some f

/-- Goes over a term that does not count: only a fault of the text is found in it. -/
def skipTerm (t : Term) : Except Fault Unit :=
  match t.fault? with
  | some f => .error f
  | none => .ok ()

/-- The value of a calculation, and the names it sets. The second operand of `&&` and `||` counts only
where it decides. -/
def eval (lookup : String → Option String) :
    Term → List (String × String) → Except Fault (Int × List (String × String))
  | .number n, set => .ok (n, set)
  | .name s, set => (nameValue lookup set s).map (·, set)
  | .unary op t, set => do
    let (a, set) ← eval lookup t set
    match op with
    | "-" => return (wrap (-a), set)
    | "+" => return (a, set)
    | "!" => return (ofBool (a = 0), set)
    | _ => return (-a - 1, set)
  | .binary op s t, set => do
    let (a, set) ← eval lookup s set
    if (op = "&&" && a = 0) || (op = "||" && a ≠ 0) then
      skipTerm t
      return (ofBool (a ≠ 0), set)
    else
      let (b, set) ← eval lookup t set
      return (← apply op a b, set)
  | .conditional test yes no, set => do
    let (a, set) ← eval lookup test set
    if a ≠ 0 then
      let r ← eval lookup yes set
      skipTerm no
      return r
    else
      skipTerm yes
      eval lookup no set
  | .assign name op t, set => do
    let (b, set) ← eval lookup t set
    let value ← if op = "" then pure b else apply op (← nameValue lookup set name) b
    return (value, (name, toString value) :: set)
  | .broken front f, set =>
    match front with
    | some t => do
      let _ ← eval lookup t set
      .error f
    | none => .error f

end DebugHost.Shell.Arithmetic
