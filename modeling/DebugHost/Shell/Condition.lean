import DebugHost.FileSystem
import DebugHost.Text.Integer

/-! # Conditions

The conditions of `test`: on texts, on numbers and on files, joined by `-a`, `-o`, `!` and brackets. -/

namespace DebugHost.Shell.Condition

/-- Why a condition cannot be decided. -/
inductive Fault where
  | notNumber (s : String)
  /-- The text `s` is the last that makes sense. -/
  | unexpected (s : String)
  /-- An operator has no second text. -/
  | missing (op : String)
  | unclosed
deriving DecidableEq, Repr

/-- The wording of a fault. -/
def Fault.message : Fault → String
  | .notNumber s => "Illegal number: " ++ s
  | .unexpected "" => "unexpected operator"
  | .unexpected s => s ++ ": unexpected operator"
  | .missing op => op ++ ": argument expected"
  | .unclosed => "closing paren expected"

/-- The number that a text is. -/
def numberOf (s : String) : Except Fault Int :=
  let cs := s.toList.dropWhile Char.isWhitespace
  let cs := (cs.reverse.dropWhile Char.isWhitespace).reverse
  let (negative, ds) := match cs with
    | '-' :: r => (true, r)
    | '+' :: r => (false, r)
    | r => (false, r)
  if ds.isEmpty || !ds.all Char.isDigit then .error (.notNumber s)
  else
    let n : Int := (String.ofList ds).toNat?.getD 0
    let n := if negative then -n else n
    if Text.Integer.Range.int64.holds n then .ok n else .error (.notNumber s)

/-- The conditions on one text. -/
def unary (fs : FileSystem) (cwd : List String) (op s : String) : Option Bool :=
  let path : Path := ⟨s⟩
  let isNull := FileSystem.trail cwd path = FileSystem.nullDevice
  match op with
  | "-n" => some (s ≠ "")
  | "-z" => some (s = "")
  | "-e" => some (fs.isThere cwd path)
  | "-f" => some (fs.isFile cwd path && !isNull)
  | "-c" => some isNull
  | "-d" => some (fs.isDirectory cwd path)
  | "-r" | "-w" => some (fs.isThere cwd path)
  | "-x" =>
    match fs.lookup cwd path with
    | .ok (.file _ x) => some x
    | .ok .directory => some true
    | .error _ => some false
  | "-s" =>
    match fs.lookup cwd path with
    | .ok (.file octets _) => some (!octets.isEmpty)
    | .ok .directory => some true
    | .error _ => some false
  | "-L" | "-h" | "-p" | "-S" | "-b" | "-t" | "-u" | "-g" | "-k" => some false
  | _ => none

/-- The conditions on two texts. -/
def binary (a op b : String) : Option (Except Fault Bool) :=
  let numbers (f : Int → Int → Bool) : Except Fault Bool := do
    return f (← numberOf a) (← numberOf b)
  match op with
  | "=" | "==" => some (.ok (a = b))
  | "!=" => some (.ok (a ≠ b))
  | "<" => some (.ok (decide (a < b)))
  | ">" => some (.ok (decide (b < a)))
  | "-eq" => some (numbers (· = ·))
  | "-ne" => some (numbers (· ≠ ·))
  | "-lt" => some (numbers (· < ·))
  | "-le" => some (numbers (· ≤ ·))
  | "-gt" => some (numbers (· > ·))
  | "-ge" => some (numbers (· ≥ ·))
  | _ => none

mutual

/-- Reads and decides conditions with `-o` between them. -/
def any (fs : FileSystem) (cwd : List String) (fuel : Nat) (args : List String) :
    Except Fault (Bool × List String) := do
  match fuel with
  | 0 => .error .unclosed
  | fuel + 1 =>
    let (a, rest) ← all fs cwd fuel args
    match rest with
    | "-o" :: rest =>
      let (b, rest) ← any fs cwd fuel rest
      return (a || b, rest)
    | _ => return (a, rest)

/-- Reads and decides conditions with `-a` between them. -/
def all (fs : FileSystem) (cwd : List String) (fuel : Nat) (args : List String) :
    Except Fault (Bool × List String) := do
  match fuel with
  | 0 => .error .unclosed
  | fuel + 1 =>
    let (a, rest) ← single fs cwd fuel args
    match rest with
    | "-a" :: rest =>
      let (b, rest) ← all fs cwd fuel rest
      return (a && b, rest)
    | _ => return (a, rest)

/-- Reads and decides a single condition. -/
def single (fs : FileSystem) (cwd : List String) (fuel : Nat) (args : List String) :
    Except Fault (Bool × List String) := do
  match fuel with
  | 0 => .error .unclosed
  | fuel + 1 =>
    match args with
    | a :: op :: b :: rest =>
      match binary a op b with
      | some r => return (← r, rest)
      | none => plain fuel args
    | [a, op] => if (binary a op "").isSome then .error (.missing op) else plain fuel args
    | _ => plain fuel args
where
  plain (fuel : Nat) (args : List String) : Except Fault (Bool × List String) := do
    match args with
    | [] => return (false, [])
    | [a] => return (a ≠ "", [])
    | "!" :: rest =>
      let (a, rest) ← single fs cwd fuel rest
      return (!a, rest)
    | "(" :: rest =>
      let (a, rest) ← any fs cwd fuel rest
      match rest with
      | ")" :: rest => return (a, rest)
      | _ => .error .unclosed
    | op :: a :: rest =>
      match unary fs cwd op a with
      | some b => return (b, rest)
      | none => return (op ≠ "", a :: rest)

end

/-- Decides the condition that arguments state. -/
def holds (fs : FileSystem) (cwd : List String) (args : List String) : Except Fault Bool :=
  match args with
  | [] => .ok false
  | [a] => .ok (a ≠ "")
  | _ => do
    let (b, rest) ← any fs cwd (4 * args.length + 8) args
    match rest with
    | [] => return b
    | _ :: _ => .error (.unexpected ((args[args.length - rest.length - 1]?).getD ""))

end DebugHost.Shell.Condition
