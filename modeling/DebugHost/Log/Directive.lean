import DebugHost.Decimal
import DebugHost.Log.Record
import DebugHost.Text.Character
import DebugHost.Text.Integer
import DebugHost.Text.Regular

/-! # Directives

A directive of a filter sets the level up to which records are logged: for all of the program, for a
part of it, for records that have a field, or for what happens within a span of a name or with a field
of a value. `Directive.parse?` reads one and `Directive.text` writes it. -/

namespace DebugHost.Log

open DebugHost.Text DebugHost.Decimal

/-! ### Thresholds -/

/-- A level up to which records are logged, or that none is. -/
inductive Threshold where
  | off
  | upTo (l : Level)
deriving DecidableEq, Repr

/-- The word for a threshold. -/
def Threshold.text : Threshold → String
  | .off => "off"
  | .upTo .error => "error"
  | .upTo .warn => "warn"
  | .upTo .info => "info"
  | .upTo .debug => "debug"
  | .upTo .trace => "trace"

/-- All thresholds, the strictest first. Their places are the numbers that stand for them. -/
def Threshold.all : List Threshold :=
  [.off, .upTo .error, .upTo .warn, .upTo .info, .upTo .debug, .upTo .trace]

/-- Whether a threshold lets a level through. -/
def Threshold.allows (t : Threshold) (level : Level) : Bool :=
  match t with
  | .off => false
  | .upTo l => level.rank ≤ l.rank

/-- A basic Latin letter in lower case. -/
def lowerLetter (c : Char) : Char := if 'A' ≤ c ∧ c ≤ 'Z' then Char.ofNat (c.toNat + 32) else c

/-- A text with its basic Latin letters in lower case. -/
def lowerText (s : String) : String := String.ofList (s.toList.map lowerLetter)

/-- The threshold that a number or a word in any case stands for; no word stands for errors alone. -/
def Threshold.parse? (s : String) : Option Threshold :=
  match Integer.parse .word64 s with
  | .ok n => Threshold.all[n.toNat]?
  | .error _ =>
    if s = "" then some (.upTo .error) else Threshold.all.find? (·.text = lowerText s)

/-! ### Fields -/

/-- What the value of a field has to be. -/
inductive FieldValue where
  | truth (b : Bool)
  | int (n : Int)
  | real (x : Binary64)
  /-- A text of the form of a regular expression. -/
  | pattern (s : String)
deriving DecidableEq, Repr

/-- Reads what a value has to be: the first of the kinds that fits. -/
def FieldValue.parse? (s : String) : Option FieldValue :=
  if s = "true" then some (.truth true)
  else if s = "false" then some (.truth false)
  else
    match Integer.parse .word64 s, Integer.parse .int64 s, Binary64.parse? s with
    | .ok n, _, _ => some (.int n)
    | _, .ok n, _ => some (.int n)
    | _, _, some x => some (.real x)
    | _, _, none => if Regular.isExpression s then some (.pattern s) else none

/-- The text of what a value has to be. -/
def FieldValue.text : FieldValue → String
  | .truth b => if b then "true" else "false"
  | .int n => toString n
  | .real x => x.plain
  | .pattern s => s

/-- A field that has to be there, with a value if one is asked for. -/
structure Field where
  name : String
  value : Option FieldValue
deriving DecidableEq, Repr

/-- Reads a field: its name, and its value behind an equals sign. What stands behind a second equals
sign is left out. -/
def Field.parse? (cs : List Char) : Option Field :=
  match pieces '=' cs with
  | name :: value :: _ => do
    return ⟨String.ofList name, some (← FieldValue.parse? (String.ofList value))⟩
  | _ => some ⟨String.ofList cs, none⟩

/-- The text of a field. -/
def Field.text (f : Field) : String :=
  match f.value with
  | some v => f.name ++ "=" ++ v.text
  | none => f.name

/-! ### Directives -/

/-- What is logged of a part of the program, or of all of it. -/
structure Directive where
  /-- How the name of the part begins. -/
  target : Option String
  /-- The name of the span in which it holds. -/
  span : Option String
  /-- The field that has to be there. -/
  field : Option Field
  threshold : Threshold
deriving DecidableEq, Repr

namespace Directive

/-- The text of a directive. -/
def text (d : Directive) : String :=
  let field := d.field.map fun f => "\x7b" ++ f.text ++ "\x7d"
  let scope := if d.span.isNone && field.isNone then ""
    else "[" ++ d.span.getD "" ++ field.getD "" ++ "]"
  if d.target.isNone && scope = "" then d.threshold.text
  else d.target.getD "" ++ scope ++ "=" ++ d.threshold.text

/-- Whether a directive is one for spans. -/
def isForSpans (d : Directive) : Bool := d.span.isSome || d.field.isSome

/-- Whether a directive is one for records by themselves: it names no span, and asks for no value. -/
def isForRecords (d : Directive) : Bool :=
  d.span.isNone && (d.field.bind Field.value).isNone

/-- Whether two directives are for the same thing. -/
def concernsSame (a b : Directive) : Bool :=
  a.target = b.target && a.span = b.span && a.field = b.field

/-- Whether a directive may begin with a character. -/
def mayBegin (c : Char) : Bool := c = '-' || c = ':' || c = '_' || Letter.isLetterOrDigit c

/-- The characters of a text from one place on up to another one. -/
def slice (cs : List Char) (first last : Nat) : List Char := (cs.drop first).take (last - first)

/-- Reads what stands behind the name and the span: a threshold behind an equals sign, or nothing, of
which everything is logged then. -/
def threshold? (whole core : List Char) (place : Nat) : Option Threshold :=
  match core.drop place with
  | [] => some (.upTo .trace)
  | '=' :: _ =>
    match whole.drop (place + 1) with
    | [] => some (.upTo .trace)
    | level => Threshold.parse? (String.ofList level)
  | _ => none

/-- Reads a span and a field, both of which may be left out, in brackets that begin in front of a place.
Gives the place behind the brackets, too. -/
def scope? (whole core : List Char) (place : Nat) : Option (Option String × Option Field × Nat) := do
  let name := (core.drop place).takeWhile fun c => c != ']' && c != '\x7b'
  let mark := place + name.length
  let span := String.ofList (slice whole place mark)
  match core.drop mark with
  | ']' :: _ => some (some span, none, mark + 1)
  | '\x7b' :: cs =>
    let width := (cs.takeWhile (· != '\x7d')).length
    match width, cs.drop width with
    | 0, _ => none
    | _, '\x7d' :: ']' :: _ => do
      let field ← Field.parse? (slice whole (mark + 1) (mark + 1 + width))
      some (if name = [] then none else some span, some field, mark + 3 + width)
    | _, _ => none
  | _ => none

/-- Reads a directive. Blanks around it are no part of it where its marks are looked for, but they are
where it is cut into parts. -/
def parse? (s : String) : Option Directive := do
  let whole := s.toList
  let core := (trimBlanks s).toList
  match core with
  | [] => none
  | '[' :: _ =>
    let (span, field, place) ← scope? whole core 1
    return ⟨none, span, field, ← threshold? whole core place⟩
  | c :: _ =>
    if !mayBegin c then none
    else
      let place := (core.takeWhile fun c => c != '=' && c != '[').length
      let target := some (String.ofList (slice whole 0 place))
      match core.drop place with
      | [] =>
        match Threshold.parse? s with
        | some t => return ⟨none, none, none, t⟩
        | none => return ⟨some s, none, none, .upTo .trace⟩
      | '[' :: _ =>
        let (span, field, place) ← scope? whole core (place + 1)
        return ⟨target, span, field, ← threshold? whole core place⟩
      | _ => return ⟨target, none, none, ← threshold? whole core place⟩

/-- Whether a directive concerns a record. -/
def concerns (d : Directive) (r : Record) : Bool :=
  (d.target.map fun t => t.toList.isPrefixOf r.target.toList).getD true &&
    (d.field.map fun f => f.name = "message" || r.fields.any (·.1 = f.name)).getD true

/-- Whether a directive for records counts before another one: the one for the longer name does, then
the one that asks for a field, then the one whose field has the later name. -/
def precedes (a b : Directive) : Bool :=
  let size (d : Directive) := (d.target.map fun t => t.utf8ByteSize + 1).getD 0
  size b < size a || size a = size b &&
    match a.field, b.field with
    | some f, some g => g.name < f.name
    | f, g => f.isSome && g.isNone

end Directive
end DebugHost.Log
