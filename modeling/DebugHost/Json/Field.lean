import DebugHost.Json.Printer
import DebugHost.Record
import DebugHost.Text.Integer
import DebugHost.Text.Quoted

/-! # Typed reading of JSON values

Readers of whole numbers, texts, truth values, lists and structures from values, each with the
mismatch that a value of another kind gives. -/

namespace DebugHost.Json

open DebugHost.Text

/-- A reader of an `α` from a value. -/
abbrev Field (α : Type) := Value → Except Mismatch α

/-- The description of a value in an error message. -/
def Value.described : Value → String
  | .null => "null"
  | .bool b => "boolean " ++ ticked (if b then "true" else "false")
  | .int n => "integer " ++ ticked (toString n)
  | .real x => "floating point " ++ ticked (String.ofList (realText x))
  | .str s => "string " ++ Quoted.quote s
  | .arr _ => "sequence"
  | .obj _ => "map"

/-- The mismatch of a value of another kind. -/
def Value.mismatch {α : Type} (v : Value) (expected : String) : Except Mismatch α :=
  .error (.wrongType v.described expected)

namespace Field

/-- A whole number of 64 bits with a sign. -/
def int64 : Field Int
  | .int n => if Integer.Range.int64.holds n then .ok n else .error (.outOfRange n "i64")
  | v => v.mismatch "i64"

/-- A text. -/
def string : Field String
  | .str s => .ok s
  | v => v.mismatch "a string"

/-- A truth value. -/
def bool : Field Bool
  | .bool b => .ok b
  | v => v.mismatch "a boolean"

/-- Any value, in canonical form. -/
def any : Field Value := fun v => .ok v.canonical

/-- A value that may be `null`. -/
def nullable {α : Type} (read : Field α) : Field (Option α)
  | .null => .ok none
  | v => (read v).map some

/-- The items of a list, up to the first that does not fit. -/
def all {α : Type} (read : Field α) : List Value → Except Mismatch (List α)
  | [] => .ok []
  | v :: rest =>
    match read v with
    | .error e => .error e
    | .ok a => (all read rest).map (a :: ·)

/-- A list. -/
def list {α : Type} (read : Field α) : Field (List α)
  | .arr items => all read items
  | v => v.mismatch "a sequence"

/-- A structure, given as an object, or as an array of its fields in their order. -/
def record {α : Type} (name : String) (r : Record Value α) : Field α
  | .obj members => r.ofMembers false members
  | .arr items => r.ofItems name (some "fewer elements in array") items
  | v => v.mismatch ("struct " ++ name)

end Field

/-- A structure that is read from and written to JSON values. -/
class Typed (α : Type) where
  /-- The name of the structure in error messages. -/
  name : String
  /-- How the structure is read. -/
  record : Record Value α
  /-- The members that the structure is written as. -/
  members : α → List (String × Value)

namespace Typed

/-- Reads a structure. -/
def read {α : Type} [Typed α] : Field α := Field.record (name α) record

/-- Writes a structure. -/
def write {α : Type} [Typed α] (a : α) : Value := .obj (members a)

end Typed

/-- A member that is left out when it is absent. -/
def optionalMember {α : Type} (name : String) (write : α → Value) : Option α → List (String × Value)
  | none => []
  | some a => [(name, write a)]

/-- A value that is `null` when it is absent. -/
def orNull {α : Type} (write : α → Value) : Option α → Value
  | none => .null
  | some a => write a

end DebugHost.Json
