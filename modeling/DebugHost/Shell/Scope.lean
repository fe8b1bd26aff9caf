import DebugHost.Shell.Operands
import DebugHost.Shell.Options

/-! # The scope of a shell

The variables of a shell, its arguments, and what its parameters stand for. -/

namespace DebugHost.Shell

/-- A variable. -/
structure Variable where
  name : String
  value : Option String
  isExported : Bool := false
  /-- Whether the variable cannot be set any more. -/
  isFixed : Bool := false
deriving Repr, DecidableEq

/-- What expansions look at. -/
structure Scope where
  bindings : List Variable := []
  /-- The name of the script. -/
  zero : String := "sh"
  args : List String := []
  status : Nat := 0
  process : Nat := 0
  /-- The process that was put into the background last. -/
  lastBackground : Option Nat := none
  /-- Letters of the options that are on. -/
  flags : List Char := []
  /-- Where the next option among the arguments is. -/
  optionPlace : OptionPlace := {}
deriving Inhabited

namespace Scope

/-- The value of a variable. -/
def lookup (s : Scope) (name : String) : Option String :=
  (s.bindings.find? (·.name = name)).bind (·.value)

/-- The variable that tells the place of the next option. -/
def optionIndex : String := "OPTIND"

/-- Sets a variable. The place of the next option changes with the variable that tells it. -/
def assign (s : Scope) (name value : String) : Scope :=
  let s := if name = optionIndex then
      { s with optionPlace := { next := max 1 (value.toNat?.getD 1) } }
    else s
  if s.bindings.any (·.name = name) then
    { s with bindings := s.bindings.map fun v =>
        if v.name = name then { v with value := some value } else v }
  else { s with bindings := s.bindings ++ [⟨name, some value, false, false⟩] }

/-- Whether a variable cannot be set any more. -/
def isFixed (s : Scope) (name : String) : Bool := s.bindings.any fun v => v.name = name && v.isFixed

/-- Keeps a variable from being set again. -/
def fixName (s : Scope) (name : String) : Scope :=
  if s.bindings.any (·.name = name) then
    { s with bindings := s.bindings.map fun v =>
        if v.name = name then { v with isFixed := true } else v }
  else { s with bindings := s.bindings ++ [⟨name, none, false, true⟩] }

/-- Puts a variable back as it was; `none` if it was not there. -/
def putBack (s : Scope) (name : String) (old : Option Variable) : Scope :=
  { s with bindings := s.bindings.filter (·.name ≠ name) ++ old.toList }

/-- Exports a variable. -/
def exportName (s : Scope) (name : String) : Scope :=
  if s.bindings.any (·.name = name) then
    { s with bindings := s.bindings.map fun v =>
        if v.name = name then { v with isExported := true } else v }
  else { s with bindings := s.bindings ++ [⟨name, none, true, false⟩] }

/-- Takes a variable away. -/
def unset (s : Scope) (name : String) : Scope :=
  { s with bindings := s.bindings.filter (·.name ≠ name) }

/-- The variables that programs are given. -/
def environment (s : Scope) : List (String × String) :=
  s.bindings.filterMap fun v => if v.isExported then v.value.map (v.name, ·) else none

/-- The value of a parameter that is no list. -/
def parameter (s : Scope) (name : String) : Option String :=
  match name with
  | "?" => some (toString s.status)
  | "#" => some (toString s.args.length)
  | "$" => some (toString s.process)
  | "!" => s.lastBackground.map toString
  | "-" => some (Options.letters s.flags)
  | "0" => some s.zero
  | _ =>
    match name.toNat? with
    | some n => s.args[n - 1]?
    | none => s.lookup name

/-- The directories in which programs are looked for. -/
def directories (s : Scope) : List String := ((s.lookup "PATH").map (·.splitOn ":")).getD []

/-- The characters at which fields are split. -/
def separators (s : Scope) : List Char := ((s.lookup "IFS").getD " \t\n").toList

end Scope

end DebugHost.Shell
