import DebugHost.Error
import DebugHost.Message.Bodies

/-! # Inspecting a paused program

Stack frames, scopes and variables of a paused program are asked for when they are needed and kept
until the state of the program changes: every change starts a new generation and drops all that is
kept. Handles to frames and groups of variables carry the generation they come from, so that none of
them can stand for something of a later pause.

What is kept for a question has a slot. Callers with the same question share the slot: one of them
asks, the others wait for it. A slot outlives the generation in which it was made as long as a caller
uses it, but nobody finds it any more. -/

namespace DebugHost.Inspection

/-- A handle to a stack frame. -/
structure FrameRef where
  generation : Generation
  id : Int
deriving DecidableEq, Repr

/-- A handle to a group of variables. -/
structure VarRef where
  generation : Generation
  raw : Int
deriving DecidableEq, Repr

/-- The handle to a group of variables; no number from zero down has a group. -/
def VarRef.of? (g : Generation) (raw : Int) : Option VarRef := if 0 < raw then some ⟨g, raw⟩ else none

/-- A stack frame. -/
structure Frame where
  ref : FrameRef
  name : String
  source : Option String
  line : Int
  column : Int
deriving DecidableEq, Repr

/-- A scope of a stack frame. -/
structure Scope where
  name : String
  values : Option VarRef
  expensive : Bool
deriving DecidableEq, Repr

/-- A variable. -/
structure Variable where
  name : String
  value : String
  type : Option String
  children : Option VarRef
deriving DecidableEq, Repr

/-- What is asked of the adapter. -/
inductive Key where
  | stack (thread : Int)
  | scopes (frame : Int)
  | values (reference : Int)
deriving DecidableEq, Repr

/-- What the adapter answers. -/
inductive Answer where
  | frames (fs : List StackFrame)
  | scopes (ss : List DebugHost.Scope)
  | values (vs : List DebugHost.Variable)
deriving DecidableEq, Repr

/-- What callers get. -/
inductive View where
  | frames (fs : List Frame)
  | scopes (ss : List Scope)
  | values (vs : List Variable)
deriving DecidableEq, Repr, Inhabited

/-- The view of an answer in a generation. -/
def View.of (g : Generation) : Answer → View
  | .frames fs => .frames (fs.map fun f =>
      ⟨⟨g, f.id⟩, f.name, f.source.bind (·.path), f.line, f.column⟩)
  | .scopes ss => .scopes (ss.map fun s => ⟨s.name, VarRef.of? g s.variablesReference, s.expensive⟩)
  | .values vs => .values (vs.map fun v =>
      ⟨v.name, v.value, v.type, VarRef.of? g v.variablesReference⟩)

/-- What a caller wants to see. -/
inductive Query where
  | stackTrace (thread : Int)
  | scopes (frame : FrameRef)
  | values (reference : VarRef)
deriving DecidableEq, Repr

/-- The question to the adapter behind a query. -/
def Query.key : Query → Key
  | .stackTrace thread => .stack thread
  | .scopes frame => .scopes frame.id
  | .values reference => .values reference.raw

/-- What is kept for a question: the view, once it is known, who may ask for it, and who waits, in
order. -/
structure Slot where
  value : Option View := none
  holder : Option Nat := none
  queue : List Nat := []
deriving DecidableEq, Repr, Inhabited

/-- What is kept of the paused program. -/
structure Tree where
  generation : Generation := .first
  paused : Bool := false
  closed : Bool := false
  /-- The slots of the generation at hand, by question. -/
  cache : List (Key × Nat) := []
  /-- All slots that were made, by number. -/
  slots : List Slot := []
deriving Inhabited

namespace Tree

/-- Starts a new generation and drops everything that is kept. -/
def advance (t : Tree) (paused : Bool) : Tree :=
  { t with generation := t.generation.next, paused := paused, cache := [] }

/-- From now on refuses every call. -/
def shut (t : Tree) : Tree := { t with closed := true }

/-- Drops everything for good. -/
def close (t : Tree) : Tree := (t.advance false).shut

/-- Refuses handles of other generations, and all of them once the tree is closed. -/
def checkCurrent (t : Tree) (g : Generation) : Except DebugError Unit :=
  if t.closed then .error .sessionTerminated
  else if g = t.generation then .ok ()
  else .error (.staleGeneration g t.generation)

/-- The generation in which a query may be answered. A stack can only be asked for while the program
is paused. -/
def allow (t : Tree) : Query → Except DebugError Generation
  | .stackTrace _ =>
    if t.closed then .error .sessionTerminated
    else if t.paused then .ok t.generation
    else .error .notPaused
  | .scopes frame => (t.checkCurrent frame.generation).map fun _ => frame.generation
  | .values reference => (t.checkCurrent reference.generation).map fun _ => reference.generation

/-- The slot of a question, made if there is none. -/
def slotFor (t : Tree) (k : Key) : Nat × Tree :=
  match t.cache.find? (·.1 == k) with
  | some (_, n) => (n, t)
  | none =>
    (t.slots.length, { t with cache := t.cache ++ [(k, t.slots.length)], slots := t.slots ++ [{}] })

/-- A slot by its number. -/
def slot (t : Tree) (n : Nat) : Slot := t.slots.getD n {}

/-- Changes a slot. -/
def setSlot (t : Tree) (n : Nat) (s : Slot) : Tree := { t with slots := t.slots.set n s }

end Tree
end DebugHost.Inspection
