import DebugHost.Text.Character
import DebugHost.Text.Utf8

/-! # The tail of the log

The last lines that were logged, up to a capacity, and the report that is made of them when the
program fails. -/

namespace DebugHost.Log

open DebugHost.Text

/-- The lines of a text that was logged: cut at line feeds, without carriage returns at their ends,
and without empty ones. -/
def textLines (s : String) : List String :=
  ((pieces '\n' s.toList).map fun l => String.ofList (dropEnd (· = '\r') l)).filter (· ≠ "")

/-- The last lines of the log. -/
structure Tail where
  /-- Most lines that are kept; zero counts as one. -/
  capacity : Nat
  /-- The lines, oldest first. -/
  lines : List String := []
deriving DecidableEq, Repr

namespace Tail

/-- A tail without lines. -/
def empty (capacity : Nat) : Tail := { capacity := max capacity 1 }

/-- Adds a line, in place of the oldest if the tail is full. -/
def push (t : Tail) (line : String) : Tail :=
  { t with lines := (if t.lines.length = t.capacity then t.lines.drop 1 else t.lines) ++ [line] }

/-- Adds the lines of a record, given by its octets. -/
def append (t : Tail) (octets : List UInt8) : Tail :=
  (textLines (Utf8.decodeLossy octets)).foldl push t

/-- The last `n` lines, oldest first. -/
def last (t : Tail) (n : Nat) : List String := t.lines.drop (t.lines.length - n)

/-- The report of the last `n` lines, unless there is none. -/
def report? (t : Tail) (n : Nat) : Option String :=
  match t.last n with
  | [] => none
  | lines =>
    some ("--- last " ++ toString lines.length ++ " log lines ---\n" ++
      String.join (lines.map (· ++ "\n")))

end Tail

/-! ### Records

A record is written in pieces, by a writer of its own. Its lines are added when it is complete. -/

/-- The writer of a record. -/
structure Writer where
  /-- What was written so far. -/
  octets : List UInt8 := []
deriving DecidableEq, Repr

namespace Writer

/-- Takes in a piece of the record. -/
def write (w : Writer) (piece : List UInt8) : Writer := ⟨w.octets ++ piece⟩

/-- Adds the record to a tail. A record of which nothing was written has no lines. -/
def finish (w : Writer) (t : Tail) : Tail := if w.octets.isEmpty then t else t.append w.octets

end Writer
end DebugHost.Log
