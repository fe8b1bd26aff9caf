import DebugHost.Message.Bodies
import DebugHost.Path

/-! # Breakpoints

The record of the breakpoints of a session by source file. The adapter replaces all breakpoints of a
file at once, so the record of a file is the set of lines that was asked for last together with the
adapter's answer. -/

namespace DebugHost

/-- Puts a line into a rising list of lines. -/
def insertLine (n : Int) : List Int → List Int
  | [] => [n]
  | m :: rest => if n < m then n :: m :: rest else if n = m then m :: rest else m :: insertLine n rest

/-- A set of lines: a list in strictly rising order. -/
structure Lines where
  /-- The lines in rising order. -/
  toList : List Int
deriving DecidableEq, Repr, Inhabited

namespace Lines

/-- The set of the given lines. -/
def ofList (ns : List Int) : Lines := ⟨ns.foldl (fun acc n => insertLine n acc) []⟩

/-- The set without lines. -/
def empty : Lines := ⟨[]⟩

/-- Whether there is no line. -/
def isEmpty (l : Lines) : Bool := l.toList.isEmpty

/-- The set with one line more. -/
def insert (l : Lines) (n : Int) : Lines := ⟨insertLine n l.toList⟩

end Lines

/-- The lines at which the adapter accepted a breakpoint. It answers in the order of the request and
may move a breakpoint, so a reported line wins over the requested one at its position. -/
def acceptedLines : List Int → List Breakpoint → List Int
  | _, [] => []
  | requested, b :: rest =>
    let later := acceptedLines (requested.drop 1) rest
    if b.verified then (b.line.or requested.head?).toList ++ later else later

/-- The set of lines at which the adapter accepted a breakpoint. -/
def verifiedLines (requested : Lines) (answer : List Breakpoint) : Lines :=
  .ofList (acceptedLines requested.toList answer)

/-- The breakpoints of a file. -/
structure FileBreakpoints where
  /-- The lines that were asked for. -/
  requested : Lines
  /-- The adapter's answer. -/
  answer : List Breakpoint
deriving DecidableEq, Repr

/-- The breakpoints of all files, by path. -/
structure BreakpointSet where
  /-- One entry for each file, in path order. -/
  entries : List (Path × FileBreakpoints) := []
deriving DecidableEq, Repr, Inhabited

namespace BreakpointSet

/-- Records the adapter's answer for a file and gives the verified lines. No lines clear the file. -/
def commit (s : BreakpointSet) (p : Path) (lines : Lines) (answer : List Breakpoint) :
    Lines × BreakpointSet :=
  (verifiedLines lines answer,
    if lines.isEmpty then ⟨Path.erase p s.entries⟩
    else ⟨Path.insert p ⟨lines, answer⟩ s.entries⟩)

/-- The lines that were asked for in a file. -/
def requested (s : BreakpointSet) (p : Path) : Option Lines :=
  (Path.find? p s.entries).map (·.requested)

/-- The verified lines of a file. -/
def verified (s : BreakpointSet) (p : Path) : Lines :=
  match Path.find? p s.entries with
  | none => .empty
  | some f => verifiedLines f.requested f.answer

/-- The files that have breakpoints, in path order. -/
def sources (s : BreakpointSet) : List Path := s.entries.map (·.1)

/-- Whether no file has breakpoints. -/
def isEmpty (s : BreakpointSet) : Bool := s.entries.isEmpty

end BreakpointSet

/-- The request that replaces all breakpoints of a file. -/
def setBreakpointsArguments (p : Path) (lines : Lines) : SetBreakpointsArguments :=
  ⟨⟨p.fileName?, some p.text⟩, lines.toList.map SourceBreakpoint.mk, false⟩

end DebugHost
