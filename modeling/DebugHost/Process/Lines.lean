import DebugHost.Text.Utf8

/-! # Lines of a stream

Octets arrive in chunks that may end anywhere, also within a character. A line buffer holds the
octets behind the last line feed and gives out every line as it is completed, without its end. -/

namespace DebugHost

open DebugHost.Text

/-- The octets of a line that is not complete. -/
structure LineBuffer where
  /-- The octets since the last line feed. -/
  pending : List UInt8 := []
deriving DecidableEq, Repr, Inhabited

namespace LineBuffer

/-- Cuts octets at every line feed: the complete parts, and what stands behind the last one. -/
def split : List UInt8 → List (List UInt8) × List UInt8
  | [] => ([], [])
  | b :: bs =>
    let (lines, rest) := split bs
    if b = 10 then ([] :: lines, rest)
    else
      match lines with
      | [] => ([], b :: rest)
      | l :: ls => ((b :: l) :: ls, rest)

/-- Drops one carriage return from the end. -/
def dropReturn (line : List UInt8) : List UInt8 :=
  if line.getLast? = some 13 then line.dropLast else line

/-- The text of a line: without one carriage return at its end, faulty octets replaced. -/
def lineText (line : List UInt8) : String := Utf8.decodeLossy (dropReturn line)

/-- Adds a chunk and gives the lines that it completes. -/
def push (b : LineBuffer) (chunk : List UInt8) : List String × LineBuffer :=
  let (lines, rest) := split (b.pending ++ chunk)
  (lines.map lineText, ⟨rest⟩)

/-- Gives out what is pending, at the end of the stream. -/
def finish (b : LineBuffer) : Option String × LineBuffer :=
  if b.pending.isEmpty then (none, b) else (some (lineText b.pending), ⟨[]⟩)

/-- Number of pending octets. -/
def pendingLength (b : LineBuffer) : Nat := b.pending.length

end LineBuffer
end DebugHost
