import DebugHost.Log.Record
import DebugHost.Log.Tail

/-! # Failures of the program itself

What is logged and printed when a task of the program fails in a way that it was not made for. -/

namespace DebugHost.Log

open DebugHost.Text

/-- A character of a message that is not the program's own. Those that steer terminals are spelled. -/
def harmless (c : Char) : String :=
  if c.toNat ∈ [0x07, 0x08, 0x0c, 0x1b, 0x7f] then
    "\\x" ++ (if c.toNat < 16 then "0" else "") ++ Quoted.hex c.toNat
  else if 0x80 ≤ c.toNat ∧ c.toNat ≤ 0x9f then "\\u\x7b" ++ Quoted.hex c.toNat ++ "\x7d"
  else String.singleton c

/-- The record of a failure: its message, and where it happened. -/
def failureRecord (message location : String) : Record :=
  ⟨.error, "pyra.panic", "panic captured " ++ String.join (message.toList.map harmless),
    [("location", .shown location)]⟩

/-- The message of a failure that brings none. -/
def noMessage : String := "<non-string panic payload>"

/-- Number of lines of the log that are shown after a failure. -/
def failureLines : Nat := 50

end DebugHost.Log
