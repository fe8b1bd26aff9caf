import DebugHost.Message.Reader
import DebugHost.Redaction
import DebugHost.Text.Character

/-! # Frames

A message on the wire: header lines, an empty line, and as many octets of body as the header
`Content-Length` says. This module writes frames, reads single header lines and bodies, and words
what can be wrong with them. -/

namespace DebugHost.Frame

open DebugHost.Json DebugHost.Text

/-- Most octets that a body may have. -/
def maxBody : Nat := 16 * 1024 * 1024

/-- Most octets that a header line may have, its end included. -/
def maxLine : Nat := 8 * 1024

/-- What can be wrong with a stream of frames. -/
inductive Fault where
  /-- The stream ends within a header. -/
  | endInHeader
  /-- The stream ends within a body. -/
  | endInBody
  /-- A header line is too long. -/
  | lineTooLong
  /-- A header line is no text. -/
  | lineNotText
  /-- A header line of so many octets has no colon. -/
  | lineMalformed (octets : Nat)
  /-- The length of the body is no number. -/
  | lengthInvalid (value : String) (fault : Integer.Fault)
  /-- The length of the body is above `maxBody`. -/
  | lengthTooLarge (length : Nat)
  /-- The header does not tell the length of the body. -/
  | lengthMissing
  /-- The body is no message; the reason with what was sent redacted. -/
  | body (reason : String)
deriving DecidableEq, Repr

/-- Whether the stream itself failed, and not what it carries. -/
def Fault.isStream : Fault → Bool
  | .endInHeader => true
  | .endInBody => true
  | _ => false

/-- The wording of a fault by itself. -/
def Fault.detail : Fault → String
  | .endInHeader => "EOF while reading DAP headers"
  | .endInBody => "early eof"
  | .lineTooLong => "DAP header line exceeds maximum size (" ++ toString maxLine ++ " bytes)"
  | .lineNotText => "DAP header line is not UTF-8"
  | .lineMalformed n => "malformed DAP header line (" ++ toString n ++ " bytes)"
  | .lengthInvalid value f =>
    "invalid Content-Length " ++ Quoted.quote value ++ ": " ++ f.message
  | .lengthTooLarge n =>
    "DAP message Content-Length " ++ toString n ++ " exceeds maximum allowed size " ++
      toString maxBody
  | .lengthMissing => "DAP message missing Content-Length header"
  | .body reason => "invalid DAP message: " ++ reason

/-- The wording of a fault with its class in front. -/
def Fault.message (f : Fault) : String :=
  if f.isStream then "io error: " ++ f.detail else "dap protocol error: " ++ f.detail

/-! ### Writing -/

/-- The octets of the body of a message. -/
def body (m : Message) : List UInt8 := Utf8.encode (Json.text m.toValue)

/-- The octets of the header in front of a body of `length` octets. -/
def header (length : Nat) : List UInt8 :=
  Utf8.encode ("Content-Length: " ++ toString length ++ "\r\n\r\n")

/-- The octets of a body with its header. -/
def ofBody (body : List UInt8) : List UInt8 := header body.length ++ body

/-- The octets of a message. -/
def encode (m : Message) : List UInt8 := ofBody (body m)

/-! ### Reading -/

/-- The message of a body. -/
def decodeBody (bs : List UInt8) : Except Fault Message :=
  (Message.read bs).mapError fun e => .body (Redaction.redact (e.message bs))

/-- A letter in lower case, if it is a basic Latin one. -/
def lower (c : Char) : Char := if 'A' ≤ c ∧ c ≤ 'Z' then Char.ofNat (c.toNat + 32) else c

/-- Whether two texts are equal up to the case of basic Latin letters. -/
def sameLetters (a b : String) : Bool := a.toList.map lower = b.toList.map lower

/-- What a header line without its end says: the length of the body, or nothing that matters. -/
def headerLine (line : String) : Except Fault (Option Nat) :=
  match Redaction.cut ':' line.toList with
  | none => .error (.lineMalformed line.utf8ByteSize)
  | some (name, value) =>
    if sameLetters (trimBlanks (String.ofList name)) "Content-Length" then
      let value := trimBlanks (String.ofList value)
      match Integer.parse .word64 value with
      | .error f => .error (.lengthInvalid value f)
      | .ok n => if maxBody < n.toNat then .error (.lengthTooLarge n.toNat) else .ok (some n.toNat)
    else .ok none

/-- A header line from its octets, without its end. -/
def lineText (octets : List UInt8) : Except Fault String :=
  match Utf8.decode? octets with
  | .error _ => .error .lineNotText
  | .ok s => .ok (trimEndBy (fun c => c = '\r' ∨ c = '\n') s)

end DebugHost.Frame
