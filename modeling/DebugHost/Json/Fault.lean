/-! # Faults in a JSON text

What can be wrong with the octets of a document, where it was found, and the wording. -/

namespace DebugHost.Json

/-- What is wrong with a text. -/
inductive Fault where
  | endInValue
  | endInObject
  | endInList
  | endInString
  | expectedValue
  | expectedIdent
  | expectedColon
  | expectedCommaOrBrace
  | expectedCommaOrBracket
  | trailingComma
  | trailingCharacters
  | keyNotString
  | invalidNumber
  | numberOutOfRange
  | invalidEscape
  | endOfHexEscape
  | loneSurrogate
  | invalidCodePoint
  | controlCharacter
  | tooDeep
deriving DecidableEq, Repr

/-- The wording of a fault. -/
def Fault.message : Fault → String
  | .endInValue => "EOF while parsing a value"
  | .endInObject => "EOF while parsing an object"
  | .endInList => "EOF while parsing a list"
  | .endInString => "EOF while parsing a string"
  | .expectedValue => "expected value"
  | .expectedIdent => "expected ident"
  | .expectedColon => "expected `:`"
  | .expectedCommaOrBrace => "expected `,` or `\x7d`"
  | .expectedCommaOrBracket => "expected `,` or `]`"
  | .trailingComma => "trailing comma"
  | .trailingCharacters => "trailing characters"
  | .keyNotString => "key must be a string"
  | .invalidNumber => "invalid number"
  | .numberOutOfRange => "number out of range"
  | .invalidEscape => "invalid escape"
  | .endOfHexEscape => "unexpected end of hex escape"
  | .loneSurrogate => "lone leading surrogate in hex escape"
  | .invalidCodePoint => "invalid unicode code point"
  | .controlCharacter => "control character (\\u0000-\\u001F) found while parsing a string"
  | .tooDeep => "recursion limit exceeded"

/-- A place in a text: line and column. -/
structure Place where
  /-- Number of the line, from one. -/
  line : Nat
  /-- Number of octets of the line that were read, the offending one included. -/
  column : Nat
deriving DecidableEq, Repr

/-- The place behind the octets `read`. -/
def Place.after (read : List UInt8) : Place :=
  ⟨1 + read.count 10, (read.reverse.takeWhile (· != 10)).length⟩

/-- The place where `rest` is what is left of `text`. -/
def Place.before (text rest : List UInt8) : Place :=
  .after (text.take (text.length - rest.length))

/-- The wording of a place, to be put behind a message. -/
def Place.suffix (p : Place) : String :=
  " at line " ++ toString p.line ++ " column " ++ toString p.column

/-- A reader that stopped: the fault, and what was left of the text behind the offending octet. -/
structure Stop where
  /-- What is wrong. -/
  fault : Fault
  /-- What had not been read. -/
  rest : List UInt8
deriving DecidableEq, Repr

/-- The outcome of reading an `α` from the front of a text: the value and what is left, or where the
reader stopped. -/
abbrev Reading (α : Type) := Except Stop (α × List UInt8)

/-- Stops at the next octet, which is the offending one if there is one. -/
def Stop.peek (fault : Fault) (bs : List UInt8) : Stop := ⟨fault, bs.drop 1⟩

end DebugHost.Json
