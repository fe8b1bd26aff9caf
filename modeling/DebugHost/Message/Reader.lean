import DebugHost.Json.Reader
import DebugHost.Message.Basic

/-! # Reading messages

A message is read by the member that tells its kind, which may stand anywhere in the object, or from
an array that starts with the kind. Faults of the text and of the kind are found while the text is
read and have a place; faults of the other parts are found afterwards and have none. -/

namespace DebugHost

open DebugHost.Json

/-- How a request is read. -/
def Request.record : Record Value Request :=
  Request.mk <$> .required "seq" Field.int64 <*> .required "command" Field.string <*>
    .defaulted "arguments" .null Field.any

/-- How a response is read. -/
def Response.record : Record Value Response :=
  Response.mk <$> .required "seq" Field.int64 <*> .required "request_seq" Field.int64 <*>
    .required "success" Field.bool <*> .required "command" Field.string <*>
    .defaulted "message" none (Field.nullable Field.string) <*>
    .defaulted "body" none (Field.nullable Field.any)

/-- How an event is read. -/
def Event.record : Record Value Event :=
  Event.mk <$> .required "seq" Field.int64 <*> .required "event" Field.string <*>
    .defaulted "body" none (Field.nullable Field.any)

namespace Message

/-- The parts of a message whose kind is known: by name, or in their order. -/
inductive Parts where
  | members (ms : List (String × Value))
  | items (vs : List Value)

/-- Reads a structure from the parts of a message. -/
def Parts.read {α : Type} (name : String) (r : Record Value α) : Parts → Except Mismatch α
  | .members ms => r.ofMembers false ms
  | .items vs => r.ofItems name (some (Record.elements r.names.length ++ " in sequence")) vs

/-- Reads a message of a known kind from its parts. -/
def ofParts : Kind → Parts → Except Mismatch Message
  | .request, p => (p.read "Request" Request.record).map .request
  | .response, p => (p.read "Response" Response.record).map .response
  | .event, p => (p.read "Event" Event.record).map .event

/-- What is expected where the kind stands. -/
def tagExpected : String := "variant identifier"

/-- What is expected where a message stands. -/
def expected : String := "internally tagged enum ProtocolMessage"

/-- The kind that a word stands for, or the mismatch. -/
def Kind.read (s : String) : Except Mismatch Kind :=
  match Kind.ofName? s with
  | some k => .ok k
  | none => .error (.unknownVariant s Kind.names)

/-! ### From values -/

/-- The kind that a value gives. -/
def kindOfValue : Value → Except Mismatch Kind
  | .str s => Kind.read s
  | v => v.mismatch tagExpected

/-- Takes the kind out of the members of an object. -/
def splitTag (kind : Option Kind) (acc : List (String × Value)) :
    List (String × Value) → Except Mismatch (Kind × List (String × Value))
  | [] =>
    match kind with
    | none => .error (.missingField tag)
    | some k => .ok (k, acc.reverse)
  | (n, v) :: rest =>
    if n = tag then
      if kind.isSome then .error (.duplicateField tag)
      else
        match kindOfValue v with
        | .error e => .error e
        | .ok k => splitTag (some k) acc rest
    else splitTag kind ((n, v) :: acc) rest

/-- Reads a message from a value. -/
def ofValue : Value → Except Mismatch Message
  | .obj ms => do
    let (k, rest) ← splitTag none [] ms
    ofParts k (.members rest)
  | .arr [] => .error (.missingField tag)
  | .arr (v :: rest) => do
    let k ← kindOfValue v
    ofParts k (.items rest)
  | v => v.mismatch expected

/-! ### From text -/

/-- Why a text is no message. -/
inductive ReadFault where
  /-- The text is no document; what is left of it behind the offending octet. -/
  | text (s : Stop)
  /-- The kind is faulty; what is left of the text there. -/
  | kind (m : Mismatch) (rest : List UInt8)
  /-- A part is faulty. -/
  | part (m : Mismatch)

/-- The wording of a fault in the message that is read from `bs`. -/
def ReadFault.message (bs : List UInt8) : ReadFault → String
  | .text s => s.fault.message ++ (Place.before bs s.rest).suffix
  | .kind m rest => m.message ++ (Place.before bs rest).suffix
  | .part m => m.message

/-- Reads the kind at the front of a text. -/
def readKind (bs : List UInt8) : Except ReadFault (Kind × List UInt8) :=
  match skipBlanks bs with
  | [] => .error (.text ⟨.endInValue, []⟩)
  | b :: rest =>
    if b = 91 then .error (.kind (.wrongType "sequence" tagExpected) (b :: rest))
    else if b = 123 then .error (.kind (.wrongType "map" tagExpected) (b :: rest))
    else
      match readScalar b rest with
      | .error s => .error (.text s)
      | .ok (v, rest) =>
        match kindOfValue v with
        | .ok k => .ok (k, rest)
        | .error m => .error (.kind m rest)

/-- Levels of arrays and objects that a part of a message may have. -/
def partDepth : Nat := maxDepth - 1

/-- Reads the members of a message up to the end of the object, the kind apart. -/
def readMessageMembers : Nat → Bool → Option Kind → List (String × Value) → List UInt8 →
    Except ReadFault ((Kind × List (String × Value)) × List UInt8)
  | 0, _, _, _, bs => .error (.text ⟨.endInObject, bs⟩)
  | fuel + 1, first, kind, acc, bs =>
    match nextName first bs with
    | .error s => .error (.text s)
    | .ok (none, rest) =>
      match kind with
      | none => .error (.kind (.missingField tag) (readClose 125 rest))
      | some k => .ok ((k, acc.reverse), readClose 125 rest)
    | .ok (some n, rest) =>
      if n = tag ∧ kind.isSome then .error (.kind (.duplicateField tag) (readClose 125 rest))
      else
        match readColon rest with
        | .error s => .error (.text s)
        | .ok rest =>
          if n = tag then
            match readKind rest with
            | .error e => .error e
            | .ok (k, rest) => readMessageMembers fuel false (some k) acc rest
          else
            match readValue partDepth rest with
            | .error s => .error (.text s)
            | .ok (v, rest) => readMessageMembers fuel false kind ((n, v) :: acc) rest

/-- Reads the items of a message that is written as an array, behind its opening bracket. -/
def readMessageItems (bs : List UInt8) :
    Except ReadFault ((Kind × List Value) × List UInt8) :=
  match nextItem true bs with
  | .error s => .error (.text s)
  | .ok (false, rest) => .error (.kind (.missingField tag) (readClose 93 rest))
  | .ok (true, rest) =>
    match readKind rest with
    | .error e => .error e
    | .ok (k, rest) =>
      match readItems (readValue partDepth) (rest.length + 1) false [] rest with
      | .error s => .error (.text s)
      | .ok (vs, rest) => .ok ((k, vs), rest)

/-- Reads the kind and the parts of a message. -/
def readParts (bs : List UInt8) : Except ReadFault ((Kind × Parts) × List UInt8) :=
  match skipBlanks bs with
  | [] => .error (.text ⟨.endInValue, []⟩)
  | b :: rest =>
    if b = 123 then
      (readMessageMembers (rest.length + 1) true none [] rest).map
        fun ((k, ms), r) => ((k, .members ms), r)
    else if b = 91 then
      (readMessageItems rest).map fun ((k, vs), r) => ((k, .items vs), r)
    else
      match readScalar b rest with
      | .error s => .error (.text s)
      | .ok (v, rest) => .error (.kind (.wrongType v.described expected) rest)

/-- Reads a message from a text that holds it and nothing else. -/
def read (bs : List UInt8) : Except ReadFault Message :=
  match readParts bs with
  | .error e => .error e
  | .ok ((k, p), rest) =>
    match ofParts k p with
    | .error m => .error (.part m)
    | .ok m =>
      match readEnd rest with
      | .error s => .error (.text s)
      | .ok () => .ok m

end Message
end DebugHost
