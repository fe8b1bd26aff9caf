import DebugHost.Json.Field

/-! # Messages

The three kinds of messages between the program and a debug adapter, and the form in which they are
written: an object with the kind first and then the parts in a fixed order. Free-form parts are kept
in canonical form. -/

namespace DebugHost

open DebugHost.Json

/-- A request: `arguments` is `null` when there are none. -/
structure Request where
  seq : Int
  command : String
  arguments : Value

/-- The answer to the request numbered `requestSeq`. -/
structure Response where
  seq : Int
  requestSeq : Int
  success : Bool
  command : String
  message : Option String
  body : Option Value

/-- Something that happened at the adapter. -/
structure Event where
  seq : Int
  event : String
  body : Option Value

/-- A message. -/
inductive Message where
  | request (r : Request)
  | response (r : Response)
  | event (e : Event)

instance : Inhabited Request := ⟨⟨0, "", .null⟩⟩
instance : Inhabited Response := ⟨⟨0, 0, false, "", none, none⟩⟩
instance : Inhabited Event := ⟨⟨0, "", none⟩⟩
instance : Inhabited Message := ⟨.event default⟩

namespace Message

/-- The number that the sender gave the message. -/
def seq : Message → Int
  | .request r => r.seq
  | .response r => r.seq
  | .event e => e.seq

/-- The kinds of messages. -/
inductive Kind where
  | request
  | response
  | event
deriving DecidableEq, Repr

/-- The kind of a message. -/
def kind : Message → Kind
  | .request _ => .request
  | .response _ => .response
  | .event _ => .event

/-- The word for a kind. -/
def Kind.name : Kind → String
  | .request => "request"
  | .response => "response"
  | .event => "event"

/-- The words for all kinds. -/
def Kind.names : List String := [Kind.request.name, Kind.response.name, Kind.event.name]

/-- The kind that a word stands for. -/
def Kind.ofName? (s : String) : Option Kind :=
  if s = Kind.request.name then some .request
  else if s = Kind.response.name then some .response
  else if s = Kind.event.name then some .event
  else none

end Message

/-- The members of a request: arguments that are `null` are left out. -/
def Request.members (r : Request) : List (String × Value) :=
  [("seq", .int r.seq), ("command", .str r.command)] ++
    match r.arguments with
    | .null => []
    | v => [("arguments", v)]

/-- The members of a response. -/
def Response.members (r : Response) : List (String × Value) :=
  [("seq", .int r.seq), ("request_seq", .int r.requestSeq), ("success", .bool r.success),
    ("command", .str r.command)] ++
    optionalMember "message" .str r.message ++ optionalMember "body" id r.body

/-- The members of an event. -/
def Event.members (e : Event) : List (String × Value) :=
  [("seq", .int e.seq), ("event", .str e.event)] ++ optionalMember "body" id e.body

namespace Message

/-- The parts of a message in the order in which they are written. -/
def members : Message → List (String × Value)
  | .request r => r.members
  | .response r => r.members
  | .event e => e.members

/-- The name of the member that tells the kind. -/
def tag : String := "type"

/-- A message as a value: its kind, then its parts. -/
def toValue (m : Message) : Value := .obj ((tag, .str m.kind.name) :: m.members)

end Message

/-- The successful answer to a request. -/
def Response.accepting (seq : Int) (answered : Request) (body : Option Value) : Response :=
  ⟨seq, answered.seq, true, answered.command, none, body⟩

/-- The answer that refuses a request. -/
def Response.refusing (seq : Int) (answered : Request) (text : String) : Response :=
  ⟨seq, answered.seq, false, answered.command, some text, none⟩

end DebugHost
