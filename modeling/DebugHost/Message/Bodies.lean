import DebugHost.Message.Arguments

/-! # Bodies of responses and events

What the adapter sends, as structures. Everything that an adapter may leave out has a default, and a
body that is not there at all stands for the default of the whole structure. -/

namespace DebugHost

open DebugHost.Json

/-- What the adapter did with a breakpoint. -/
structure Breakpoint where
  id : Option Int
  verified : Bool
  line : Option Int
  message : Option String
deriving DecidableEq, Repr

instance : Typed Breakpoint where
  name := "Breakpoint"
  record := Breakpoint.mk <$> .defaulted "id" none (Field.nullable Field.int64) <*>
    .required "verified" Field.bool <*> .defaulted "line" none (Field.nullable Field.int64) <*>
    .defaulted "message" none (Field.nullable Field.string)
  members b := optionalMember "id" .int b.id ++ [("verified", .bool b.verified)] ++
    optionalMember "line" .int b.line ++ optionalMember "message" .str b.message

/-- The answer to setting the breakpoints of a file. -/
structure SetBreakpointsBody where
  breakpoints : List Breakpoint := []
deriving DecidableEq, Repr, Inhabited

instance : Typed SetBreakpointsBody where
  name := "SetBreakpointsResponseBody"
  record := SetBreakpointsBody.mk <$> .defaulted "breakpoints" [] (Field.list Typed.read)
  members b := [("breakpoints", .arr (b.breakpoints.map Typed.write))]

/-- A frame of a stack. -/
structure StackFrame where
  id : Int
  name : String
  source : Option Source
  line : Int
  column : Int
deriving DecidableEq, Repr

instance : Typed StackFrame where
  name := "StackFrame"
  record := StackFrame.mk <$> .required "id" Field.int64 <*> .required "name" Field.string <*>
    .defaulted "source" none (Field.nullable Typed.read) <*> .required "line" Field.int64 <*>
    .defaulted "column" 0 Field.int64
  members f := [("id", .int f.id), ("name", .str f.name), ("source", orNull Typed.write f.source),
    ("line", .int f.line), ("column", .int f.column)]

/-- A stack. -/
structure StackTraceBody where
  stackFrames : List StackFrame := []
  totalFrames : Option Int := none
deriving DecidableEq, Repr, Inhabited

instance : Typed StackTraceBody where
  name := "StackTraceResponseBody"
  record := StackTraceBody.mk <$> .defaulted "stackFrames" [] (Field.list Typed.read) <*>
    .defaulted "totalFrames" none (Field.nullable Field.int64)
  members b := [("stackFrames", .arr (b.stackFrames.map Typed.write))] ++
    optionalMember "totalFrames" .int b.totalFrames

/-- A group of variables of a frame. -/
structure Scope where
  name : String
  variablesReference : Int
  expensive : Bool
deriving DecidableEq, Repr

instance : Typed Scope where
  name := "Scope"
  record := Scope.mk <$> .required "name" Field.string <*>
    .defaulted "variablesReference" 0 Field.int64 <*> .defaulted "expensive" false Field.bool
  members s := [("name", .str s.name), ("variablesReference", .int s.variablesReference),
    ("expensive", .bool s.expensive)]

/-- The scopes of a frame. -/
structure ScopesBody where
  scopes : List Scope := []
deriving DecidableEq, Repr, Inhabited

instance : Typed ScopesBody where
  name := "ScopesResponseBody"
  record := ScopesBody.mk <$> .defaulted "scopes" [] (Field.list Typed.read)
  members b := [("scopes", .arr (b.scopes.map Typed.write))]

/-- A variable; its children are the group of variables with the given reference. -/
structure Variable where
  name : String
  value : String
  type : Option String
  variablesReference : Int
deriving DecidableEq, Repr

instance : Typed Variable where
  name := "Variable"
  record := Variable.mk <$> .required "name" Field.string <*> .defaulted "value" "" Field.string <*>
    .defaulted "type" none (Field.nullable Field.string) <*>
    .defaulted "variablesReference" 0 Field.int64
  members v := [("name", .str v.name), ("value", .str v.value)] ++
    optionalMember "type" .str v.type ++ [("variablesReference", .int v.variablesReference)]

/-- The variables of a group. -/
structure VariablesBody where
  values : List Variable := []
deriving DecidableEq, Repr, Inhabited

instance : Typed VariablesBody where
  name := "VariablesResponseBody"
  record := VariablesBody.mk <$> .defaulted "variables" [] (Field.list Typed.read)
  members b := [("variables", .arr (b.values.map Typed.write))]

/-- A thread of the program. -/
structure ProgramThread where
  id : Int
  name : String
deriving DecidableEq, Repr

instance : Typed ProgramThread where
  name := "Thread"
  record := ProgramThread.mk <$> .required "id" Field.int64 <*> .required "name" Field.string
  members t := [("id", .int t.id), ("name", .str t.name)]

/-- The threads of the program. -/
structure ThreadsBody where
  threads : List ProgramThread := []
deriving DecidableEq, Repr, Inhabited

instance : Typed ThreadsBody where
  name := "ThreadsResponseBody"
  record := ThreadsBody.mk <$> .defaulted "threads" [] (Field.list Typed.read)
  members b := [("threads", .arr (b.threads.map Typed.write))]

/-- The program has stopped. -/
structure StoppedBody where
  reason : String := ""
  threadId : Option Int := none
  description : Option String := none
  allThreadsStopped : Option Bool := none
deriving DecidableEq, Repr, Inhabited

instance : Typed StoppedBody where
  name := "StoppedEventBody"
  record := StoppedBody.mk <$> .defaulted "reason" "" Field.string <*>
    .defaulted "threadId" none (Field.nullable Field.int64) <*>
    .defaulted "description" none (Field.nullable Field.string) <*>
    .defaulted "allThreadsStopped" none (Field.nullable Field.bool)
  members b := [("reason", .str b.reason), ("threadId", orNull .int b.threadId),
    ("description", orNull .str b.description),
    ("allThreadsStopped", orNull .bool b.allThreadsStopped)]

/-- The program runs again. -/
structure ContinuedBody where
  threadId : Option Int := none
  allThreadsContinued : Option Bool := none
deriving DecidableEq, Repr, Inhabited

instance : Typed ContinuedBody where
  name := "ContinuedEventBody"
  record := ContinuedBody.mk <$> .defaulted "threadId" none (Field.nullable Field.int64) <*>
    .defaulted "allThreadsContinued" none (Field.nullable Field.bool)
  members b := [("threadId", orNull .int b.threadId),
    ("allThreadsContinued", orNull .bool b.allThreadsContinued)]

/-- The program has exited. -/
structure ExitedBody where
  exitCode : Option Int := none
deriving DecidableEq, Repr, Inhabited

instance : Typed ExitedBody where
  name := "ExitedEventBody"
  record := ExitedBody.mk <$> .defaulted "exitCode" none (Field.nullable Field.int64)
  members b := [("exitCode", orNull .int b.exitCode)]

/-- Output of the program or of the adapter. -/
structure OutputBody where
  category : Option String := none
  output : String := ""
deriving DecidableEq, Repr, Inhabited

instance : Typed OutputBody where
  name := "OutputEventBody"
  record := OutputBody.mk <$> .defaulted "category" none (Field.nullable Field.string) <*>
    .defaulted "output" "" Field.string
  members b := [("category", orNull .str b.category), ("output", .str b.output)]

/-- A thread was started or has exited. -/
structure ThreadBody where
  reason : String := ""
  threadId : Int := 0
deriving DecidableEq, Repr, Inhabited

instance : Typed ThreadBody where
  name := "ThreadEventBody"
  record := ThreadBody.mk <$> .defaulted "reason" "" Field.string <*>
    .required "threadId" Field.int64
  members b := [("reason", .str b.reason), ("threadId", .int b.threadId)]

/-- Reads the body of a response or an event: the default structure if there is none. -/
def readBody {α : Type} [Typed α] [Inhabited α] : Option Value → Except Mismatch α
  | none => .ok default
  | some .null => .ok default
  | some v => Typed.read v

end DebugHost
