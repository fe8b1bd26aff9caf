import DebugHost.Json.Field

/-! # Arguments of requests

The structures that requests carry, and those their parts are made of. Each is written with all
members that it has, absent optional ones left out, and read by the names of the members. -/

namespace DebugHost

open DebugHost.Json

/-- What the program tells the adapter about itself. -/
structure InitializeArguments where
  clientId : String := "pyra"
  clientName : String := "Pyra IDE"
  adapterId : String := "python"
  pathFormat : String := "path"
  linesStartAt1 : Bool := true
  columnsStartAt1 : Bool := true
  supportsVariableType : Bool := true
  supportsVariablePaging : Bool := false
  supportsRunInTerminalRequest : Bool := false
deriving DecidableEq, Repr

instance : Typed InitializeArguments where
  name := "InitializeArguments"
  record := InitializeArguments.mk <$> .required "clientID" Field.string <*>
    .required "clientName" Field.string <*> .required "adapterID" Field.string <*>
    .required "pathFormat" Field.string <*> .required "linesStartAt1" Field.bool <*>
    .required "columnsStartAt1" Field.bool <*> .required "supportsVariableType" Field.bool <*>
    .required "supportsVariablePaging" Field.bool <*>
    .required "supportsRunInTerminalRequest" Field.bool
  members a := [("clientID", .str a.clientId), ("clientName", .str a.clientName),
    ("adapterID", .str a.adapterId), ("pathFormat", .str a.pathFormat),
    ("linesStartAt1", .bool a.linesStartAt1), ("columnsStartAt1", .bool a.columnsStartAt1),
    ("supportsVariableType", .bool a.supportsVariableType),
    ("supportsVariablePaging", .bool a.supportsVariablePaging),
    ("supportsRunInTerminalRequest", .bool a.supportsRunInTerminalRequest)]

/-- The program that the adapter is to debug. -/
structure LaunchArguments where
  name : String
  type : String
  request : String
  program : String
  cwd : String
  console : String
  justMyCode : Bool
  stopOnEntry : Bool
deriving DecidableEq, Repr

instance : Typed LaunchArguments where
  name := "LaunchArguments"
  record := LaunchArguments.mk <$> .required "name" Field.string <*>
    .required "type" Field.string <*> .required "request" Field.string <*>
    .required "program" Field.string <*> .required "cwd" Field.string <*>
    .required "console" Field.string <*> .required "justMyCode" Field.bool <*>
    .required "stopOnEntry" Field.bool
  members a := [("name", .str a.name), ("type", .str a.type), ("request", .str a.request),
    ("program", .str a.program), ("cwd", .str a.cwd), ("console", .str a.console),
    ("justMyCode", .bool a.justMyCode), ("stopOnEntry", .bool a.stopOnEntry)]

/-- A source file. -/
structure Source where
  name : Option String
  path : Option String
deriving DecidableEq, Repr

instance : Typed Source where
  name := "Source"
  record := Source.mk <$> .defaulted "name" none (Field.nullable Field.string) <*>
    .defaulted "path" none (Field.nullable Field.string)
  members s := optionalMember "name" .str s.name ++ optionalMember "path" .str s.path

/-- A line that the program is to stop at. -/
structure SourceBreakpoint where
  line : Int
deriving DecidableEq, Repr

instance : Typed SourceBreakpoint where
  name := "SourceBreakpoint"
  record := SourceBreakpoint.mk <$> .required "line" Field.int64
  members b := [("line", .int b.line)]

/-- All breakpoints of a source file. -/
structure SetBreakpointsArguments where
  source : Source
  breakpoints : List SourceBreakpoint
  sourceModified : Bool
deriving DecidableEq, Repr

instance : Typed SetBreakpointsArguments where
  name := "SetBreakpointsArguments"
  record := SetBreakpointsArguments.mk <$> .required "source" Typed.read <*>
    .required "breakpoints" (Field.list Typed.read) <*> .required "sourceModified" Field.bool
  members a := [("source", Typed.write a.source),
    ("breakpoints", .arr (a.breakpoints.map Typed.write)),
    ("sourceModified", .bool a.sourceModified)]

/-- A thread. -/
structure ThreadArguments where
  threadId : Int
deriving DecidableEq, Repr

instance : Typed ThreadArguments where
  name := "ThreadArguments"
  record := ThreadArguments.mk <$> .required "threadId" Field.int64
  members a := [("threadId", .int a.threadId)]

/-- A thread whose stack is asked for, and which part of it. -/
structure StackTraceArguments where
  threadId : Int
  startFrame : Option Int := none
  levels : Option Int := none
deriving DecidableEq, Repr

instance : Typed StackTraceArguments where
  name := "StackTraceArguments"
  record := StackTraceArguments.mk <$> .required "threadId" Field.int64 <*>
    .defaulted "startFrame" none (Field.nullable Field.int64) <*>
    .defaulted "levels" none (Field.nullable Field.int64)
  members a := [("threadId", .int a.threadId)] ++ optionalMember "startFrame" .int a.startFrame ++
    optionalMember "levels" .int a.levels

/-- A frame whose scopes are asked for. -/
structure ScopesArguments where
  frameId : Int
deriving DecidableEq, Repr

instance : Typed ScopesArguments where
  name := "ScopesArguments"
  record := ScopesArguments.mk <$> .required "frameId" Field.int64
  members a := [("frameId", .int a.frameId)]

/-- A group of variables that is asked for. -/
structure VariablesArguments where
  variablesReference : Int
deriving DecidableEq, Repr

instance : Typed VariablesArguments where
  name := "VariablesArguments"
  record := VariablesArguments.mk <$> .required "variablesReference" Field.int64
  members a := [("variablesReference", .int a.variablesReference)]

/-- How the adapter is to leave the program. -/
structure DisconnectArguments where
  terminateDebuggee : Bool
deriving DecidableEq, Repr

instance : Typed DisconnectArguments where
  name := "DisconnectArguments"
  record := DisconnectArguments.mk <$> .required "terminateDebuggee" Field.bool
  members a := [("terminateDebuggee", .bool a.terminateDebuggee)]

end DebugHost
