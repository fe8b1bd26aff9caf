import DebugHost.Script

/-! # Calls of a session

What the users of a session can ask of it, as scripts. -/

namespace DebugHost.Session

open DebugHost.Json

/-- Fails if the session has ended. -/
def live : Script (Except DebugError Unit) := do
  let s ← .perform .status
  return if s.state = .terminated then .error .sessionTerminated else .ok ()

/-! ### Letting the program go on -/

/-- Lets a thread of a paused program go on. It does nothing on a session that has ended. -/
def resume (kind : StepKind) (thread : Int) : Script (Except DebugError Unit) := do
  match ← .perform (.order (.resume kind thread)) with
  | none => return .ok ()
  | some ticket => return (← .perform (.outcome ticket)).getD (.ok ())

/-- Waits for the answer to a resume and tells its outcome. A resume that failed goes back to the
session, which decides what it means; if the session has ended it is told as it is. -/
def watchResume (x : Exchange) (epoch ticket : Nat) : Script Unit := do
  let r ← Script.answerOf x
  let direct : Script Unit := .perform (.reply ticket (r.map fun _ => ()))
  match r with
  | .ok _ => direct
  | .error (.adapterRejected c m) => failed (.adapterRejected c m)
  | .error (.timeout c d) => failed (.timeout c d)
  | .error _ => direct
where
  /-- Gives a failure back to the session. -/
  failed (e : DebugError) : Script Unit := do
    unless ← .perform (.post (.resumeFailed epoch e ticket)) do
      .perform (.reply ticket (.error e))

/-- Asks the adapter to pause a thread. -/
def pause (thread : Int) : Script (Except DebugError Unit) :=
  live.andThen fun _ => do
    return (← Script.request "pause" (Script.written (ThreadArguments.mk thread))).map fun _ => ()

/-! ### Breakpoints and threads -/

/-- Replaces all breakpoints of a file and gives the verified lines. Calls take turns, and the record
changes only if the adapter accepts the request. -/
def setBreakpoints (path : Path) (lines : Lines) : Script (Except DebugError Lines) :=
  live.andThen fun _ => do
    let record ← .perform .lock
    let body : Except DebugError SetBreakpointsBody ←
      Script.requestBody "setBreakpoints" (Script.written (setBreakpointsArguments path lines))
    match body with
    | .error e =>
      .perform (.unlock record)
      return .error e
    | .ok body =>
      let (verified, record) := record.commit path lines body.breakpoints
      .perform (.log .debug "breakpoints installed"
        [("path", .shown path.text), ("verified", .int verified.toList.length)])
      .perform (.unlock record)
      return .ok verified

/-- The breakpoints, once no call replaces some of them. -/
def breakpoints : Script BreakpointSet := do
  let record ← .perform .lock
  .perform (.unlock record)
  return record

/-- Asks for the threads of the program and takes the answer for the table of threads. -/
def threads : Script (Except DebugError ThreadTable) :=
  live.andThen fun _ =>
    (Script.requestBody "threads" .null).andThen fun (body : ThreadsBody) => do
      let table := ThreadTable.ofList body.threads
      .perform (.keepThreads table)
      return .ok table

/-! ### Inspection -/

/-- Puts a question to the adapter. -/
def fetch : Inspection.Key → Script (Except DebugError Inspection.Answer)
  | .stack thread => do
    let body : Except DebugError StackTraceBody ←
      Script.requestBody "stackTrace" (Script.written ({ threadId := thread } : StackTraceArguments))
    return body.map fun b => .frames b.stackFrames
  | .scopes frame => do
    let body : Except DebugError ScopesBody ←
      Script.requestBody "scopes" (Script.written (ScopesArguments.mk frame))
    return body.map fun b => .scopes b.scopes
  | .values reference => do
    let body : Except DebugError VariablesBody ←
      Script.requestBody "variables" (Script.written (VariablesArguments.mk reference))
    return body.map fun b => .values b.values

/-- Inspects the paused program. -/
def inspect (q : Inspection.Query) : Script (Except DebugError Inspection.View) :=
  Script.andThen (.perform (.join q)) fun k => do
    match ← .perform (.acquire k) with
    | some v => .perform (.confirm k.generation v)
    | none =>
      Script.andThen (do .perform (.deliver k (← fetch k.key))) fun v =>
        .perform (.confirm k.generation v)

/-- The stack of a thread. -/
def stackTrace (thread : Int) : Script (Except DebugError (List Inspection.Frame)) := do
  return (← inspect (.stackTrace thread)).map fun
    | .frames fs => fs
    | _ => []

/-- The scopes of a frame. -/
def scopes (frame : Inspection.FrameRef) : Script (Except DebugError (List Inspection.Scope)) := do
  return (← inspect (.scopes frame)).map fun
    | .scopes ss => ss
    | _ => []

/-- The variables of a group. -/
def values (reference : Inspection.VarRef) :
    Script (Except DebugError (List Inspection.Variable)) := do
  return (← inspect (.values reference)).map fun
    | .values vs => vs
    | _ => []

/-! ### Beginning and end -/

/-- Tells the adapter that the configuration is complete. -/
def configurationDone : Script (Except DebugError Unit) :=
  live.andThen fun _ =>
    (Script.request "configurationDone" .null).andThen fun _ => do
      let _ ← .perform (.post .configured)
      return .ok ()

/-- Waits until the session reaches a state. Fails if the session ends before. -/
def waitFor (state : RunState) : Script (Except DebugError Status) := do
  match ← .perform (.await [state, .terminated] none) with
  | some s => return if s.state = state then .ok s else .error .sessionTerminated
  | none => return .error .sessionTerminated

/-- Gives the session an order and waits until it is carried out; tells whether the session was there
to take it. -/
def obey (o : Order) : Script Bool := do
  match ← .perform (.order o) with
  | none => return false
  | some ticket =>
    let _ ← .perform (.outcome ticket)
    return true

/-- Asks the adapter to end the program, and ends the session whether or not it answers. -/
def disconnect : Script (Except DebugError Unit) := do
  let s ← .perform .status
  if s.state = .terminated then return .ok ()
  unless ← obey .stopping do return .ok ()
  match ← Script.request "disconnect" (Script.written (DisconnectArguments.mk true)) with
  | .ok _ => pure ()
  | .error .sessionTerminated => pure ()
  | .error e => .perform (.log .debug "disconnect request failed" [("error", .shown e.message)])
  let _ ← obey (.terminate .userStopped)
  return .ok ()

/-- Sets the breakpoints of some files, one after the other. -/
def setAll : List (Path × Lines) → Script (Except DebugError Unit)
  | [] => return .ok ()
  | (path, lines) :: rest => (setBreakpoints path lines).andThen fun _ => setAll rest

/-- Brings a new session to the point where the program may run. The answer to `launch` is taken
last, as adapters ask for the configuration before they answer. -/
def handshake (launch : LaunchArguments) (files : List (Path × Lines)) :
    Script (Except DebugError Unit) :=
  (Script.request "initialize" (Script.written ({} : InitializeArguments))).andThen fun _ =>
  Script.andThen (.perform (.send "launch" (Script.written launch))) fun launching => do
    let (deadline, timeout) ← .perform .limit
    match ← .perform (.await [.configuring, .running, .paused, .terminated] (some deadline)) with
    | none => return .error (.timeout "initialized" timeout)
    | some s =>
      if s.state = .terminated then return .error .sessionTerminated
      (setAll files).andThen fun _ =>
      configurationDone.andThen fun _ => do
        return (← Script.answerOf launching).map fun _ => ()

end DebugHost.Session
