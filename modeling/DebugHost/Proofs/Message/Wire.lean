import DebugHost.Message.Bodies
import DebugHost.Proofs.Json.Forms

/-! # Arguments and bodies on the wire

Every structure that messages carry is read back from the value that is written for it, also when the
members of this value stand in another order and among further members, and when optional fields that were
left out are given as `null` (`structures_survive`). There is one lemma for each structure, with one part
for each of its fields. -/

namespace DebugHost

open DebugHost.Json

/-! ### Arguments -/

theorem survives_initializeArguments : SurvivesWire InitializeArguments (.flat InitializeArguments []) :=
  survives_record (by decide) (by rfl) fun _ =>
    (((((((((restores_required survives_string).map _).seq (restores_required survives_string)).seq
      (restores_required survives_string)).seq (restores_required survives_string)).seq
      (restores_required survives_bool)).seq (restores_required survives_bool)).seq
      (restores_required survives_bool)).seq (restores_required survives_bool)).seq
      (restores_required survives_bool)

theorem survives_launch : SurvivesWire LaunchArguments (.flat LaunchArguments []) :=
  survives_record (by decide) (by rfl) fun _ =>
    ((((((((restores_required survives_string).map _).seq (restores_required survives_string)).seq
      (restores_required survives_string)).seq (restores_required survives_string)).seq
      (restores_required survives_string)).seq (restores_required survives_string)).seq
      (restores_required survives_bool)).seq (restores_required survives_bool)

/-- The form of a source file. -/
def sourceForm : Form := .flat Source ["name", "path"]

theorem survives_source : SurvivesWire Source sourceForm :=
  survives_record (by decide) (by rfl) fun _ =>
    ((restores_optional survives_string nofun).map _).seq (restores_optional survives_string nofun)

/-- The form of a line that the program is to stop at. -/
def sourceBreakpointForm : Form := .flat SourceBreakpoint []

theorem survives_sourceBreakpoint : SurvivesWire SourceBreakpoint sourceBreakpointForm :=
  survives_record (by decide) (by rfl) fun _ => (restores_required survives_int64).map _

/-- The form of all breakpoints of a source file. -/
def setBreakpointsForm : Form :=
  .of SetBreakpointsArguments [] fun n =>
    if n = "source" then sourceForm
    else if n = "breakpoints" then .list sourceBreakpointForm else .plain

theorem survives_setBreakpoints : SurvivesWire SetBreakpointsArguments setBreakpointsForm :=
  survives_record (by decide) (by rfl) fun _ =>
    (((restores_required survives_source).map _).seq
      (restores_required survives_sourceBreakpoint.list)).seq (restores_required survives_bool)

theorem survives_threadArguments : SurvivesWire ThreadArguments (.flat ThreadArguments []) :=
  survives_record (by decide) (by rfl) fun _ => (restores_required survives_int64).map _

theorem survives_stackTraceArguments :
    SurvivesWire StackTraceArguments (.flat StackTraceArguments ["startFrame", "levels"]) :=
  survives_record (by decide) (by rfl) fun _ =>
    (((restores_required survives_int64).map _).seq (restores_optional survives_int64 nofun)).seq
      (restores_optional survives_int64 nofun)

theorem survives_scopesArguments : SurvivesWire ScopesArguments (.flat ScopesArguments []) :=
  survives_record (by decide) (by rfl) fun _ => (restores_required survives_int64).map _

theorem survives_variablesArguments : SurvivesWire VariablesArguments (.flat VariablesArguments []) :=
  survives_record (by decide) (by rfl) fun _ => (restores_required survives_int64).map _

theorem survives_disconnect : SurvivesWire DisconnectArguments (.flat DisconnectArguments []) :=
  survives_record (by decide) (by rfl) fun _ => (restores_required survives_bool).map _

/-! ### Bodies -/

/-- The form of what the adapter did with a breakpoint. -/
def breakpointForm : Form := .flat Breakpoint ["id", "line", "message"]

theorem survives_breakpoint : SurvivesWire Breakpoint breakpointForm :=
  survives_record (by decide) (by rfl) fun _ =>
    ((((restores_optional survives_int64 nofun).map _).seq (restores_required survives_bool)).seq
      (restores_optional survives_int64 nofun)).seq (restores_optional survives_string nofun)

/-- The form of a frame of a stack. -/
def stackFrameForm : Form := .of StackFrame [] fun n => if n = "source" then sourceForm else .plain

theorem survives_stackFrame : SurvivesWire StackFrame stackFrameForm :=
  survives_record (by decide) (by rfl) fun _ =>
    (((((restores_required survives_int64).map _).seq (restores_required survives_string)).seq
      (restores_defaulted (survives_source.nullable nofun) none)).seq
      (restores_required survives_int64)).seq (restores_defaulted survives_int64 0)

/-- The form of a group of variables of a frame. -/
def scopeForm : Form := .flat Scope []

theorem survives_scope : SurvivesWire Scope scopeForm :=
  survives_record (by decide) (by rfl) fun _ =>
    (((restores_required survives_string).map _).seq (restores_defaulted survives_int64 0)).seq
      (restores_defaulted survives_bool false)

/-- The form of a variable. -/
def variableForm : Form := .flat Variable ["type"]

theorem survives_variable : SurvivesWire Variable variableForm :=
  survives_record (by decide) (by rfl) fun _ =>
    ((((restores_required survives_string).map _).seq (restores_defaulted survives_string "")).seq
      (restores_optional survives_string nofun)).seq (restores_defaulted survives_int64 0)

/-- The form of a thread of the program. -/
def threadForm : Form := .flat ProgramThread []

theorem survives_thread : SurvivesWire ProgramThread threadForm :=
  survives_record (by decide) (by rfl) fun _ =>
    ((restores_required survives_int64).map _).seq (restores_required survives_string)

/-- The form of a body with a list of things in the field `name`. -/
def listForm (α : Type) [Typed α] (name : String) (optional : List String) (item : Form) : Form :=
  .of α optional fun n => if n = name then .list item else .plain

theorem survives_setBreakpointsBody :
    SurvivesWire SetBreakpointsBody (listForm SetBreakpointsBody "breakpoints" [] breakpointForm) :=
  survives_record (by decide) (by rfl) fun _ => (restores_defaulted survives_breakpoint.list []).map _

theorem survives_stackTraceBody :
    SurvivesWire StackTraceBody (listForm StackTraceBody "stackFrames" ["totalFrames"] stackFrameForm) :=
  survives_record (by decide) (by rfl) fun _ =>
    ((restores_defaulted survives_stackFrame.list []).map _).seq
      (restores_optional survives_int64 nofun)

theorem survives_scopesBody : SurvivesWire ScopesBody (listForm ScopesBody "scopes" [] scopeForm) :=
  survives_record (by decide) (by rfl) fun _ => (restores_defaulted survives_scope.list []).map _

theorem survives_variablesBody :
    SurvivesWire VariablesBody (listForm VariablesBody "variables" [] variableForm) :=
  survives_record (by decide) (by rfl) fun _ => (restores_defaulted survives_variable.list []).map _

theorem survives_threadsBody : SurvivesWire ThreadsBody (listForm ThreadsBody "threads" [] threadForm) :=
  survives_record (by decide) (by rfl) fun _ => (restores_defaulted survives_thread.list []).map _

theorem survives_stopped : SurvivesWire StoppedBody (.flat StoppedBody []) :=
  survives_record (by decide) (by rfl) fun _ =>
    ((((restores_defaulted survives_string "").map _).seq
      (restores_defaulted (survives_int64.nullable nofun) none)).seq
      (restores_defaulted (survives_string.nullable nofun) none)).seq
      (restores_defaulted (survives_bool.nullable nofun) none)

theorem survives_continued : SurvivesWire ContinuedBody (.flat ContinuedBody []) :=
  survives_record (by decide) (by rfl) fun _ =>
    ((restores_defaulted (survives_int64.nullable nofun) none).map _).seq
      (restores_defaulted (survives_bool.nullable nofun) none)

theorem survives_exited : SurvivesWire ExitedBody (.flat ExitedBody []) :=
  survives_record (by decide) (by rfl) fun _ =>
    (restores_defaulted (survives_int64.nullable nofun) none).map _

theorem survives_output : SurvivesWire OutputBody (.flat OutputBody []) :=
  survives_record (by decide) (by rfl) fun _ =>
    ((restores_defaulted (survives_string.nullable nofun) none).map _).seq
      (restores_defaulted survives_string "")

theorem survives_threadEvent : SurvivesWire ThreadBody (.flat ThreadBody []) :=
  survives_record (by decide) (by rfl) fun _ =>
    ((restores_defaulted survives_string "").map _).seq (restores_required survives_int64)

/-! ### All structures -/

/-- **Arguments and bodies survive the wire.** Every structure is read back from the value that is written
for it, if its numbers are of 64 bits, and from every variation of this value: the members of the object, and
of objects in it that are structures, may stand in any order and among members of any other names, and
optional fields that were left out may be given as `null`. -/
theorem structures_survive :
    SurvivesWire InitializeArguments (.flat InitializeArguments []) ∧
    SurvivesWire LaunchArguments (.flat LaunchArguments []) ∧
    SurvivesWire Source sourceForm ∧
    SurvivesWire SourceBreakpoint sourceBreakpointForm ∧
    SurvivesWire SetBreakpointsArguments setBreakpointsForm ∧
    SurvivesWire ThreadArguments (.flat ThreadArguments []) ∧
    SurvivesWire StackTraceArguments (.flat StackTraceArguments ["startFrame", "levels"]) ∧
    SurvivesWire ScopesArguments (.flat ScopesArguments []) ∧
    SurvivesWire VariablesArguments (.flat VariablesArguments []) ∧
    SurvivesWire DisconnectArguments (.flat DisconnectArguments []) ∧
    SurvivesWire Breakpoint breakpointForm ∧
    SurvivesWire StackFrame stackFrameForm ∧
    SurvivesWire Scope scopeForm ∧
    SurvivesWire Variable variableForm ∧
    SurvivesWire ProgramThread threadForm ∧
    SurvivesWire SetBreakpointsBody (listForm SetBreakpointsBody "breakpoints" [] breakpointForm) ∧
    SurvivesWire StackTraceBody (listForm StackTraceBody "stackFrames" ["totalFrames"] stackFrameForm) ∧
    SurvivesWire ScopesBody (listForm ScopesBody "scopes" [] scopeForm) ∧
    SurvivesWire VariablesBody (listForm VariablesBody "variables" [] variableForm) ∧
    SurvivesWire ThreadsBody (listForm ThreadsBody "threads" [] threadForm) ∧
    SurvivesWire StoppedBody (.flat StoppedBody []) ∧
    SurvivesWire ContinuedBody (.flat ContinuedBody []) ∧
    SurvivesWire ExitedBody (.flat ExitedBody []) ∧
    SurvivesWire OutputBody (.flat OutputBody []) ∧
    SurvivesWire ThreadBody (.flat ThreadBody []) :=
  ⟨survives_initializeArguments, survives_launch, survives_source, survives_sourceBreakpoint,
    survives_setBreakpoints, survives_threadArguments, survives_stackTraceArguments,
    survives_scopesArguments, survives_variablesArguments, survives_disconnect, survives_breakpoint,
    survives_stackFrame, survives_scope, survives_variable, survives_thread,
    survives_setBreakpointsBody, survives_stackTraceBody, survives_scopesBody, survives_variablesBody,
    survives_threadsBody, survives_stopped, survives_continued, survives_exited, survives_output,
    survives_threadEvent⟩

/-- The members of a frame with a source. -/
def frameMembers (source : Value) : List (String × Value) :=
  [("id", .int 1), ("name", .str "main"), ("source", source), ("line", .int 3), ("column", .int 0)]

/-- A frame with its members in reverse order, the name of its source given as `null`, and a member that is
no field. -/
def variedFrame : Value :=
  .obj ((frameMembers (.obj [("name", .null), ("path", .str "main.py")])).reverse ++
    [("presentationHint", .str "normal")])

theorem read_variedFrame : stackFrameForm.Varies
      (Typed.write (α := StackFrame) ⟨1, "main", some ⟨none, some "main.py"⟩, 3, 0⟩) variedFrame ∧
    Typed.read variedFrame = .ok (⟨1, "main", some ⟨none, some "main.py"⟩, 3, 0⟩ : StackFrame) := by
  have hsource : sourceForm.Varies (.obj [("path", .str "main.py")])
      (.obj [("name", .null), ("path", .str "main.py")]) :=
    Or.inr ⟨_, _, rfl, rfl, .mk [("path", .str "main.py")] ["name"] [] (.cons ⟨rfl, rfl⟩ .nil) (by decide)
      (by decide) nofun (.swap ..)⟩
  have hframe : stackFrameForm.Varies
      (Typed.write (α := StackFrame) ⟨1, "main", some ⟨none, some "main.py"⟩, 3, 0⟩) variedFrame :=
    Or.inr ⟨_, _, rfl, rfl, .mk (frameMembers (.obj [("name", .null), ("path", .str "main.py")])) []
      [("presentationHint", .str "normal")]
      (.cons ⟨rfl, rfl⟩ (.cons ⟨rfl, rfl⟩ (.cons ⟨rfl, hsource⟩ (.cons ⟨rfl, rfl⟩
        (.cons ⟨rfl, rfl⟩ .nil))))) .nil nofun (by decide) ((List.reverse_perm _).append_right _)⟩
  obtain ⟨-, -, -, -, -, -, -, -, -, -, -, hsurvives, -⟩ := structures_survive
  exact ⟨hframe, hsurvives _ _ (by decide) hframe⟩

end DebugHost
