import DebugHost.Proofs.Protocol
import DebugHost.Session.Console

/-! # Scripts that leave breakpoints and inspection alone

Most of what users can ask of a session has nothing to do with the record of breakpoints or with the
tree of the paused program: it neither takes part in a turn with the one nor in a call on the other, and
sends none of their requests (`Quiet`). All of it but the call for the threads leaves the table of
threads to others as well (`Neutral`). What a call consists of is said for actions of any kind that those
that change nothing are of (`Passive`), so that it can be used for other kinds too. -/

namespace DebugHost

open DebugHost.Script DebugHost.Json

/-- Whether an action has nothing to do with breakpoints and inspection. -/
def Quiet : Action → Prop
  | .lock => False
  | .unlock _ => False
  | .join _ => False
  | .acquire _ => False
  | .deliver .. => False
  | .confirm .. => False
  | .send command _ => command ∉ ["setBreakpoints", "stackTrace", "scopes", "variables"]
  | _ => True

/-- Whether an action has nothing to do with breakpoints, inspection and threads. -/
def Neutral : Action → Prop
  | .keepThreads _ => False
  | .send command _ => command ∉ ["setBreakpoints", "stackTrace", "scopes", "variables", "threads"]
  | a => Quiet a

/-- Whether an action only looks, waits or tells. -/
def Passive : Action → Prop
  | .status => True
  | .limit => True
  | .response _ => True
  | .outcome _ => True
  | .await .. => True
  | .log .. => True
  | .print _ => True
  | .printError _ => True
  | _ => False

theorem neutral_of_passive {a : Action} (h : Passive a) : Neutral a := by
  cases a with
  | keepThreads t => exact h
  | send command v => exact h.elim
  | lock => exact h
  | unlock s => exact h
  | join q => exact h
  | acquire k => exact h
  | deliver k r => exact h
  | confirm g v => exact h
  | _ => exact trivial

theorem quiet_of_neutral {a : Action} (h : Neutral a) : Quiet a := by
  cases a with
  | keepThreads t => exact trivial
  | send command v =>
    simp only [Neutral, List.mem_cons, not_or] at h
    simp [Quiet, h]
  | _ => exact h

namespace Session

variable {kind : Action → Prop}

theorem within_answerOf (hkind : ∀ a, Passive a → kind a) (x : Exchange) :
    (answerOf x).Within kind :=
  Within.bind (within_perform (hkind _ trivial)) fun _ => within_perform (hkind _ trivial)

/-- A request is of a kind if its beginning is. -/
theorem within_request (hkind : ∀ a, Passive a → kind a) {command : String} {v : Value}
    (h : kind (.send command v)) : (request command v).Within kind := by
  refine Within.bind (within_perform h) fun r => ?_
  cases r with
  | error e => exact trivial
  | ok x => exact within_answerOf hkind x

theorem within_requestBody {α : Type} [Typed α] [Inhabited α] (hkind : ∀ a, Passive a → kind a)
    {command : String} {v : Value} (h : kind (.send command v)) :
    (requestBody command v : Script (Except DebugError α)).Within kind :=
  Within.bind (within_request hkind h) fun _ => trivial

theorem within_live (hkind : ∀ a, Passive a → kind a) : live.Within kind :=
  Within.bind (within_perform (hkind _ trivial)) fun _ => trivial

/-- A turn with the record of breakpoints. -/
theorem within_setBreakpoints (hkind : ∀ a, Passive a → kind a) (hlock : kind .lock)
    (hunlock : ∀ s, kind (.unlock s)) (hsend : ∀ v, kind (.send "setBreakpoints" v)) (path : Path)
    (lines : Lines) : (setBreakpoints path lines).Within kind := by
  refine Within.andThen (within_live hkind) fun _ => ?_
  refine Within.bind (within_perform hlock) fun record => ?_
  refine Within.bind (within_requestBody hkind (hsend _)) fun body => ?_
  cases body with
  | error e => exact Within.bind (within_perform (hunlock _)) fun _ => trivial
  | ok b =>
    exact Within.bind (within_perform (hkind _ trivial)) fun _ =>
      Within.bind (within_perform (hunlock _)) fun _ => trivial

theorem within_breakpoints (hlock : kind .lock) (hunlock : ∀ s, kind (.unlock s)) :
    breakpoints.Within kind :=
  Within.bind (within_perform hlock) fun _ => Within.bind (within_perform (hunlock _)) fun _ => trivial

theorem within_resume (hkind : ∀ a, Passive a → kind a) (horder : ∀ o, kind (.order o)) (k : StepKind)
    (thread : Int) : (resume k thread).Within kind := by
  refine Within.bind (within_perform (horder _)) fun ticket => ?_
  cases ticket with
  | none => exact trivial
  | some t => exact Within.bind (within_perform (hkind _ trivial)) fun _ => trivial

/-- The task that waits for the answer to a resume does a few things, with the ticket of the resume. -/
theorem within_watch {x : Exchange} {epoch ticket : Nat} (hlimit : kind .limit)
    (hresponse : ∀ y, kind (.response y)) (hpost : ∀ e, kind (.post (.resumeFailed epoch e ticket)))
    (hreply : ∀ r, kind (.reply ticket r)) : (watchResume x epoch ticket).Within kind := by
  have hfailed (e : DebugError) : (watchResume.failed epoch ticket e).Within kind := by
    refine Within.bind (within_perform (hpost e)) fun taken => ?_
    cases taken with
    | true => exact trivial
    | false => exact within_perform (hreply _)
  have hanswer : (answerOf x).Within kind :=
    Within.bind (within_perform hlimit) fun _ => within_perform (hresponse _)
  refine Within.bind hanswer fun r => ?_
  cases r with
  | ok b => exact within_perform (hreply _)
  | error e => cases e <;> first | exact hfailed _ | exact within_perform (hreply _)

theorem within_watchResume (x : Exchange) (epoch ticket : Nat) :
    (watchResume x epoch ticket).Within Neutral :=
  within_watch trivial (fun _ => trivial) (fun _ => trivial) fun _ => trivial

theorem within_pause (hkind : ∀ a, Passive a → kind a) (hsend : ∀ v, kind (.send "pause" v))
    (thread : Int) : (pause thread).Within kind :=
  Within.andThen (within_live hkind) fun _ =>
    Within.bind (within_request hkind (hsend _)) fun _ => trivial

theorem within_threads (hkind : ∀ a, Passive a → kind a) (hsend : ∀ v, kind (.send "threads" v))
    (hkeep : ∀ t, kind (.keepThreads t)) : threads.Within kind :=
  Within.andThen (within_live hkind) fun _ =>
    Within.andThen (within_requestBody hkind (hsend _)) fun _ =>
      Within.bind (within_perform (hkeep _)) fun _ => trivial

theorem within_configurationDone (hkind : ∀ a, Passive a → kind a)
    (hsend : ∀ v, kind (.send "configurationDone" v)) (hpost : kind (.post .configured)) :
    configurationDone.Within kind :=
  Within.andThen (within_live hkind) fun _ =>
    Within.andThen (within_request hkind (hsend _)) fun _ =>
      Within.bind (within_perform hpost) fun _ => trivial

theorem within_waitFor (hkind : ∀ a, Passive a → kind a) (state : RunState) :
    (waitFor state).Within kind := by
  refine Within.bind (within_perform (hkind _ trivial)) fun s => ?_
  cases s with
  | none => exact trivial
  | some s => exact trivial

theorem within_obey {o : Order} (horder : kind (.order o)) (houtcome : ∀ t, kind (.outcome t)) :
    (obey o).Within kind := by
  refine Within.bind (within_perform horder) fun ticket => ?_
  cases ticket with
  | none => exact trivial
  | some t => exact Within.bind (within_perform (houtcome t)) fun _ => trivial

theorem within_disconnect (hkind : ∀ a, Passive a → kind a) (horder : ∀ o, kind (.order o))
    (hsend : ∀ v, kind (.send "disconnect" v)) : disconnect.Within kind := by
  refine Within.bind (within_perform (hkind _ trivial)) fun s => ?_
  simp only
  split
  · exact trivial
  · refine Within.bind (within_obey (horder _) fun _ => hkind _ trivial) fun taken => ?_
    cases taken with
    | false => exact trivial
    | true =>
      refine Within.bind (within_request hkind (hsend _)) fun r => ?_
      have hend : (do let _ ← obey (.terminate .userStopped); return .ok () :
          Script (Except DebugError Unit)).Within kind :=
        Within.bind (within_obey (horder _) fun _ => hkind _ trivial) fun _ => trivial
      cases r with
      | ok b => exact hend
      | error e =>
        cases e <;> first | exact hend | exact Within.bind (within_perform (hkind _ trivial)) fun _ => hend

/-- The handshake of a new session: its requests, and the turns with its breakpoints. -/
theorem within_handshake (hkind : ∀ a, Passive a → kind a) (hlock : kind .lock)
    (hunlock : ∀ s, kind (.unlock s)) (hpost : kind (.post .configured))
    (hsend : ∀ command ∈ ["initialize", "launch", "setBreakpoints", "configurationDone"],
      ∀ v, kind (.send command v)) (launch : LaunchArguments) (files : List (Path × Lines)) :
    (handshake launch files).Within kind := by
  have hfiles : (setAll files).Within kind := by
    induction files with
    | nil => exact trivial
    | cons f files ih =>
      exact Within.andThen
        (within_setBreakpoints hkind hlock hunlock (hsend _ (by simp)) f.1 f.2) fun _ => ih
  refine Within.andThen (within_request hkind (hsend _ (by simp) _)) fun _ => ?_
  refine Within.andThen (within_perform (hsend _ (by simp) _)) fun launching => ?_
  refine Within.bind (within_perform (hkind _ trivial)) fun limit => ?_
  refine Within.bind (within_perform (hkind _ trivial)) fun status => ?_
  cases status with
  | none => exact trivial
  | some s =>
    simp only
    split
    · exact trivial
    · refine Within.andThen hfiles fun _ => ?_
      refine Within.andThen (within_configurationDone hkind (hsend _ (by simp)) hpost) fun _ => ?_
      exact Within.bind (within_answerOf hkind launching) fun _ => trivial

end Session
end DebugHost
