import DebugHost.Proofs.Inspection.Sharing
import DebugHost.Proofs.Session.Serial
import DebugHost.Session.Console

/-! # All calls are orderly

Whatever users can ask of a session is made of turns with the record of breakpoints, of looks at the
paused program, and of actions that matter to neither. So every such call adheres to both protocols and
comes back to where it began (`Orderly`), however calls are put together: the handshake of a new session
(`orderly_handshake`), the commands of the console (`orderly_command`) and what is shown of events
(`orderly_showEvent`) are among the scripts for which turns are serial and questions are shared. -/

namespace DebugHost

open DebugHost.Script

namespace Session

variable {α β ε ρ : Type}

/-- A script that is made of turns with the record of breakpoints and of looks at the paused program. -/
structure Orderly (s : Script α) : Prop where
  turns : ∀ past, s.Adheres Replacement.protocol (fun p _ => p.stand = .apart) ⟨past, .apart⟩
  looks : ∀ past, s.Adheres Inspection.asking (fun p _ => p.stand = .apart) ⟨past, .apart⟩

/-! ### How orderly scripts are put together -/

theorem orderly_done (a : α) : Orderly (.done a) := ⟨fun _ => rfl, fun _ => rfl⟩

theorem Orderly.bind {s : Script α} {f : α → Script β} (hs : Orderly s) (hf : ∀ a, Orderly (f a)) :
    Orderly (s >>= f) where
  turns past := Adheres.bind ((hs.turns past).mono fun ⟨past', _⟩ a hp => by
    cases hp; exact (hf a).turns past')
  looks past := Adheres.bind ((hs.looks past).mono fun ⟨past', _⟩ a hp => by
    cases hp; exact (hf a).looks past')

theorem Orderly.andThen {s : Script (Except ε α)} {f : α → Script (Except ε β)} (hs : Orderly s)
    (hf : ∀ a, Orderly (f a)) : Orderly (s.andThen f) := by
  refine hs.bind fun r => ?_
  cases r with
  | error e => exact orderly_done _
  | ok a => exact hf a

theorem Orderly.map {s : Script α} (f : α → β) (hs : Orderly s) : Orderly (f <$> s) :=
  hs.bind fun a => orderly_done (f a)

/-- What matters neither to breakpoints nor to inspection is orderly. -/
theorem Orderly.of_quiet {s : Script α} (hs : s.Within Quiet) : Orderly s where
  turns _ := (Within.replacing (hs.mono fun _ => Crowd.idle_of_quiet)).mono fun p _ hp => by rw [hp]
  looks _ := (Within.asking (hs.mono fun _ => Inspection.idle_of_quiet)).mono fun p _ hp => by rw [hp]

theorem Orderly.of_neutral {s : Script α} (hs : s.Within Neutral) : Orderly s :=
  .of_quiet (hs.mono fun _ => quiet_of_neutral)

theorem orderly_perform {a : Action} (h : Quiet a) : Orderly (perform a) :=
  .of_quiet (within_perform h)

/-- What is orderly is fit for both. -/
theorem Orderly.fits {s : Script ρ} (h : Orderly s) : Replacement.Fit s ∧ Inspection.Fit s :=
  ⟨h.turns [], h.looks []⟩

/-! ### Breakpoints and inspection -/

theorem orderly_setBreakpoints {path : Path} {lines : Lines} (hlines : lines.Rising) :
    Orderly (setBreakpoints path lines) where
  turns past := (adheres_setBreakpoints past path hlines).mono fun p r hp => by cases hp <;> rfl
  looks _ :=
    (Within.asking (within_setBreakpoints
      (fun _ h => Inspection.idle_of_quiet (quiet_of_neutral (neutral_of_passive h)))
      trivial (fun _ => trivial) (fun _ => by rfl) path lines)).mono fun p _ hp => by rw [hp]

theorem orderly_breakpoints : Orderly breakpoints where
  turns past := (adheres_breakpoints past).mono fun p _ hp => by rw [hp]
  looks _ := (Within.asking (within_breakpoints trivial fun _ => trivial)).mono fun p _ hp => by rw [hp]

theorem orderly_inspect (q : Inspection.Query) : Orderly (inspect q) where
  turns _ := (Within.replacing (within_inspect
    (fun _ h => Crowd.idle_of_quiet (quiet_of_neutral (neutral_of_passive h)))
    (fun _ => trivial) (fun _ => trivial) (fun _ _ => trivial) (fun _ _ => trivial)
    (fun k _ => by cases k <;> simp [Replacement.Idle, Inspection.Key.command]) q)).mono
    fun p _ hp => by rw [hp]
  looks past := (adheres_inspect past q).mono fun p _ ⟨t, _, _, hp⟩ => by rw [hp]

theorem orderly_stackTrace (thread : Int) : Orderly (stackTrace thread) :=
  (orderly_inspect _).bind fun _ => orderly_done _

theorem orderly_scopes (frame : Inspection.FrameRef) : Orderly (scopes frame) :=
  (orderly_inspect _).bind fun _ => orderly_done _

theorem orderly_values (reference : Inspection.VarRef) : Orderly (values reference) :=
  (orderly_inspect _).bind fun _ => orderly_done _

/-! ### The beginning of a session -/

theorem orderly_setAll {files : List (Path × Lines)} (hfiles : ∀ f ∈ files, f.2.Rising) :
    Orderly (setAll files) := by
  induction files with
  | nil => exact orderly_done _
  | cons f files ih =>
    exact (orderly_setBreakpoints (hfiles f (List.mem_cons_self ..))).andThen fun _ =>
      ih fun g hg => hfiles g (List.mem_cons_of_mem _ hg)

/-- **The handshake of a new session** is orderly. -/
theorem orderly_handshake (launch : LaunchArguments) {files : List (Path × Lines)}
    (hfiles : ∀ f ∈ files, f.2.Rising) : Orderly (handshake launch files) := by
  refine (Orderly.of_neutral (within_request (fun _ => neutral_of_passive) (by simp [Neutral]))).andThen fun _ => ?_
  refine (orderly_perform (by simp [Quiet])).andThen fun launching => ?_
  refine (orderly_perform (a := .limit) trivial).bind fun limit => ?_
  refine (orderly_perform (a := .await _ _) trivial).bind fun status => ?_
  cases status with
  | none => exact orderly_done _
  | some s =>
    simp only
    split
    · exact orderly_done _
    · refine (orderly_setAll hfiles).andThen fun _ => ?_
      refine (Orderly.of_neutral (within_configurationDone (fun _ => neutral_of_passive)
        (fun _ => by simp [Neutral]) trivial)).andThen fun _ => ?_
      exact (Orderly.of_neutral (within_answerOf (fun _ => neutral_of_passive) launching)).bind fun _ => orderly_done _

/-! ### The console -/

namespace Console

theorem orderly_say (s : String) : Orderly (say s) := orderly_perform trivial

theorem orderly_sayAll (lines : List String) : Orderly (sayAll lines) := by
  induction lines with
  | nil => exact orderly_done _
  | cons l lines ih => exact (orderly_say l).bind fun _ => ih

theorem orderly_backtrace (thread : Int) : Orderly (backtrace thread) := by
  refine (orderly_stackTrace thread).andThen fun frames => ?_
  refine (orderly_sayAll _).bind fun _ => ?_
  cases frames with
  | nil => exact orderly_done _
  | cons top rest =>
    exact (orderly_scopes top.ref).andThen fun ss => (orderly_sayAll _).bind fun _ => orderly_done _

theorem orderly_showVariables (reference : Inspection.VarRef) : Orderly (showVariables reference) :=
  (orderly_values reference).andThen fun _ => (orderly_sayAll _).bind fun _ => orderly_done _

/-- A call whose failure is told is orderly if the call is. -/
theorem orderly_told {c : Script (Except DebugError Unit)} (hc : Orderly c) : Orderly (do
    let r ← c
    match r with
    | .ok () => pure ()
    | .error e => say ("error: " ++ e.message)
    return true : Script Bool) := by
  refine hc.bind fun r => ?_
  cases r with
  | ok u => exact orderly_done _
  | error e => exact (orderly_say _).bind fun _ => orderly_done _

/-- **Whatever the user types** is orderly. -/
theorem orderly_command (line : String) : Orderly (command line) := by
  have hresume (kind : StepKind) (thread : Int) : Orderly (resume kind thread) :=
    .of_neutral (within_resume (fun _ => neutral_of_passive) (fun _ => trivial) kind thread)
  refine (orderly_perform (a := .status) trivial).bind fun s => ?_
  simp only
  split
  · exact orderly_done _
  · split
    · exact orderly_done _
    · exact orderly_told (hresume _ _)
    · exact orderly_told (hresume _ _)
    · exact orderly_told (hresume _ _)
    · exact orderly_told (hresume _ _)
    · exact orderly_told (orderly_backtrace _)
    · split
      · exact orderly_told (orderly_showVariables _)
      · exact (orderly_say _).bind fun _ => orderly_told (orderly_done _)
    · exact (orderly_say _).bind fun _ => orderly_told (orderly_done _)

/-- **What is shown of an event** is orderly. -/
theorem orderly_showEvent (e : DebugEvent) : Orderly (showEvent e) := by
  cases e with
  | stopped reason thread g =>
    exact (orderly_stackTrace _).bind fun _ => (orderly_say _).bind fun _ => orderly_done _
  | continued thread => exact orderly_done _
  | thread reason id => exact orderly_done _
  | output category text =>
    exact (orderly_perform (a := .print text) trivial).bind fun _ => orderly_done _
  | terminated cause => exact (orderly_say _).bind fun _ => orderly_done _

end Console
end Session
end DebugHost
