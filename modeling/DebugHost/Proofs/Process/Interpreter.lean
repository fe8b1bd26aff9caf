import DebugHost.Launch
import DebugHost.Proofs.FileSystem

/-! # The interpreter that is run

Whether a virtual environment has an interpreter is seen from where the program runs. The process that
is to run it goes into the directory of the request first, and looks for it from there
(`Command.place`). If the directories of the request and of the environment are not absolute, the file
that is run is the one in the directory to which the directory of the request leads once more
(`Found.elsewhere`). This is the file that was found only where it leads nowhere else
(`Found.run_iff`). -/

namespace DebugHost

open FileSystem

/-! ### The file that is run -/

namespace Command

/-- The place of the program of a command that is a path: the process goes into its directory, and looks
from there. -/
def place (c : Command) (fs : FileSystem) (home : List String) : Except OsError (List String) := do
  let trail ← fs.locate home c.cwd
  fs.enter trail
  fs.locate trail c.program

theorem locate_of_programAt {fs : FileSystem} {trail args : List String}
    {fallback : Shell.System.Fallback} {path : Path} {p : Shell.System.Program}
    (h : Shell.System.programAt fs trail fallback path args = .ok p) :
    ∃ P, fs.locate trail path = .ok P := by
  unfold Shell.System.programAt Shell.System.interpreterLimit Shell.System.loadAt at h
  cases hlocate : fs.locate trail path with
  | error e => rw [hlocate] at h; cases h
  | ok P => exact ⟨P, rfl⟩

/-- A process is started only with a program that is there for it. -/
theorem place_of_spawn {c : Command} {s : Shell.System} {home : List String}
    {fallback : Shell.System.Fallback} {own : Bool} {r : Nat × Nat × Nat × Shell.System}
    (hslash : '/' ∈ c.program.text.toList) (h : s.spawn home c fallback own = .ok r) :
    ∃ P, c.place s.files home = .ok P := by
  unfold Shell.System.spawn at h
  simp only [bind, Except.bind, pure, Except.pure] at h
  split at h
  · cases h
  · split at h
    · cases h
    · next trail hcwd =>
      split at h
      · cases h
      · next henter =>
        split at h
        · cases h
        · split at h
          · cases h
          · next program hfind =>
            rw [Shell.System.findProgram, if_pos hslash] at hfind
            obtain ⟨P, hP⟩ := locate_of_programAt hfind
            refine ⟨P, ?_⟩
            simp only [place, hcwd, henter, bind, Except.bind]
            exact hP

end Command

namespace InterpreterConfig

variable (c : InterpreterConfig)

/-! ### The interpreter of a virtual environment -/

/-- The interpreter of a virtual environment, as seen from the directory of a request. -/
def inner : Path := (c.venvDir.join ⟨"bin"⟩).join ⟨"python"⟩

theorem candidate_eq (cwd : Path) : c.candidate cwd = cwd.join c.inner := by
  rw [candidate, inner, ← Path.join_assoc, ← Path.join_assoc]

theorem isAbsolute_inner : c.inner.isAbsolute = c.venvDir.isAbsolute := by
  have hbin : (Path.mk "bin").isAbsolute = false := by decide +kernel
  have hpython : (Path.mk "python").isAbsolute = false := by decide +kernel
  rw [inner, Path.isAbsolute_join, Path.isAbsolute_join, hbin, hpython, Bool.or_false, Bool.or_false]

theorem steps_inner : c.inner.steps = c.venvDir.steps ++ [.name "bin", .name "python"] := by
  rw [inner, Path.steps_join _ (by decide +kernel), Path.steps_join _ (by decide +kernel),
    List.append_assoc]
  have hlast : (Path.mk "bin").steps ++ (Path.mk "python").steps = [.name "bin", .name "python"] := by
    decide +kernel
  rw [hlast]

/-- It is a path, so it is not looked for in the directories of programs. -/
theorem slash_mem_candidate (cwd : Path) : '/' ∈ (c.candidate cwd).text.toList := by
  have hseparator : (Path.mk "bin").separator = "/" := by decide +kernel
  rw [candidate, Path.text_join _ (by decide +kernel), Path.separator_join _ (by decide +kernel),
    hseparator]
  simp

variable {c}

theorem resolve_of_isThere {fs : FileSystem} {home : List String} {cwd : Path}
    (hpython : c.python = none) (hthere : fs.isThere home (c.candidate cwd) = true) :
    c.resolve fs home cwd = c.candidate cwd := by
  simp only [resolve, hpython, hthere, if_true]

/-! ### Found and run -/

/-- What it comes to that the interpreter of a virtual environment is found at the place `P`, and is to
be run by a command whose directory is at the place `D`. -/
structure Found (c : InterpreterConfig) (fs : FileSystem) (home D P : List String)
    (command : Command) : Prop where
  /-- It is what the command names. -/
  program : command.program = c.candidate command.cwd
  /-- It is named by a path. -/
  slash : '/' ∈ command.program.text.toList
  found : fs.locate home command.program = .ok P
  isThere : ∃ e, fs.at? P = some e
  /-- It is run if one of the directories is absolute, or the one of the command leads nowhere else. -/
  run : command.cwd.isAbsolute = true ∨ c.venvDir.isAbsolute = true ∨
    fs.locate D command.cwd = .ok D → command.place fs home = .ok P
  /-- In no other case, as long as the environment is not said to be above. -/
  run_iff : .parent ∉ c.venvDir.steps → (command.place fs home = .ok P ↔
    command.cwd.isAbsolute = true ∨ c.venvDir.isAbsolute = true ∨ fs.locate D command.cwd = .ok D)
  /-- Otherwise the directory of the command is gone into a second time. -/
  elsewhere : command.cwd.isAbsolute = false → c.venvDir.isAbsolute = false →
    fs.walk (Path.pieces c.inner.text.toList) D = .ok P ∧
      command.place fs home =
        (fs.locate D command.cwd).bind (fs.walk (Path.pieces c.inner.text.toList))
  /-- So it is not run if the directory of the command is one below, and the environment in it. -/
  below : command.cwd.isAbsolute = false → c.venvDir.isAbsolute = false →
    .parent ∉ command.cwd.steps → .parent ∉ c.venvDir.steps → command.cwd.steps ≠ [] →
    command.place fs home ≠ .ok P
  /-- Nothing is started if there is nothing at the place. -/
  started : ∀ (s : Shell.System) (fallback : Shell.System.Fallback) (own : Bool)
    (result : Nat × Nat × Nat × Shell.System), s.files = fs →
    s.spawn home command fallback own = .ok result → ∃ Q, command.place fs home = .ok Q

variable {fs : FileSystem} {home D P : List String} {command : Command}

/-- The process gets into the directory, and looks from there. -/
theorem place_eq (hD : fs.locate home command.cwd = .ok D) (hdirectory : fs.at? D = some .directory) :
    command.place fs home = fs.locate D command.program := by
  simp only [Command.place, hD, enter, hdirectory, bind, Except.bind]

/-- If neither directory is absolute, everything is seen from the directory of the command. -/
theorem locate_candidate {cwd : Path} (hcwd : fs.locate home cwd = .ok D)
    (hfound : fs.locate home (c.candidate cwd) = .ok P) (hvenv : c.venvDir.isAbsolute = false)
    (start : List String) :
    fs.locate start (c.candidate cwd) =
      (fs.locate start cwd).bind (fs.walk (Path.pieces c.inner.text.toList)) := by
  rw [candidate_eq] at hfound ⊢
  exact locate_join (by rw [isAbsolute_inner, hvenv]) (isSpelling_of_locate hcwd)
    (isSpelling_of_locate hfound) start

/-- An environment that is not said to be above is found again only in the same directory. -/
theorem leads_back {cwd : Path} (hparent : .parent ∉ c.venvDir.steps)
    (hwalk : fs.walk (Path.pieces c.inner.text.toList) D = .ok P)
    (hagain : (fs.locate D cwd).bind (fs.walk (Path.pieces c.inner.text.toList)) = .ok P) :
    fs.locate D cwd = .ok D := by
  have hsteps : .parent ∉ c.inner.steps := by simp [steps_inner, hparent]
  cases hcwd : fs.locate D cwd with
  | error e =>
    rw [hcwd] at hagain
    cases hagain
  | ok D' =>
    rw [hcwd] at hagain
    have hP := (eq_append_of_walk hsteps hwalk).symm.trans (eq_append_of_walk hsteps hagain)
    rw [List.append_cancel_right_eq] at hP
    rw [hP]

theorem found_of_candidate (hprogram : command.program = c.candidate command.cwd)
    (hfound : fs.locate home command.program = .ok P) (hentry : ∃ e, fs.at? P = some e)
    (hD : fs.locate home command.cwd = .ok D) (hdirectory : fs.at? D = some .directory) :
    Found c fs home D P command := by
  have hslash : '/' ∈ command.program.text.toList := by
    rw [hprogram]
    exact slash_mem_candidate c _
  have hplace := place_eq hD hdirectory
  have habsolute : command.program.isAbsolute = (command.cwd.isAbsolute || c.venvDir.isAbsolute) := by
    rw [hprogram, candidate_eq, Path.isAbsolute_join, isAbsolute_inner]
  have hsame : command.program.isAbsolute = true → command.place fs home = .ok P := by
    intro h
    rw [hplace, locate_of_isAbsolute h D home, hfound]
  have helsewhere : command.cwd.isAbsolute = false → c.venvDir.isAbsolute = false →
      fs.walk (Path.pieces c.inner.text.toList) D = .ok P ∧
        command.place fs home =
          (fs.locate D command.cwd).bind (fs.walk (Path.pieces c.inner.text.toList)) := by
    intro _ hvenv
    rw [hprogram] at hfound
    have hlocate := locate_candidate hD hfound hvenv
    refine ⟨?_, by rw [hplace, hprogram, hlocate D]⟩
    rw [hlocate home, hD] at hfound
    exact hfound
  have hrun : command.cwd.isAbsolute = true ∨ c.venvDir.isAbsolute = true ∨
      fs.locate D command.cwd = .ok D → command.place fs home = .ok P := by
    rintro (hcwd | hvenv | hleads)
    · exact hsame (by rw [habsolute, hcwd, Bool.true_or])
    · exact hsame (by rw [habsolute, hvenv, Bool.or_true])
    · by_cases hrelative : command.program.isAbsolute = true
      · exact hsame hrelative
      · rw [habsolute, Bool.not_eq_true, Bool.or_eq_false_iff] at hrelative
        obtain ⟨hwalk, heq⟩ := helsewhere hrelative.1 hrelative.2
        rw [heq, hleads]
        exact hwalk
  have hback : command.cwd.isAbsolute = false → c.venvDir.isAbsolute = false →
      .parent ∉ c.venvDir.steps → command.place fs home = .ok P →
        fs.locate D command.cwd = .ok D := by
    intro hcwd hvenv hparent hplaced
    obtain ⟨hwalk, heq⟩ := helsewhere hcwd hvenv
    exact leads_back hparent hwalk (heq ▸ hplaced)
  have hrun_iff : .parent ∉ c.venvDir.steps → (command.place fs home = .ok P ↔
      command.cwd.isAbsolute = true ∨ c.venvDir.isAbsolute = true ∨
        fs.locate D command.cwd = .ok D) := by
    refine fun hparent => ⟨fun hplaced => ?_, hrun⟩
    by_contra hnot
    simp only [not_or, Bool.not_eq_true] at hnot
    exact hnot.2.2 (hback hnot.1 hnot.2.1 hparent hplaced)
  exact {
    program := hprogram
    slash := hslash
    found := hfound
    isThere := hentry
    run := hrun
    run_iff := hrun_iff
    elsewhere := helsewhere
    below := fun hcwd hvenv hin hparent hsteps hplaced =>
      hsteps (steps_eq_nil_of_locate hcwd hin (hback hcwd hvenv hparent hplaced))
    started := fun s fallback own result hs hspawn => hs ▸ Command.place_of_spawn hslash hspawn }

/-- **The interpreter that is found is run from another directory**: by the command that runs the
script, and by the one that asks for the version of the adapter. -/
theorem found_interpreter (x : Runner) (debug : DebugConfig) {r : RunRequest}
    (hpython : x.interpreter.python = none) (hmode : r.mode = .direct)
    (hthere : x.system.files.isThere x.cwd (x.interpreter.candidate r.cwd) = true)
    (hD : x.system.files.locate x.cwd r.cwd = .ok D)
    (hdirectory : x.system.files.at? D = some .directory) :
    ∃ P, Found x.interpreter x.system.files x.cwd D P
        (x.interpreter.commandFor x.system.files x.cwd r) ∧
      Found x.interpreter x.system.files x.cwd D P (Launch.versionCommand x debug r) := by
  have hprogram : (x.interpreter.programFor x.system.files x.cwd r).1 =
      x.interpreter.candidate r.cwd := by
    simp only [programFor, hmode, resolve_of_isThere hpython hthere]
  obtain ⟨P, e, hP, hentry⟩ := isThere_iff.mp hthere
  have hfound : x.system.files.locate x.cwd (x.interpreter.programFor x.system.files x.cwd r).1 =
      .ok P := by rw [hprogram, hP]
  exact ⟨P, found_of_candidate hprogram hfound ⟨e, hentry⟩ hD hdirectory,
    found_of_candidate hprogram hfound ⟨e, hentry⟩ hD hdirectory⟩

/-- A request to run a script in a directory below. -/
def inProj : RunRequest := { script := ⟨"proj/main.py"⟩, cwd := ⟨"proj"⟩ }

/-- There is an environment in that directory, and another in the directory of the same name below. -/
def nested : Runner :=
  .idle {} ⟨[(["w", "proj", ".venv", "bin", "python"], .file [] true),
    (["w", "proj", "proj", ".venv", "bin", "python"], .file [] true)]⟩ ["w"] []

/-- The outer one is found. -/
theorem found_nested : nested.interpreter.python = none ∧
    inProj.mode = .direct ∧
    nested.system.files.isThere nested.cwd (nested.interpreter.candidate inProj.cwd) = true ∧
    nested.system.files.locate nested.cwd inProj.cwd = .ok ["w", "proj"] ∧
    nested.system.files.at? ["w", "proj"] = some .directory ∧
    ∃ P, Found nested.interpreter nested.system.files nested.cwd ["w", "proj"] P
        (nested.interpreter.commandFor nested.system.files nested.cwd inProj) ∧
      Found nested.interpreter nested.system.files nested.cwd ["w", "proj"] P
        (Launch.versionCommand nested {} inProj) :=
  ⟨rfl, rfl, by decide +kernel, by decide +kernel, by decide +kernel,
    found_interpreter nested {} rfl rfl (by decide +kernel) (by decide +kernel) (by decide +kernel)⟩

/-- The inner one is run. -/
theorem other_interpreter_nested : ¬ ∀ (x : Runner) (r : RunRequest) (P : List String),
    x.interpreter.python = none → r.mode = .direct →
    x.system.files.isThere x.cwd (x.interpreter.candidate r.cwd) = true →
    x.system.files.isDirectory x.cwd r.cwd = true →
    x.system.files.locate x.cwd (x.interpreter.candidate r.cwd) = .ok P →
    (x.interpreter.commandFor x.system.files x.cwd r).place x.system.files x.cwd = .ok P := by
  intro h
  have hplace := h nested inProj
    ["w", "proj", ".venv", "bin", "python"] rfl rfl (by decide +kernel) (by decide +kernel)
    (by decide +kernel)
  exact absurd hplace (by decide +kernel)

end InterpreterConfig
end DebugHost
