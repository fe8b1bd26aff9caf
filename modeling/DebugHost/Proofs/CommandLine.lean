import DebugHost.Program
import DebugHost.Proofs.Breakpoints
import DebugHost.Proofs.Path
import Mathlib.Data.List.Induction

/-! # Files of the command line

A command line names a script, a directory for it and files with breakpoints. The program itself runs in
a directory `B`, the script in the directory that the command line gives, as seen from `B`. Files are
handed on as seen from the given directory, and looked for from where the script runs. So a given
directory that is not absolute is gone into twice (`Meaning.twice`), and the files stay what they are
only if they or the directory are absolute, or the directory is no other than `B` (`Meaning.same_iff`).
This is so for the script and for every file with breakpoints (`carried`). -/

namespace DebugHost

/-! ### What a file means -/

/-- What it comes to that a file `f` is handed on as `sent` to a program that was started in a directory
given as `cwd`, and so runs in `home`. -/
structure Meaning (home cwd f sent : Path) : Prop where
  /-- It is the file that was meant, seen from where the program runs, in these cases only. -/
  same_iff : (home.join sent).same (home.join f) = true ↔
    f.isAbsolute = true ∨ cwd.isAbsolute = true ∨ cwd.steps = []
  /-- Otherwise the program goes into the directory a second time. -/
  twice : f.isAbsolute = false → cwd.isAbsolute = false →
    (home.join sent).components = home.components ++ (cwd.steps ++ f.steps)

theorem meaning_join {B : Path} (hB : B.isAbsolute = true) (cwd f : Path) :
    Meaning (B.join cwd) cwd f (cwd.join f) :=
  ⟨Path.same_join_join_iff hB cwd f, fun hf hcwd => Path.components_join_join hB hcwd hf⟩

/-- The spelling makes no difference. -/
theorem Meaning.congr {home cwd f sent sent' : Path} (h : Meaning home cwd f sent)
    (hhome : home.isAbsolute = true) (hsent : sent'.same sent = true) :
    Meaning home cwd f sent' := by
  have hcomponents : (home.join sent').components = (home.join sent).components :=
    Path.components_join_congr hhome (of_decide_eq_true hsent)
  refine ⟨?_, fun hf hcwd => hcomponents.trans (h.twice hf hcwd)⟩
  rw [← h.same_iff, Path.same, Path.same, hcomponents]

/-! ### Breakpoints -/

/-- The lines of breakpoints in a file. -/
def LaunchRequest.lines (r : LaunchRequest) (p : Path) : List Int :=
  ((Path.find? p r.breakpoints).getD .empty).toList

theorem LaunchRequest.mem_lines_withBreakpoint {r : LaunchRequest} {p q : Path} {m n : Int} :
    n ∈ (r.withBreakpoint q m).lines p ↔ (q.same p = true ∧ n = m) ∨ n ∈ r.lines p := by
  simp only [lines, withBreakpoint, Path.find?_insert]
  split
  · next hsame =>
    have hfind : Path.find? q r.breakpoints = Path.find? p r.breakpoints := by
      simp only [Path.find?, Path.same, of_decide_eq_true hsame]
    simp [Lines.insert, mem_insertLine, hfind, hsame]
  · next hsame => simp [hsame]

theorem LaunchRequest.exists_of_mem_lines {r : LaunchRequest} {p : Path} {n : Int}
    (h : n ∈ r.lines p) : ∃ e ∈ r.breakpoints, e.1.same p = true ∧ n ∈ e.2.toList := by
  unfold lines at h
  cases hfind : Path.find? p r.breakpoints with
  | none =>
    rw [hfind] at h
    cases h
  | some l =>
    rw [hfind] at h
    obtain ⟨e, he, rfl⟩ := Option.map_eq_some_iff.mp hfind
    have hsame := List.find?_some he
    exact ⟨e, List.mem_of_find?_eq_some he, hsame, h⟩

namespace Program

variable {run : RunRequest} {stop : Bool}

/-- A file seen from a directory, absolute or not. -/
theorem seen_from (cwd f : Path) : (if f.isAbsolute then f else cwd.join f) = cwd.join f := by
  split
  · next h => exact (Path.join_of_isAbsolute cwd h).symm
  · rfl

theorem launchRequest_concat (bs : List (Path × Int)) (f : Path) (n : Int) :
    launchRequest run (bs ++ [(f, n)]) stop =
      (launchRequest run bs stop).withBreakpoint (run.cwd.join f) n := by
  rw [launchRequest, List.foldl_append, List.foldl_cons, List.foldl_nil, ← launchRequest,
    ← seen_from run.cwd f]

/-- The lines of a file in the request are those that the command line has for it. -/
theorem mem_lines_launchRequest {bs : List (Path × Int)} {p : Path} {n : Int} :
    n ∈ (launchRequest run bs stop).lines p ↔ ∃ f, (f, n) ∈ bs ∧ (run.cwd.join f).same p = true := by
  induction bs using List.reverseRecOn with
  | nil => simp [launchRequest, LaunchRequest.lines, Path.find?, Lines.empty]
  | append_singleton bs b ih =>
    obtain ⟨g, m⟩ := b
    rw [launchRequest_concat, LaunchRequest.mem_lines_withBreakpoint, ih]
    constructor
    · rintro (⟨hsame, rfl⟩ | ⟨f, hf, hsame⟩)
      · exact ⟨g, List.mem_append_right _ (List.mem_singleton.mpr rfl), hsame⟩
      · exact ⟨f, List.mem_append_left _ hf, hsame⟩
    · rintro ⟨f, hf, hsame⟩
      rcases List.mem_append.mp hf with hf | hf
      · exact .inr ⟨f, hf, hsame⟩
      · cases List.mem_singleton.mp hf
        exact .inl ⟨hsame, rfl⟩

/-- Every file in the request is one of the command line. -/
theorem file_of_mem_launchRequest {bs : List (Path × Int)} {e : Path × Lines}
    (h : e ∈ (launchRequest run bs stop).breakpoints) : ∃ f n, (f, n) ∈ bs ∧ e.1 = run.cwd.join f := by
  induction bs using List.reverseRecOn generalizing e with
  | nil => cases h
  | append_singleton bs b ih =>
    obtain ⟨g, m⟩ := b
    rw [launchRequest_concat] at h
    rcases (Path.mem_insert h).1 with hpath | ⟨l, hl⟩
    · exact ⟨g, m, List.mem_append_right _ (List.mem_singleton.mpr rfl), hpath⟩
    · obtain ⟨f, n, hf, hpath⟩ := ih hl
      exact ⟨f, n, List.mem_append_left _ hf, hpath⟩

end Program

/-! ### What is handed on -/

namespace CommandLine

theorem Target.request_script (t : Target) (B : Path) :
    (t.request B).script = (t.cwd.getD B).join t.script :=
  Program.seen_from _ _

/-- What becomes of the files of a command line for the target `t` with the breakpoints `bs`, where the
program runs in `B`: in the command that runs the script, and in the breakpoints that are asked for. -/
structure Carried (B : Path) (t : Target) (bs : List (Path × Int)) (command : Command)
    (asked : List (Path × Lines)) : Prop where
  /-- The script runs in the directory that is given, or else in `B`. -/
  directory : command.cwd = t.cwd.getD B
  /-- The script is the last argument. -/
  script : ∃ s, command.arguments.getLast? = some s ∧
    Meaning (B.join command.cwd) command.cwd t.script ⟨s⟩
  /-- Each breakpoint is asked for in its file. -/
  breakpoint : ∀ f n, (f, n) ∈ bs → ∃ e ∈ asked, n ∈ e.2.toList ∧
    ∃ s, (setBreakpointsArguments e.1 e.2).source.path = some s ∧
      Meaning (B.join command.cwd) command.cwd f ⟨s⟩
  /-- Breakpoints are asked for in no other files. -/
  file : ∀ e ∈ asked, ∃ f n, (f, n) ∈ bs ∧
    ∃ s, (setBreakpointsArguments e.1 e.2).source.path = some s ∧
      Meaning (B.join command.cwd) command.cwd f ⟨s⟩

/-- **Files of the command line are seen from its directory twice**: by the program, which hands them on
as seen from there, and by the script, which runs there. -/
theorem carried {B : Path} (hB : B.isAbsolute = true) (t : Target) (bs : List (Path × Int))
    (stop : Bool) (c : InterpreterConfig) (fs : FileSystem) (home : List String)
    (arguments : List String) :
    Carried B t bs
      (c.commandFor fs home { t.request B with interpreterArguments := arguments })
      (Program.launchRequest (t.request B) bs stop).breakpoints where
  directory := rfl
  script := by
    refine ⟨(t.request B).script.text, List.getLast?_concat .., ?_⟩
    have hmeaning := meaning_join hB (t.cwd.getD B) t.script
    rwa [← t.request_script B] at hmeaning
  breakpoint f n hf := by
    have hlines : n ∈ (Program.launchRequest (t.request B) bs stop).lines ((t.cwd.getD B).join f) :=
      Program.mem_lines_launchRequest.mpr ⟨f, hf, decide_eq_true rfl⟩
    obtain ⟨e, he, hsame, hn⟩ := LaunchRequest.exists_of_mem_lines hlines
    have hhome : (B.join (t.cwd.getD B)).isAbsolute = true := by
      rw [Path.isAbsolute_join, hB, Bool.true_or]
    exact ⟨e, he, hn, e.1.text, rfl, (meaning_join hB (t.cwd.getD B) f).congr hhome hsame⟩
  file e he := by
    obtain ⟨f, n, hf, hpath⟩ := Program.file_of_mem_launchRequest he
    refine ⟨f, n, hf, e.1.text, rfl, ?_⟩
    rw [hpath]
    exact meaning_join hB (t.cwd.getD B) f

/-- A script in a directory below the one where the program runs, with a breakpoint. -/
def below : Target := ⟨⟨"main.py"⟩, some ⟨"proj"⟩, false⟩

/-- It is looked for in a directory of that name below itself. -/
theorem carried_below : (Path.mk "/w").isAbsolute = true ∧
    Carried ⟨"/w"⟩ below [(⟨"lib.py"⟩, 3)]
      (InterpreterConfig.commandFor {} {} ["w"] (below.request ⟨"/w"⟩))
      (Program.launchRequest (below.request ⟨"/w"⟩) [(⟨"lib.py"⟩, 3)] false).breakpoints :=
  ⟨by decide +kernel, carried (by decide +kernel) below _ false {} {} ["w"] []⟩

/-- The script that is run is not always the one that the command line names. -/
theorem other_script_below : ¬ ∀ (B : Path) (t : Target) (c : InterpreterConfig) (fs : FileSystem)
    (home : List String) (s : String), B.isAbsolute = true →
    (c.commandFor fs home (t.request B)).arguments.getLast? = some s →
    ((B.join (t.cwd.getD B)).join ⟨s⟩).same ((B.join (t.cwd.getD B)).join t.script) = true := by
  intro h
  have hsame := h ⟨"/w"⟩ below {} {} ["w"] "proj/main.py" (by decide +kernel) (by decide +kernel)
  exact absurd hsame (by decide +kernel)

end CommandLine
end DebugHost
