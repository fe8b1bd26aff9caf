import DebugHost.Proofs.Breakpoints
import DebugHost.Proofs.Protocol
import DebugHost.Session.Calls

/-! # Turns with the record of breakpoints

Who has the record of breakpoints may send one request that replaces the breakpoints of a file, takes
its answer, and leaves the record with what the answer makes of it: with the new breakpoints of the file
if the adapter has agreed, and as it was found if not. Or he only looks at the record and leaves it. One
such turn after the other is the protocol `Replacement.protocol`, to which all that users can call
adheres (`adheres_setAll`, `Within.replacing`). -/

namespace DebugHost

open DebugHost.Session DebugHost.Script DebugHost.Json

/-! ### What a request says -/

/-- The file and the lines in a request that replaces breakpoints. -/
def replaced (v : Value) : Path × Lines :=
  (⟨match (v.member "source").member "path" with
    | .str s => s
    | _ => ""⟩,
   ⟨match v.member "breakpoints" with
    | .arr items => items.map fun b => match b.member "line" with
      | .int n => n
      | _ => 0
    | _ => []⟩)

/-- File and lines can be read off the request. -/
theorem replaced_replacing (p : Path) (lines : Lines) : replaced (replacing p lines) = (p, lines) := by
  have hbreakpoints : (replacing p lines).member "breakpoints" =
      .arr (lines.toList.map fun n => .obj [("line", .int n)]) := rfl
  have hpath : ((replacing p lines).member "source").member "path" = .str p.text := by
    unfold replacing
    cases p.fileName? <;> rfl
  have hlines (ns : List Int) : (ns.map fun n => Value.obj [("line", .int n)]).map (fun b =>
      match b.member "line" with
      | .int n => n
      | _ => 0) = ns := by
    rw [List.map_map]
    exact List.map_id _
  simp only [replaced, hbreakpoints, hpath, hlines]

/-! ### Turns -/

/-- A turn in which the breakpoints of a file were to be replaced. -/
structure Replacement where
  file : Path
  lines : Lines
  /-- The number of the request, unless the connection did not take it. -/
  request : Option Int
  /-- What was told of the request. -/
  answer : Except DebugError SetBreakpointsBody

namespace Replacement

/-- The request that was sent. -/
def sent? (r : Replacement) : Option Request :=
  r.request.map fun seq => ⟨seq, "setBreakpoints", replacing r.file r.lines⟩

/-- What the turn makes of the record. -/
def commit (s : BreakpointSet) (r : Replacement) : BreakpointSet :=
  match r.answer with
  | .ok body => (s.commit r.file r.lines body.breakpoints).2
  | .error _ => s

/-- What is told of the turn: the verified lines, or why there are none. -/
def result (r : Replacement) : Except DebugError Lines :=
  r.answer.map fun body => verifiedLines r.lines body.breakpoints

/-- A turn of which an error is told leaves the whole record as it was. -/
theorem commit_of_error {r : Replacement} {e : DebugError} (h : r.result = .error e)
    (s : BreakpointSet) : commit s r = s := by
  unfold commit
  cases ha : r.answer with
  | error e' => rfl
  | ok body => rw [result, ha] at h; cases h

/-- A turn of which a success is told puts the file into the record as it was asked for, with the
adapter's answer, and tells the verified lines. -/
theorem commit_of_ok {r : Replacement} {verified : Lines} (h : r.result = .ok verified) :
    ∃ answer, r.answer = .ok answer ∧
      ∀ s : BreakpointSet, s.commit r.file r.lines answer.breakpoints = (verified, commit s r) := by
  cases ha : r.answer with
  | error e' => rw [result, ha] at h; cases h
  | ok body =>
    rw [result, ha] at h
    cases h
    exact ⟨body, rfl, fun s => by rw [commit, ha]; rfl⟩

/-- How a task stands to the record of breakpoints. -/
inductive Stand where
  /-- It has not the record. -/
  | apart
  /-- It has the record, which it found like this. -/
  | holds (found : BreakpointSet)
  /-- It has sent the request `seq`. -/
  | asked (found : BreakpointSet) (file : Path) (lines : Lines) (seq : Int)
  /-- It knows what has become of its request. -/
  | told (found : BreakpointSet) (r : Replacement)

/-- The turn that ends with a deed; `none` stands for one in which the record was only looked at. -/
def Stand.ended? : Stand → Deed → Option (Option Replacement)
  | .holds _, ⟨.unlock _, _⟩ => some none
  | .told _ r, ⟨.unlock _, _⟩ => some (some r)
  | _, _ => none

/-- Where a deed leads. -/
def Stand.next : Stand → Deed → Stand
  | .apart, ⟨.lock, s⟩ => .holds s
  | .holds found, ⟨.send _ v, .ok x⟩ => .asked found (replaced v).1 (replaced v).2 x.seq
  | .holds found, ⟨.send _ v, .error e⟩ =>
    .told found ⟨(replaced v).1, (replaced v).2, none, .error e⟩
  | .asked found file lines seq, ⟨.response _, r⟩ =>
    .told found ⟨file, lines, some seq, r.bind (Script.bodyOf "setBreakpoints")⟩
  | .holds _, ⟨.unlock _, _⟩ => .apart
  | .told _ _, ⟨.unlock _, _⟩ => .apart
  | s, _ => s

/-- What a task may attempt: nothing but who has the record sends requests that replace breakpoints, one
in a turn, waits for its answer, and leaves the record as the answer has it. -/
def Stand.may : Stand → Action → Prop
  | .apart, .unlock _ => False
  | .apart, .send command _ => command ≠ "setBreakpoints"
  | .apart, _ => True
  | _, .lock => False
  | .holds found, .unlock s => s = found
  | .holds _, .send command v =>
    command = "setBreakpoints" ∧ ∃ file lines, lines.Rising ∧ v = replacing file lines
  | .asked _ _ _ seq, .response x => x.seq = seq
  | .asked .., .unlock _ => False
  | .told found r, .unlock s => s = r.commit found
  | _, .send .. => False
  | _, _ => True

/-- The turns that a task has had, and how it stands. -/
structure Place where
  past : List (Option Replacement)
  stand : Stand

/-- One turn after the other. -/
def protocol : Protocol Place where
  first := ⟨[], .apart⟩
  may p := p.stand.may
  next p x := ⟨p.past ++ (p.stand.ended? x).toList, p.stand.next x⟩
  rests p := p.stand = .apart

/-! ### Where deeds lead -/

variable {past : List (Option Replacement)} {found : BreakpointSet}

/-- Whether an action is of no matter to the record of breakpoints. -/
def Idle : Action → Prop
  | .lock => False
  | .unlock _ => False
  | .send command _ => command ≠ "setBreakpoints"
  | _ => True

theorem next_within {stand stand' : Stand} {x : Deed} (hended : stand.ended? x = none)
    (hnext : stand.next x = stand') : protocol.next ⟨past, stand⟩ x = ⟨past, stand'⟩ := by
  simp only [protocol, hended, hnext, Option.toList_none, List.append_nil]

theorem next_idle {a : Action} (ha : Idle a) (r : a.Reply) :
    protocol.next ⟨past, .apart⟩ ⟨a, r⟩ = ⟨past, .apart⟩ := by
  cases a with
  | lock => exact ha.elim
  | unlock s => exact ha.elim
  | _ => exact next_within rfl rfl

theorem may_idle {a : Action} (ha : Idle a) : protocol.may ⟨past, .apart⟩ a := by
  cases a with
  | lock => exact ha.elim
  | unlock s => exact ha.elim
  | send command v => exact ha
  | _ => exact trivial

theorem next_lock (s : BreakpointSet) :
    protocol.next ⟨past, .apart⟩ ⟨.lock, s⟩ = ⟨past, .holds s⟩ :=
  next_within rfl rfl

theorem next_sent (command : String) (v : Value) (x : Exchange) :
    protocol.next ⟨past, .holds found⟩ ⟨.send command v, .ok x⟩ =
      ⟨past, .asked found (replaced v).1 (replaced v).2 x.seq⟩ :=
  next_within rfl rfl

theorem next_unsent (command : String) (v : Value) (e : DebugError) :
    protocol.next ⟨past, .holds found⟩ ⟨.send command v, .error e⟩ =
      ⟨past, .told found ⟨(replaced v).1, (replaced v).2, none, .error e⟩⟩ :=
  next_within rfl rfl

theorem next_limit (file : Path) (lines : Lines) (seq : Int) (l : Nat × Duration) :
    protocol.next ⟨past, .asked found file lines seq⟩ ⟨.limit, l⟩ =
      ⟨past, .asked found file lines seq⟩ :=
  next_within rfl rfl

theorem next_response (file : Path) (lines : Lines) (seq : Int) (x : Exchange)
    (r : Except DebugError Response) :
    protocol.next ⟨past, .asked found file lines seq⟩ ⟨.response x, r⟩ =
      ⟨past, .told found ⟨file, lines, some seq, r.bind (Script.bodyOf "setBreakpoints")⟩⟩ :=
  next_within rfl rfl

theorem next_log (t : Replacement) (level : Log.Level) (message : String)
    (fields : List (String × Log.Datum)) (u : Unit) :
    protocol.next ⟨past, .told found t⟩ ⟨.log level message fields, u⟩ = ⟨past, .told found t⟩ :=
  next_within rfl rfl

theorem next_leave (s : BreakpointSet) (u : Unit) :
    protocol.next ⟨past, .holds found⟩ ⟨.unlock s, u⟩ = ⟨past ++ [none], .apart⟩ := rfl

theorem next_unlock (t : Replacement) (s : BreakpointSet) (u : Unit) :
    protocol.next ⟨past, .told found t⟩ ⟨.unlock s, u⟩ = ⟨past ++ [some t], .apart⟩ := rfl

end Replacement

open Replacement

/-! ### Scripts -/

namespace Session

variable {α : Type} {past : List (Option Replacement)} {found : BreakpointSet} {path : Path}
  {lines : Lines}

/-- Scripts that have nothing to do with the record adhere to the protocol. -/
theorem Within.replacing {s : Script α} (hs : s.Within Idle) :
    s.Adheres protocol (fun p _ => p = ⟨past, .apart⟩) ⟨past, .apart⟩ :=
  Within.adheres hs (fun _ ha => ⟨may_idle ha, next_idle ha⟩) fun _ => rfl

/-- It is looked whether the session has ended. -/
theorem adheres_live {goal : Replacement.Place → Except DebugError Unit → Prop}
    (hended : goal ⟨past, .apart⟩ (.error .sessionTerminated)) (hlive : goal ⟨past, .apart⟩ (.ok ())) :
    live.Adheres protocol goal ⟨past, .apart⟩ := by
  refine Adheres.bind (adheres_perform trivial fun s => ?_)
  rw [next_idle (by exact trivial)]
  show goal _ (if s.state = .terminated then _ else _)
  split
  · exact hended
  · exact hlive

/-- Who has the record sends the request and waits for what becomes of it. -/
theorem adheres_requestBody (hlines : lines.Rising) :
    (requestBody "setBreakpoints" (written (setBreakpointsArguments path lines)) :
      Script (Except DebugError SetBreakpointsBody)).Adheres protocol
      (fun p r => ∃ seq?, p = ⟨past, .told found ⟨path, lines, seq?, r⟩⟩) ⟨past, .holds found⟩ := by
  rw [written_setBreakpoints]
  refine Adheres.bind (Adheres.bind (adheres_perform ⟨rfl, path, lines, hlines, rfl⟩ fun sending => ?_))
  cases sending with
  | error e =>
    rw [next_unsent, replaced_replacing]
    exact ⟨none, rfl⟩
  | ok x =>
    rw [next_sent, replaced_replacing]
    refine Adheres.bind (adheres_perform trivial fun limit => ?_)
    rw [next_limit]
    refine adheres_perform rfl fun r => ?_
    rw [next_response]
    exact ⟨some x.seq, rfl⟩

/-- What has come of a call that replaces the breakpoints of a file, when it has come to `r`: the session
had ended before its turn, or it has had just one turn, of which `r` tells. -/
inductive Replaced (past : List (Option Replacement)) (path : Path) (lines : Lines)
    (r : Except DebugError Lines) : Replacement.Place → Prop where
  | refused (error : r = .error .sessionTerminated) : Replaced past path lines r ⟨past, .apart⟩
  | turn (t : Replacement) (file : t.file = path) (asked : t.lines = lines) (result : r = t.result) :
    Replaced past path lines r ⟨past ++ [some t], .apart⟩

/-- **A call that replaces the breakpoints of a file** has one turn, unless the session has ended. -/
theorem adheres_setBreakpoints (past : List (Option Replacement)) (path : Path)
    (hlines : lines.Rising) :
    (setBreakpoints path lines).Adheres protocol (fun p r => Replaced past path lines r p)
      ⟨past, .apart⟩ := by
  refine Adheres.andThen (adheres_live (.refused rfl) ?_)
  refine Adheres.bind (adheres_perform trivial fun found => ?_)
  rw [next_lock]
  refine Adheres.bind ((adheres_requestBody hlines).mono fun p answer hp => ?_)
  obtain ⟨seq?, rfl⟩ := hp
  cases answer with
  | error e =>
    refine Adheres.bind (adheres_perform rfl fun _ => ?_)
    rw [next_unlock]
    exact .turn ⟨path, lines, seq?, .error e⟩ rfl rfl rfl
  | ok body =>
    refine Adheres.bind (adheres_perform trivial fun _ => ?_)
    rw [next_log]
    refine Adheres.bind (adheres_perform rfl fun _ => ?_)
    rw [next_unlock]
    exact .turn ⟨path, lines, seq?, .ok body⟩ rfl rfl rfl

/-- A call that looks at the breakpoints has one turn. -/
theorem adheres_breakpoints (past : List (Option Replacement)) :
    breakpoints.Adheres protocol (fun p _ => p = ⟨past ++ [none], .apart⟩) ⟨past, .apart⟩ := by
  refine Adheres.bind (adheres_perform trivial fun found => ?_)
  rw [next_lock]
  refine Adheres.bind (adheres_perform rfl fun _ => ?_)
  exact next_leave found _

/-- Who replaces the breakpoints of one file after the other has one turn after the other. -/
theorem adheres_setAll {files : List (Path × Lines)} (hfiles : ∀ f ∈ files, f.2.Rising)
    (past : List (Option Replacement)) :
    (setAll files).Adheres protocol (fun p _ => p.stand = .apart) ⟨past, .apart⟩ := by
  induction files generalizing past with
  | nil => exact rfl
  | cons f files ih =>
    have hset := adheres_setBreakpoints past f.1 (hfiles f (List.mem_cons_self ..))
    refine Adheres.andThen (hset.mono fun p r hp => ?_)
    cases r with
    | error e => cases hp <;> rfl
    | ok verified =>
      have hrest := ih fun g hg => hfiles g (List.mem_cons_of_mem _ hg)
      cases hp with
      | refused error => exact hrest past
      | turn t _ _ _ => exact hrest (past ++ [some t])

end Session
end DebugHost
