import DebugHost.Proofs.Inspection.Asking

/-! # Asking for the threads, step by step

Who asks for the threads of the program sends a request, takes its answer, and makes the answer the
table of threads if it can be read. One such call after the other is the protocol `Threads.counting`, to
which every script adheres that users can call (`adheres_threads`, `Within.counting`): a table is stored
by nobody else. -/

namespace DebugHost

open DebugHost.Session DebugHost.Script DebugHost.Json

namespace Threads

/-- The table that an answer makes, if it can be read. -/
def table? (r : Response) : Option ThreadTable :=
  match (Script.bodyOf "threads" r : Except DebugError ThreadsBody) with
  | .ok body => some (.ofList body.threads)
  | .error _ => none

/-- How far a task is with its call. -/
inductive Stand where
  /-- It does not ask for the threads. -/
  | apart
  /-- It has sent the request `seq`. -/
  | sent (seq : Int)
  /-- It has the answer `r`, which makes this table. -/
  | told (r : Response) (t : ThreadTable)

namespace Stand

/-- Where a deed leads. -/
def next : Stand → Deed → Stand
  | .apart, ⟨.send command _, .ok x⟩ => if command = "threads" then .sent x.seq else .apart
  | .sent _, ⟨.response _, .ok r⟩ => (table? r).elim .apart (.told r)
  | .sent _, ⟨.response _, .error _⟩ => .apart
  | .told .., ⟨.keepThreads _, _⟩ => .apart
  | s, _ => s

/-- What a task may attempt: nothing but who has an answer stores a table, and just the one that the
answer makes. -/
def may : Stand → Action → Prop
  | .apart, .keepThreads _ => False
  | .apart, _ => True
  | .sent _, .limit => True
  | .sent seq, .response x => x.seq = seq
  | .told _ t, .keepThreads u => u = t
  | _, _ => False

end Stand

/-- One call after the other. -/
def counting : Protocol Stand where
  first := .apart
  may := Stand.may
  next := Stand.next
  rests p := p = .apart

/-! ### Where deeds lead -/

/-- Whether an action is of no matter to the table of threads. -/
def Idle : Action → Prop
  | .keepThreads _ => False
  | .send command _ => command ≠ "threads"
  | _ => True

theorem idle_of_neutral {a : Action} (h : Neutral a) : Idle a := by
  cases a with
  | keepThreads t => exact h
  | send command v => intro hc; exact h (by simp [hc])
  | _ => exact trivial

theorem idle_of_passive {a : Action} (h : Passive a) : Idle a := idle_of_neutral (neutral_of_passive h)

theorem next_idle {a : Action} (ha : Idle a) (r : a.Reply) :
    counting.next .apart ⟨a, r⟩ = .apart := by
  cases a with
  | keepThreads t => exact ha.elim
  | send command v =>
    cases r with
    | error e => rfl
    | ok x => exact if_neg ha
  | _ => rfl

theorem may_idle {a : Action} (ha : Idle a) : counting.may .apart a := by
  cases a with
  | keepThreads t => exact ha.elim
  | _ => exact trivial

theorem next_sent (v : Value) (x : Exchange) :
    counting.next .apart ⟨.send "threads" v, .ok x⟩ = .sent x.seq := rfl

theorem next_limit (seq : Int) (l : Nat × Duration) :
    counting.next (.sent seq) ⟨.limit, l⟩ = .sent seq := rfl

theorem next_response (seq : Int) (x : Exchange) (r : Response) :
    counting.next (.sent seq) ⟨.response x, .ok r⟩ = (table? r).elim .apart (.told r) := rfl

theorem next_stored (r : Response) (t u : ThreadTable) (v : Unit) :
    counting.next (.told r t) ⟨.keepThreads u, v⟩ = .apart := rfl

end Threads

open Threads

/-! ### Scripts -/

namespace Session

variable {α : Type}

/-- Scripts that have nothing to do with the table adhere to the protocol. -/
theorem Within.counting {s : Script α} (hs : s.Within Threads.Idle) :
    s.Adheres counting (fun p _ => p = .apart) .apart :=
  Within.adheres hs (fun _ ha => ⟨may_idle ha, next_idle ha⟩) fun _ => rfl

/-- **A call for the threads** stores what its answer makes, and tells it. -/
theorem adheres_threads : threads.Adheres counting (fun p _ => p = .apart) .apart := by
  refine Adheres.andThen ((Within.counting (within_live fun _ => idle_of_passive)).mono fun p r hp => ?_)
  subst hp
  cases r with
  | error e => rfl
  | ok u =>
    refine Adheres.andThen (Adheres.bind (Adheres.bind (adheres_perform trivial fun sending => ?_)))
    cases sending with
    | error e => exact rfl
    | ok x =>
      rw [next_sent]
      refine Adheres.bind (adheres_perform trivial fun limit => ?_)
      rw [next_limit]
      refine adheres_perform rfl fun r => ?_
      cases r with
      | error e => exact rfl
      | ok r =>
        rw [next_response]
        simp only [Except.bind, table?]
        cases (Script.bodyOf "threads" r : Except DebugError ThreadsBody) with
        | error e => exact rfl
        | ok body => exact Adheres.bind (adheres_perform rfl fun u => rfl)

end Session

/-! ### What users can call -/

namespace Threads

variable {ρ : Type}

/-- Whether a script keeps to the protocol, call after call. -/
def Fit (s : Script ρ) : Prop := s.Adheres counting (fun p _ => counting.rests p) counting.first

theorem fit_threads : Fit Session.threads := adheres_threads

theorem fit_of_neutral {s : Script ρ} (hs : s.Within Neutral) : Fit s :=
  Within.counting (hs.mono fun _ => idle_of_neutral)

theorem fit_setBreakpoints (path : Path) (lines : Lines) : Fit (setBreakpoints path lines) :=
  Within.counting (within_setBreakpoints (fun _ => idle_of_passive) trivial (fun _ => trivial)
    (fun _ => by simp [Threads.Idle]) path lines)

theorem fit_breakpoints : Fit breakpoints :=
  Within.counting (within_breakpoints trivial fun _ => trivial)

theorem fit_inspect (q : Inspection.Query) : Fit (inspect q) :=
  Within.counting (within_inspect (fun _ => idle_of_passive) (fun _ => trivial) (fun _ => trivial)
    (fun _ _ => trivial) (fun _ _ => trivial)
    (fun k _ => by cases k <;> simp [Threads.Idle, Inspection.Key.command]) q)

/-- The handshake of a new session stores no table either. -/
theorem fit_handshake (launch : LaunchArguments) (files : List (Path × Lines)) :
    Fit (handshake launch files) :=
  Within.counting (within_handshake (fun _ => idle_of_passive) trivial (fun _ => trivial) trivial
    (fun command hc _ => by
      rintro rfl
      simp at hc) launch files)

end Threads
end DebugHost
