/-! # Schedules

Tasks take turns: a task runs until it has to wait, and says then what for. Tasks that can go on
stand in a queue and run in the order in which they became able to; tasks that wait for the same
thing are woken in the order in which they began to wait. -/

namespace DebugHost

/-- A task that waits: for one of some signals, and at most until some time. -/
structure Waiting (σ : Type) where
  task : Nat
  signals : List σ
  deadline : Option Nat

/-- Which tasks can go on and which wait. -/
structure Schedule (σ : Type) where
  /-- The tasks that can go on, in the order of their turns. -/
  ready : List Nat := []
  /-- The tasks that wait, in the order in which they began to. -/
  waiting : List (Waiting σ) := []

namespace Schedule

variable {σ : Type}

/-- Puts a task at the end of the queue. -/
def enqueue (s : Schedule σ) (task : Nat) : Schedule σ := { s with ready := s.ready ++ [task] }

/-- Lets a task wait. -/
def block (s : Schedule σ) (w : Waiting σ) : Schedule σ := { s with waiting := s.waiting ++ [w] }

/-- Moves the waiting tasks that satisfy `p` to the queue. -/
def release (s : Schedule σ) (p : Waiting σ → Bool) : Schedule σ :=
  ⟨s.ready ++ (s.waiting.filter p).map (·.task), s.waiting.filter fun w => !p w⟩

/-- Wakes the tasks that wait for a signal. -/
def wake [DecidableEq σ] (s : Schedule σ) (signal : σ) : Schedule σ :=
  s.release fun w => signal ∈ w.signals

/-- Puts a task in its place by its deadline, behind those of the same deadline. -/
def insertByDeadline (w : Nat × Nat) : List (Nat × Nat) → List (Nat × Nat)
  | [] => [w]
  | v :: rest => if w.1 < v.1 then w :: v :: rest else v :: insertByDeadline w rest

/-- Wakes the tasks whose deadline has come, by their deadlines. -/
def expire (s : Schedule σ) (now : Nat) : Schedule σ :=
  let due := s.waiting.filterMap fun w =>
    match w.deadline with
    | some d => if d ≤ now then some (d, w.task) else none
    | none => none
  let due := due.foldl (fun acc w => insertByDeadline w acc) []
  ⟨s.ready ++ due.map (·.2), s.waiting.filter fun w =>
    match w.deadline with
    | some d => now < d
    | none => true⟩

/-- The first deadline of a task that waits. -/
def nextDeadline? (s : Schedule σ) : Option Nat := (s.waiting.filterMap (·.deadline)).min?

end Schedule
end DebugHost
