import DebugHost.Inspection.Call

/-! # Inspection with answers from outside

Calls that inspect a paused program, and the questions they put, which someone answers one by one.
Calls go on in the order in which they became able to. -/

namespace DebugHost.Inspection

/-- A question that was put. -/
structure Question where
  /-- The call that put it. -/
  call : Nat
  key : Key
  /-- Whether it is still to be answered. -/
  unanswered : Bool := true
deriving DecidableEq, Repr

/-- A tree with the calls that use it. -/
structure Desk where
  tree : Tree := {}
  /-- The calls that are under way. -/
  calls : List (Nat × Call) := []
  /-- The questions that were put, in order. -/
  questions : List Question := []
  /-- The calls that are over, in order. -/
  finished : List (Nat × Except DebugError View) := []

namespace Desk

/-- Lets the call `me` stand at `c`. -/
def put (d : Desk) (me : Nat) (c : Call) : Desk :=
  { d with calls := (d.calls.filter (·.1 != me)) ++ [(me, c)] }

/-- Takes note of what a step of the call `me` led to; the second component tells whether the call
can go on. -/
def note (d : Desk) (me : Nat) : Turn → Desk × Bool
  | .go c => (d.put me c, true)
  | .wait c => (d.put me c, false)
  | .ask c k => ({ d.put me c with questions := d.questions ++ [⟨me, k, true⟩] }, false)
  | .done r =>
    ({ d with calls := d.calls.filter (·.1 != me), finished := d.finished ++ [(me, r)] }, false)

/-- Lets calls go on, in turn, until all of them wait or are over. -/
def run : Nat → List Nat → Desk → Desk
  | 0, _, d => d
  | _, [], d => d
  | fuel + 1, me :: rest, d =>
    match d.calls.find? (·.1 == me) with
    | none => run fuel rest d
    | some (_, c) =>
      let (turn, tree) := c.step me d.tree
      let (d, again) := { d with tree := tree }.note me turn
      run fuel (if again then me :: rest else rest) d

/-- Steps that are enough for the calls `ready`: no call has more than four. -/
def steps (ready : List Nat) : Nat := 5 * ready.length

/-- Begins the call `me`. -/
def ask (d : Desk) (me : Nat) (q : Query) : Desk := run (steps [me]) [me] (d.put me (.start q))

/-- The question numbered `n`, if it is still to be answered. -/
def question? (d : Desk) (n : Nat) : Option Question := d.questions[n]?.filter (·.unanswered)

/-- Answers the question numbered `n`; an answer to no question changes nothing. -/
def answer (d : Desk) (n : Nat) (r : Except DebugError Answer) : Desk :=
  match d.question? n with
  | none => d
  | some q =>
    let d := { d with questions := d.questions.set n { q with unanswered := false } }
    match d.calls.find? (·.1 == q.call) with
    | none => d
    | some (_, c) =>
      let (turn, tree, woken) := c.answered d.tree r
      let (d, again) := { d with tree := tree }.note q.call turn
      let ready := if again then q.call :: woken else woken
      run (steps ready) ready d

/-- Starts a new generation. -/
def advance (d : Desk) (paused : Bool) : Desk := { d with tree := d.tree.advance paused }

/-- Drops everything for good. -/
def close (d : Desk) : Desk := { d with tree := d.tree.close }

end Desk
end DebugHost.Inspection
