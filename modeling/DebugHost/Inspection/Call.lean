import DebugHost.Inspection.Tree

/-! # Inspection calls

A call goes through its critical sections one by one: `Tree.join` takes the slot of its question,
`Tree.acquire` looks whether the slot is filled or whether it is this call's turn to ask,
`Tree.deliver` puts the adapter's answer into the slot, and `Tree.confirm` checks at last that the
generation is still the same. Between two of these steps anything may happen to the tree. `Call.step`
puts them together. -/

namespace DebugHost.Inspection

/-- A call that has taken a slot: its generation, its question, the slot. -/
structure Ticket where
  generation : Generation
  key : Key
  slot : Nat
deriving DecidableEq, Repr

/-- How a call stands at its slot. -/
inductive Standing where
  /-- The view is there. -/
  | known (v : View)
  /-- It is this call's turn to ask. -/
  | mine
  /-- Another call asks. -/
  | waiting
deriving Repr

/-- A slot with one more call that waits for it. -/
def Slot.enqueue (s : Slot) (me : Nat) : Slot :=
  if me ∈ s.queue then s else { s with queue := s.queue ++ [me] }

/-- A slot whose holder gives up: the first that waits becomes the holder. -/
def Slot.pass (s : Slot) : Slot × List Nat :=
  match s.queue with
  | [] => ({ s with holder := none }, [])
  | c :: rest => ({ s with holder := some c, queue := rest }, [c])

/-- A slot that is filled: all that wait can go on. -/
def Slot.fill (s : Slot) (v : View) : Slot × List Nat := ({ value := some v }, s.queue)

namespace Tree

/-- Takes the slot of a query. -/
def join (t : Tree) (q : Query) : Except DebugError Ticket × Tree :=
  match t.allow q with
  | .error e => (.error e, t)
  | .ok g =>
    let (n, t) := t.slotFor q.key
    (.ok ⟨g, q.key, n⟩, t)

/-- How the call `me` stands at its slot. The first that comes may ask, later ones wait. -/
def acquire (t : Tree) (me : Nat) (k : Ticket) : Standing × Tree :=
  let s := t.slot k.slot
  match s.value, s.holder with
  | some v, _ => (.known v, t)
  | none, none => (.mine, t.setSlot k.slot { s with holder := some me })
  | none, some h =>
    if h = me then (.mine, t) else (.waiting, t.setSlot k.slot (s.enqueue me))

/-- Checks that a view still holds. -/
def confirm (t : Tree) (g : Generation) (v : View) : Except DebugError View :=
  (t.checkCurrent g).map fun _ => v

/-- Puts the adapter's answer into the slot of the call that asked, and gives the view and the calls
that can go on. A failure is this call's alone: the next one that waits may ask again. -/
def deliver (t : Tree) (k : Ticket) :
    Except DebugError Answer → Except DebugError View × Tree × List Nat
  | .ok a =>
    let v := View.of k.generation a
    let (s, woken) := (t.slot k.slot).fill v
    (.ok v, t.setSlot k.slot s, woken)
  | .error e =>
    let (s, woken) := (t.slot k.slot).pass
    (.error e, t.setSlot k.slot s, woken)

end Tree

/-- Where a call stands. -/
inductive Call where
  /-- Nothing has been done. -/
  | start (q : Query)
  /-- The slot has been taken. -/
  | joined (k : Ticket)
  /-- The adapter has been asked. -/
  | asking (k : Ticket)
  /-- The view is there and has to be checked. -/
  | check (g : Generation) (v : View)
deriving Repr

/-- What a step of a call leads to. -/
inductive Turn where
  /-- The call goes on. -/
  | go (c : Call)
  /-- The call waits for its slot. -/
  | wait (c : Call)
  /-- The call asks the adapter and waits for the answer. -/
  | ask (c : Call) (k : Key)
  /-- The call is over. -/
  | done (r : Except DebugError View)

/-- A step of the call `me`: what it leads to, and the tree afterwards. -/
def Call.step (me : Nat) (tree : Tree) : Call → Turn × Tree
  | .start q =>
    match tree.join q with
    | (.error e, tree) => (.done (.error e), tree)
    | (.ok k, tree) => (.go (.joined k), tree)
  | .joined k =>
    match tree.acquire me k with
    | (.known v, tree) => (.go (.check k.generation v), tree)
    | (.mine, tree) => (.ask (.asking k) k.key, tree)
    | (.waiting, tree) => (.wait (.joined k), tree)
  | .asking k => (.wait (.asking k), tree)
  | .check g v => (.done (tree.confirm g v), tree)

/-- The adapter's answer reaches a call that asked: what it leads to, the tree afterwards, and the
calls that can go on. An answer to a call that did not ask changes nothing. -/
def Call.answered (tree : Tree) (r : Except DebugError Answer) : Call → Turn × Tree × List Nat
  | .asking k =>
    match tree.deliver k r with
    | (.ok v, tree, woken) => (.go (.check k.generation v), tree, woken)
    | (.error e, tree, woken) => (.done (.error e), tree, woken)
  | c => (.wait c, tree, [])

end DebugHost.Inspection
