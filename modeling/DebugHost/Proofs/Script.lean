import DebugHost.Script

/-! # What scripts keep to

The deeds of a script are the actions that it has done, each with its answer, in order. `Script.Obeys`
says of a script after some deeds that, whatever it is told, it attempts only actions that a law allows
after the deeds so far, and comes only to results of which a goal holds. It is shown along the way in
which scripts are put together (`Obeys.bind`, `Obeys.andThen`).

Not every answer has to be reckoned with: who waits for a state is told one of those he waits for, and
who is alone finds the record of breakpoints as he left it (`Script.Plausible`). -/

namespace DebugHost
namespace Script

variable {α β ε : Type}

/-! ### Deeds -/

/-- An action that was done, and its answer. -/
structure Deed where
  action : Action
  reply : action.Reply

/-- The request that was sent. -/
def Deed.request? : Deed → Option Request
  | ⟨.send command arguments, .ok x⟩ => some ⟨x.seq, command, arguments⟩
  | _ => none

/-- The form in which the record of breakpoints was left. -/
def Deed.record? : Deed → Option BreakpointSet
  | ⟨.unlock s, _⟩ => some s
  | _ => none

/-- The requests that were sent, oldest first. -/
def sent (h : List Deed) : List Request := h.filterMap Deed.request?

/-- The record of breakpoints, which was empty before. -/
def record (h : List Deed) : BreakpointSet := h.foldl (fun s x => x.record?.getD s) {}

/-- The adapter has agreed to a request, and this was told. -/
def Agreed (h : List Deed) (seq : Int) : Prop :=
  ∃ x r, (⟨.response x, .ok r⟩ : Deed) ∈ h ∧ x.seq = seq

/-- The session has been seen in another state than the first. -/
def Left (h : List Deed) : Prop :=
  ∃ states deadline s, (⟨.await states deadline, some s⟩ : Deed) ∈ h ∧ s.state ≠ .launching

variable {h h' : List Deed}

theorem sent_append (h h' : List Deed) : sent (h ++ h') = sent h ++ sent h' := List.filterMap_append

theorem sent_toList (h : List Deed) (x : Option Deed) :
    sent (h ++ x.toList) = sent h ++ (x.bind Deed.request?).toList := by
  rw [sent_append]
  cases x with
  | none => rfl
  | some x =>
    simp only [sent, Option.toList_some, List.filterMap_cons, List.filterMap_nil, Option.bind_some]
    cases x.request? <;> rfl

theorem record_snoc (h : List Deed) (x : Deed) : record (h ++ [x]) = x.record?.getD (record h) := by
  simp only [record, List.foldl_append, List.foldl_cons, List.foldl_nil]

theorem Agreed.mono {seq : Int} (ha : Agreed h seq) (hh : h <+: h') : Agreed h' seq := by
  obtain ⟨x, r, hx, hseq⟩ := ha
  exact ⟨x, r, hh.subset hx, hseq⟩

theorem Left.mono (hl : Left h) (hh : h <+: h') : Left h' := by
  obtain ⟨states, deadline, s, hs, hstate⟩ := hl
  exact ⟨states, deadline, s, hh.subset hs, hstate⟩

/-! ### Laws -/

/-- What the one can be told who is alone. -/
def Plausible (h : List Deed) : (a : Action) → a.Reply → Prop
  | .lock, s => s = record h
  | .await states _, some s => s.state ∈ states
  | _, _ => True

/-- Who waits for other states than the first sees the session in another. -/
theorem left_of_await {states : List RunState} {deadline : Option Nat} {s : Status}
    (hs : Plausible h (.await states deadline) (some s)) (hstates : .launching ∉ states) :
    Left (h ++ [⟨.await states deadline, some s⟩]) :=
  ⟨states, deadline, s, List.mem_append_right _ (List.mem_singleton_self _),
    fun hl => hstates (hl ▸ hs)⟩

/-- A script that has done `h` attempts only what the law allows, and comes only to its goal. -/
def Obeys (law : List Deed → Action → Prop) (goal : List Deed → α → Prop) :
    Script α → List Deed → Prop
  | .done a, h => goal h a
  | .act a next, h => law h a ∧ ∀ r, Plausible h a r → (next r).Obeys law goal (h ++ [⟨a, r⟩])

/-- A goal that matters only where there is a success. -/
def IfOk (goal : List Deed → α → Prop) (h : List Deed) : Except ε α → Prop
  | .error _ => True
  | .ok a => goal h a

variable {law : List Deed → Action → Prop} {goal goal' : List Deed → α → Prop}

theorem obeys_perform {a : Action} {goal : List Deed → a.Reply → Prop} (hlaw : law h a)
    (hgoal : ∀ r, Plausible h a r → goal (h ++ [⟨a, r⟩]) r) : (perform a).Obeys law goal h :=
  ⟨hlaw, hgoal⟩

theorem Obeys.mono {s : Script α} (hs : s.Obeys law goal h)
    (hgoal : ∀ h' a, goal h' a → goal' h' a) : s.Obeys law goal' h := by
  induction s generalizing h with
  | done a => exact hgoal h a hs
  | act a next ih => exact ⟨hs.1, fun r hr => ih r (hs.2 r hr)⟩

/-- One script after the other: the goal of the first is that the second keeps to the law. -/
theorem Obeys.bind {s : Script α} {f : α → Script β} {goal : List Deed → β → Prop}
    (hs : s.Obeys law (fun h' a => (f a).Obeys law goal h') h) : (s >>= f).Obeys law goal h := by
  induction s generalizing h with
  | done a => exact hs
  | act a next ih => exact ⟨hs.1, fun r hr => ih r (hs.2 r hr)⟩

/-- The second script is gone through only after a success of the first. -/
theorem Obeys.afterSuccess {s : Script (Except ε α)} {f : α → Script (Except ε β)}
    {goal : List Deed → Except ε β → Prop}
    (hs : s.Obeys law (fun h' r => match r with
      | .error e => goal h' (.error e)
      | .ok a => (f a).Obeys law goal h') h) : (s.andThen f).Obeys law goal h := by
  refine Obeys.bind (hs.mono fun h' r hr => ?_)
  cases r with
  | error e => exact hr
  | ok a => exact hr

theorem Obeys.andThen {s : Script (Except ε α)} {f : α → Script (Except ε β)}
    {goal : List Deed → β → Prop}
    (hs : s.Obeys law (IfOk fun h' a => (f a).Obeys law (IfOk goal) h') h) :
    (s.andThen f).Obeys law (IfOk goal) h := by
  refine Obeys.afterSuccess (hs.mono fun h' r hr => ?_)
  cases r with
  | error e => exact trivial
  | ok a => exact hr

end Script
end DebugHost
