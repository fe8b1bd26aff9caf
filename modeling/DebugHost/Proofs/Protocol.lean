import DebugHost.Proofs.Script
import Mathlib.Data.List.Induction

/-! # Protocols

A protocol says where a task can be, what it may attempt there and where each of its deeds takes it. A
script adheres to a protocol if, whatever it is told, it attempts only what is allowed where it is, and
comes to its results only where a goal holds (`Script.Adheres`). This is shown along the way in which
scripts are put together (`Adheres.bind`, `Adheres.andThen`); a script whose actions are all of no
matter to a protocol stays where it is (`Within.adheres`).

Nothing is assumed of the answers, so that a task adheres to its protocol whatever others do beside
it. -/

namespace DebugHost

open Script

variable {P α β ε : Type}

/-- What tasks keep to. -/
structure Protocol (P : Type) where
  /-- Where a task is that has done nothing. -/
  first : P
  /-- What a task may attempt. -/
  may : P → Action → Prop
  /-- Where a deed takes a task. -/
  next : P → Deed → P
  /-- Whether a task may be over. -/
  rests : P → Prop

/-- Where a task is after some deeds. -/
def Protocol.place (π : Protocol P) (h : List Deed) : P := h.foldl π.next π.first

@[simp] theorem Protocol.place_nil (π : Protocol P) : π.place [] = π.first := rfl

@[simp] theorem Protocol.place_snoc (π : Protocol P) (h : List Deed) (x : Deed) :
    π.place (h ++ [x]) = π.next (π.place h) x := by
  simp only [place, List.foldl_append, List.foldl_cons, List.foldl_nil]

namespace Script

/-- A script at a place attempts only what the protocol allows, and comes only to its goal. -/
def Adheres (π : Protocol P) (goal : P → α → Prop) : Script α → P → Prop
  | .done a, p => goal p a
  | .act a next, p => π.may p a ∧ ∀ r, (next r).Adheres π goal (π.next p ⟨a, r⟩)

variable {π : Protocol P} {goal goal' : P → α → Prop} {p : P}

theorem adheres_perform {a : Action} {goal : P → a.Reply → Prop} (hmay : π.may p a)
    (hgoal : ∀ r, goal (π.next p ⟨a, r⟩) r) : (perform a).Adheres π goal p :=
  ⟨hmay, hgoal⟩

theorem Adheres.mono {s : Script α} (hs : s.Adheres π goal p) (h : ∀ p a, goal p a → goal' p a) :
    s.Adheres π goal' p := by
  induction s generalizing p with
  | done a => exact h p a hs
  | act a next ih => exact ⟨hs.1, fun r => ih r (hs.2 r)⟩

/-- One script after the other: the goal of the first is that the second adheres. -/
theorem Adheres.bind {s : Script α} {f : α → Script β} {goal : P → β → Prop}
    (hs : s.Adheres π (fun p a => (f a).Adheres π goal p) p) : (s >>= f).Adheres π goal p := by
  induction s generalizing p with
  | done a => exact hs
  | act a next ih => exact ⟨hs.1, fun r => ih r (hs.2 r)⟩

/-- The result of a script is only looked at from another side. -/
theorem Adheres.map {s : Script α} {f : α → β} {goal : P → β → Prop}
    (hs : s.Adheres π (fun p a => goal p (f a)) p) : (f <$> s).Adheres π goal p :=
  Adheres.bind hs

/-- A result that is looked at as it is. -/
theorem map_same (s : Script α) : (fun a => a) <$> s = s := by
  induction s with
  | done a => rfl
  | act a next ih => exact congrArg (Script.act a) (funext ih)

/-- The second script is gone through only after a success of the first. -/
theorem Adheres.andThen {s : Script (Except ε α)} {f : α → Script (Except ε β)}
    {goal : P → Except ε β → Prop}
    (hs : s.Adheres π (fun p r => match r with
      | .error e => goal p (.error e)
      | .ok a => (f a).Adheres π goal p) p) : (s.andThen f).Adheres π goal p := by
  refine Adheres.bind (hs.mono fun p r hr => ?_)
  cases r with
  | error e => exact hr
  | ok a => exact hr

/-! ### Scripts of no matter to a protocol -/

/-- All actions of a script are of some kind. -/
def Within (kind : Action → Prop) : Script α → Prop
  | .done _ => True
  | .act a next => kind a ∧ ∀ r, (next r).Within kind

variable {kind : Action → Prop}

theorem within_perform {a : Action} (h : kind a) : (perform a).Within kind := ⟨h, fun _ => trivial⟩

theorem Within.mono {kind' : Action → Prop} {s : Script α} (hs : s.Within kind)
    (h : ∀ a, kind a → kind' a) : s.Within kind' := by
  induction s with
  | done a => exact trivial
  | act a next ih => exact ⟨h a hs.1, fun r => ih r (hs.2 r)⟩

theorem Within.bind {s : Script α} {f : α → Script β} (hs : s.Within kind)
    (hf : ∀ a, (f a).Within kind) : (s >>= f).Within kind := by
  induction s with
  | done a => exact hf a
  | act a next ih => exact ⟨hs.1, fun r => ih r (hs.2 r)⟩

theorem Within.andThen {s : Script (Except ε α)} {f : α → Script (Except ε β)} (hs : s.Within kind)
    (hf : ∀ a, (f a).Within kind) : (s.andThen f).Within kind := by
  refine Within.bind hs fun r => ?_
  cases r with
  | error e => exact trivial
  | ok a => exact hf a

/-- Actions that are allowed at a place and do not lead away from it leave a task there. -/
theorem Within.adheres {s : Script α} (hs : s.Within kind)
    (hkind : ∀ a, kind a → π.may p a ∧ ∀ r, π.next p ⟨a, r⟩ = p) (hgoal : ∀ a, goal p a) :
    s.Adheres π goal p := by
  induction s with
  | done a => exact hgoal a
  | act a next ih =>
    obtain ⟨hmay, hnext⟩ := hkind a hs.1
    exact ⟨hmay, fun r => (hnext r).symm ▸ ih r (hs.2 r)⟩

/-- Where all that a script does is allowed anywhere, it adheres to the protocol from any place. -/
theorem Within.adheres_anywhere {s : Script α} (hs : s.Within kind) (hkind : ∀ p a, kind a → π.may p a)
    (hgoal : ∀ p a, goal p a) : s.Adheres π goal p := by
  induction s generalizing p with
  | done a => exact hgoal p a
  | act a next ih => exact ⟨hkind p a hs.1, fun r => ih r (hs.2 r)⟩

end Script

/-! ### Protocols for any script -/

/-- A task may do all that is of a kind, and nothing else. -/
def Protocol.only (kind : Action → Prop) : Protocol Unit where
  first := ()
  may _ := kind
  next _ _ := ()
  rests _ := True

theorem Script.Within.only {kind : Action → Prop} {s : Script α} (hs : s.Within kind) :
    s.Adheres (.only kind) (fun _ _ => True) () :=
  hs.adheres (fun _ ha => ⟨ha, fun _ => rfl⟩) fun _ => trivial

/-- A task may do anything, and where it is tells all that it has done. -/
def Protocol.trail : Protocol (List Deed) where
  first := []
  may _ _ := True
  next h x := h ++ [x]
  rests _ := True

theorem Script.adheres_trail {goal : List Deed → α → Prop} (s : Script α) (h : List Deed)
    (hgoal : ∀ h a, goal h a) : s.Adheres .trail goal h := by
  induction s generalizing h with
  | done a => exact hgoal h a
  | act a next ih => exact ⟨trivial, fun r => ih r _⟩

theorem Protocol.place_trail (h : List Deed) : trail.place h = h := by
  induction h using List.reverseRecOn with
  | nil => rfl
  | append_singleton h x ih =>
    rw [place_snoc, ih]
    rfl

end DebugHost
