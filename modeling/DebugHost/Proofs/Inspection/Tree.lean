import DebugHost.Inspection.Call
import Mathlib.Tactic.SplitIfs

/-! # Trees: what calls leave as it is

The critical sections of a call read the generation of the tree and whether it is paused or closed,
and change nothing of it (`Tree.Alike`). Only `Tree.join` makes slots; the others keep their number and
the questions they belong to (`Tree.SameSlots`). -/

namespace DebugHost.Inspection

/-- Two trees in one generation, paused and closed alike. -/
structure Tree.Alike (t t' : Tree) : Prop where
  generation : t'.generation = t.generation
  paused : t'.paused = t.paused
  closed : t'.closed = t.closed

/-- Two trees with the same slots for the same questions, whatever the slots hold. -/
structure Tree.SameSlots (t t' : Tree) : Prop extends Tree.Alike t t' where
  cache : t'.cache = t.cache
  length : t'.slots.length = t.slots.length

namespace Tree

theorem Alike.refl (t : Tree) : Alike t t := ⟨rfl, rfl, rfl⟩

theorem Alike.trans {t t' t'' : Tree} (h : Alike t t') (h' : Alike t' t'') : Alike t t'' :=
  ⟨h'.generation.trans h.generation, h'.paused.trans h.paused, h'.closed.trans h.closed⟩

theorem SameSlots.refl (t : Tree) : SameSlots t t := ⟨Alike.refl t, rfl, rfl⟩

theorem sameSlots_setSlot (t : Tree) (n : Nat) (s : Slot) : SameSlots t (t.setSlot n s) :=
  ⟨⟨rfl, rfl, rfl⟩, rfl, List.length_set⟩

theorem alike_slotFor (t : Tree) (k : Key) : Alike t (t.slotFor k).2 := by
  unfold slotFor
  split
  · exact Alike.refl t
  · exact ⟨rfl, rfl, rfl⟩

theorem alike_join (t : Tree) (q : Query) : Alike t (t.join q).2 := by
  unfold join
  split
  · exact Alike.refl t
  · exact alike_slotFor t q.key

theorem sameSlots_acquire (t : Tree) (me : Nat) (k : Ticket) : SameSlots t (t.acquire me k).2 := by
  unfold acquire
  simp only
  split
  · exact SameSlots.refl t
  · exact sameSlots_setSlot t _ _
  · split
    · exact SameSlots.refl t
    · exact sameSlots_setSlot t _ _

theorem sameSlots_deliver (t : Tree) (k : Ticket) (r : Except DebugError Answer) :
    SameSlots t (t.deliver k r).2.1 := by
  cases r with
  | ok a => exact sameSlots_setSlot t _ _
  | error e => exact sameSlots_setSlot t _ _

/-! ### Slots -/

theorem slot_setSlot (t : Tree) (n i : Nat) (s : Slot) :
    (t.setSlot n s).slot i = if i = n ∧ n < t.slots.length then s else t.slot i := by
  unfold slot setSlot
  rw [List.getD_eq_getElem?_getD, List.getD_eq_getElem?_getD, List.getElem?_set]
  by_cases h : n = i
  · subst h
    by_cases hn : n < t.slots.length
    · simp [hn]
    · simp [hn]
  · rw [if_neg h, if_neg fun hi => h hi.1.symm]

theorem slot_slotFor (t : Tree) (k : Key) (i : Nat) : (t.slotFor k).2.slot i = t.slot i := by
  unfold slotFor
  split
  · rfl
  · unfold slot
    rw [List.getD_eq_getElem?_getD, List.getD_eq_getElem?_getD, List.getElem?_append]
    split
    · rfl
    · next h =>
      rw [List.getElem?_eq_none (Nat.le_of_not_lt h), List.getElem?_singleton]
      split <;> rfl

/-- The slot of a question is the one it had, or a new one. -/
theorem slotFor_cases (t : Tree) (k : Key) :
    ((k, (t.slotFor k).1) ∈ t.cache ∧ (t.slotFor k).2 = t) ∨
    ((t.slotFor k).1 = t.slots.length ∧
      (t.slotFor k).2.cache = t.cache ++ [(k, t.slots.length)] ∧
      (t.slotFor k).2.slots.length = t.slots.length + 1) := by
  unfold slotFor
  split
  · next k' n h =>
    left
    have hk : k' = k := by simpa using List.find?_some h
    exact ⟨hk ▸ List.mem_of_find?_eq_some h, rfl⟩
  · right
    exact ⟨rfl, rfl, List.length_append⟩

/-- Coming to a slot changes nothing of what it holds. -/
theorem value_acquire (t : Tree) (me : Nat) (k : Ticket) (i : Nat) :
    ((t.acquire me k).2.slot i).value = (t.slot i).value := by
  unfold acquire
  simp only
  split
  · rfl
  · next hv hh =>
    rw [slot_setSlot]
    split
    · next h => rw [h.1]
    · rfl
  · split
    · rfl
    · rw [slot_setSlot]
      split
      · next h =>
        rw [h.1]
        unfold Slot.enqueue
        split <;> rfl
      · rfl

/-- A slot holds only what it held before, and the view of an answer that was delivered to it. -/
theorem value_deliver {t : Tree} {k : Ticket} {r : Except DebugError Answer} {i : Nat} {v : View}
    (h : ((t.deliver k r).2.1.slot i).value = some v) :
    (t.slot i).value = some v ∨ ∃ a, r = .ok a ∧ i = k.slot ∧ v = View.of k.generation a := by
  cases r with
  | ok a =>
    have hd : (t.deliver k (.ok a)).2.1 =
        t.setSlot k.slot { value := some (View.of k.generation a) } := rfl
    rw [hd, slot_setSlot] at h
    split at h
    · next hi => exact Or.inr ⟨a, rfl, hi.1, (Option.some.inj h).symm⟩
    · exact Or.inl h
  | error e =>
    left
    have hd : (t.deliver k (.error e)).2.1 = t.setSlot k.slot (t.slot k.slot).pass.1 := rfl
    have hp : (t.slot k.slot).pass.1.value = (t.slot k.slot).value := by
      unfold Slot.pass
      split <;> rfl
    rw [hd, slot_setSlot] at h
    split at h
    · next hi => rw [hi.1, ← hp]; exact h
    · exact h

/-! ### What a call may do -/

/-- The errors with which a tree refuses a query or a view. -/
inductive Refuses (t : Tree) : DebugError → Prop where
  | closed (hc : t.closed = true) : t.Refuses .sessionTerminated
  | running (hc : t.closed = false) (hp : t.paused = false) : t.Refuses .notPaused
  | stale (hc : t.closed = false) (g : Generation) (hg : g ≠ t.generation) :
    t.Refuses (.staleGeneration g t.generation)

theorem checkCurrent_ok {t : Tree} {g : Generation} {u : Unit} (h : t.checkCurrent g = .ok u) :
    t.closed = false ∧ g = t.generation := by
  unfold checkCurrent at h
  split_ifs at h with hc hg
  exact ⟨by simpa using hc, hg⟩

theorem checkCurrent_error {t : Tree} {g : Generation} {e : DebugError}
    (h : t.checkCurrent g = .error e) : t.Refuses e := by
  unfold checkCurrent at h
  split_ifs at h with hc hg
  · cases h; exact .closed hc
  · cases h; exact .stale (by simpa using hc) g hg

theorem confirm_ok {t : Tree} {g : Generation} {v w : View} (h : t.confirm g v = .ok w) :
    t.closed = false ∧ g = t.generation ∧ w = v := by
  unfold confirm at h
  cases hc : t.checkCurrent g with
  | error e => rw [hc] at h; cases h
  | ok u =>
    rw [hc] at h
    cases h
    obtain ⟨h1, h2⟩ := checkCurrent_ok hc
    exact ⟨h1, h2, rfl⟩

theorem confirm_error {t : Tree} {g : Generation} {v : View} {e : DebugError}
    (h : t.confirm g v = .error e) : t.Refuses e := by
  unfold confirm at h
  cases hc : t.checkCurrent g with
  | error e' => rw [hc] at h; cases h; exact checkCurrent_error hc
  | ok u => rw [hc] at h; cases h

end Tree

/-- The generation of the handle in a query, if there is one. -/
def Query.generation? : Query → Option Generation
  | .stackTrace _ => none
  | .scopes frame => some frame.generation
  | .values reference => some reference.generation

theorem Tree.allow_ok {t : Tree} {q : Query} {g : Generation} (h : t.allow q = .ok g) :
    t.closed = false ∧ g = t.generation ∧ ∀ g', q.generation? = some g' → g' = g := by
  cases q with
  | stackTrace thread =>
    unfold allow at h
    split_ifs at h with hc hp
    cases h
    exact ⟨by simpa using hc, rfl, fun g' hg' => by cases hg'⟩
  | scopes frame =>
    simp only [allow] at h
    cases hc : t.checkCurrent frame.generation with
    | error e => rw [hc] at h; cases h
    | ok u =>
      rw [hc] at h; cases h
      obtain ⟨h1, h2⟩ := checkCurrent_ok hc
      exact ⟨h1, h2, fun g' hg' => (Option.some.inj hg').symm⟩
  | values reference =>
    simp only [allow] at h
    cases hc : t.checkCurrent reference.generation with
    | error e => rw [hc] at h; cases h
    | ok u =>
      rw [hc] at h; cases h
      obtain ⟨h1, h2⟩ := checkCurrent_ok hc
      exact ⟨h1, h2, fun g' hg' => (Option.some.inj hg').symm⟩

theorem Tree.allow_error {t : Tree} {q : Query} {e : DebugError} (h : t.allow q = .error e) :
    t.Refuses e := by
  have hcheck : ∀ g, (t.checkCurrent g).map (fun _ => g) = .error e → t.Refuses e := by
    intro g hg
    cases hc : t.checkCurrent g with
    | error e' => rw [hc] at hg; cases hg; exact checkCurrent_error hc
    | ok u => rw [hc] at hg; cases hg
  cases q with
  | stackTrace thread =>
    unfold allow at h
    split_ifs at h with hc hp
    · cases h; exact .closed hc
    · cases h; exact .running (by simpa using hc) (by simpa using hp)
  | scopes frame => exact hcheck _ h
  | values reference => exact hcheck _ h

/-- A handle of another generation is refused. -/
theorem Tree.allow_stale {t : Tree} {q : Query} {g : Generation} (hq : q.generation? = some g)
    (hg : g ≠ t.generation) :
    t.allow q = .error (if t.closed then .sessionTerminated else .staleGeneration g t.generation) := by
  have hcheck : t.checkCurrent g =
      .error (if t.closed then .sessionTerminated else .staleGeneration g t.generation) := by
    unfold checkCurrent
    rw [if_neg hg]
    split <;> rfl
  cases q with
  | stackTrace thread => cases hq
  | scopes frame =>
    cases hq
    simp only [allow, hcheck, Except.map]
  | values reference =>
    cases hq
    simp only [allow, hcheck, Except.map]

end DebugHost.Inspection
