import DebugHost.Json.Value

/-! # The shape of values

How deep arrays and objects are nested in a value, what holds of all its scalars, and what becomes of
both in canonical form: nothing is added, and a value in canonical form is its own canonical form. -/

namespace DebugHost.Json.Value

/-! ### Depth -/

mutual

/-- The levels of arrays and objects of a value. -/
def depth : Value → Nat
  | .arr items => depthOfItems items + 1
  | .obj members => depthOfMembers members + 1
  | _ => 0

/-- The levels of the deepest of some values. -/
def depthOfItems : List Value → Nat
  | [] => 0
  | v :: rest => max (depth v) (depthOfItems rest)

/-- The levels of the deepest value of some members. -/
def depthOfMembers : List (String × Value) → Nat
  | [] => 0
  | (_, v) :: rest => max (depth v) (depthOfMembers rest)

end

theorem depthOfItems_le {vs : List Value} {n : Nat} :
    depthOfItems vs ≤ n ↔ ∀ v ∈ vs, v.depth ≤ n := by
  induction vs with
  | nil => simp [depthOfItems]
  | cons v vs ih => simp [depthOfItems, Nat.max_le, ih]

theorem depthOfMembers_le {ms : List (String × Value)} {n : Nat} :
    depthOfMembers ms ≤ n ↔ ∀ m ∈ ms, m.2.depth ≤ n := by
  induction ms with
  | nil => simp [depthOfMembers]
  | cons m ms ih => simp [depthOfMembers, Nat.max_le, ih]

/-- Induction over a value and the values in it. -/
@[elab_as_elim]
theorem ind {P : Value → Prop} (scalar : ∀ v, v.depth = 0 → P v)
    (arr : ∀ vs, (∀ v ∈ vs, P v) → P (.arr vs))
    (obj : ∀ ms, (∀ m ∈ ms, P m.2) → P (.obj ms)) (v : Value) : P v := by
  induction hn : v.depth using Nat.strongRecOn generalizing v with
  | ind n ih =>
    subst hn
    cases v with
    | arr vs =>
      have hle := depthOfItems_le.mp (Nat.le_refl (depthOfItems vs))
      exact arr vs fun v hv => ih v.depth (Nat.lt_succ_of_le (hle v hv)) v rfl
    | obj ms =>
      have hle := depthOfMembers_le.mp (Nat.le_refl (depthOfMembers ms))
      exact obj ms fun m hm => ih m.2.depth (Nat.lt_succ_of_le (hle m hm)) m.2 rfl
    | _ => exact scalar _ rfl

/-! ### Scalars -/

mutual

/-- Whether all scalars of a value are as `p` says. -/
def every (p : Value → Bool) : Value → Bool
  | .arr items => everyItem p items
  | .obj members => everyMember p members
  | v => p v

/-- Whether all scalars of some values are as `p` says. -/
def everyItem (p : Value → Bool) : List Value → Bool
  | [] => true
  | v :: rest => every p v && everyItem p rest

/-- Whether all scalars of some members are as `p` says. -/
def everyMember (p : Value → Bool) : List (String × Value) → Bool
  | [] => true
  | (_, v) :: rest => every p v && everyMember p rest

end

variable {p q : Value → Bool}

theorem every_arr {vs : List Value} :
    (Value.arr vs).every p = true ↔ ∀ v ∈ vs, v.every p = true := by
  show everyItem p vs = true ↔ _
  induction vs with
  | nil => simp [everyItem]
  | cons v vs ih => simp [everyItem, ih]

theorem every_obj {ms : List (String × Value)} :
    (Value.obj ms).every p = true ↔ ∀ m ∈ ms, m.2.every p = true := by
  show everyMember p ms = true ↔ _
  induction ms with
  | nil => simp [everyMember]
  | cons m ms ih => simp [everyMember, ih]

theorem every_scalar {v : Value} (h : v.depth = 0) : v.every p = p v := by
  cases v with
  | arr vs => exact absurd h (Nat.succ_ne_zero _)
  | obj ms => exact absurd h (Nat.succ_ne_zero _)
  | _ => rfl

/-- What holds of all scalars may be weakened. -/
theorem every_and {r : Value → Bool} (h : ∀ v, p v = true → q v = true → r v = true) {v : Value}
    (hp : v.every p = true) (hq : v.every q = true) : v.every r = true := by
  induction v using ind with
  | scalar v hv =>
    rw [every_scalar hv] at hp hq ⊢
    exact h v hp hq
  | arr vs ih =>
    rw [every_arr] at hp hq ⊢
    exact fun v hv => ih v hv (hp v hv) (hq v hv)
  | obj ms ih =>
    rw [every_obj] at hp hq ⊢
    exact fun m hm => ih m hm (hp m hm) (hq m hm)

/-! ### Canonical form -/

theorem canonical_scalar {v : Value} (h : v.depth = 0) : v.canonical = v := by
  cases v with
  | arr vs => exact absurd h (Nat.succ_ne_zero _)
  | obj ms => exact absurd h (Nat.succ_ne_zero _)
  | _ => rfl

theorem canonicalItems_eq (vs : List Value) : canonicalItems vs = vs.map canonical := by
  induction vs with
  | nil => rfl
  | cons v vs ih => rw [canonicalItems, ih, List.map_cons]

/-- Members that are sorted by name, no name twice. -/
def Sorted (ms : List (String × Value)) : Prop := ms.Pairwise fun m m' => m.1 < m'.1

theorem mem_insertMember {n : String} {v : Value} {ms : List (String × Value)} {m : String × Value}
    (h : m ∈ insertMember n v ms) : m = (n, v) ∨ m ∈ ms := by
  induction ms with
  | nil => exact Or.inl (List.mem_singleton.mp h)
  | cons m' ms ih =>
    rw [insertMember] at h
    split at h
    · exact List.mem_cons.mp h
    · split at h
      · rcases List.mem_cons.mp h with h | h
        · exact Or.inl h
        · exact Or.inr (List.mem_cons_of_mem m' h)
      · rcases List.mem_cons.mp h with h | h
        · exact Or.inr (h ▸ List.mem_cons_self ..)
        · exact (ih h).imp_right (List.mem_cons_of_mem m')

theorem sorted_insertMember {ms : List (String × Value)} (h : Sorted ms) (n : String) (v : Value) :
    Sorted (insertMember n v ms) := by
  induction ms with
  | nil => exact List.pairwise_singleton _ _
  | cons m ms ih =>
    obtain ⟨hm, hms⟩ := List.pairwise_cons.mp h
    rw [insertMember]
    split
    · next hlt =>
      refine List.pairwise_cons.mpr ⟨fun m' hm' => ?_, h⟩
      rcases List.mem_cons.mp hm' with rfl | hm'
      · exact hlt
      · exact String.lt_trans hlt (hm m' hm')
    · next hnlt =>
      split
      · next heq =>
        refine List.pairwise_cons.mpr ⟨fun m' hm' => ?_, hms⟩
        rw [heq]
        exact hm m' hm'
      · next hne =>
        refine List.pairwise_cons.mpr ⟨fun m' hm' => ?_, ih hms⟩
        rcases mem_insertMember hm' with rfl | hm'
        · rcases Std.lt_trichotomy m.1 n with hlt | heq | hgt
          · exact hlt
          · exact absurd heq.symm hne
          · exact absurd hgt hnlt
        · exact hm m' hm'

/-- A member whose name comes after all others goes to the end. -/
theorem insertMember_last {ms : List (String × Value)} {n : String} (v : Value)
    (h : ∀ m ∈ ms, m.1 < n) : insertMember n v ms = ms ++ [(n, v)] := by
  induction ms with
  | nil => rfl
  | cons m ms ih =>
    have hm := h m (List.mem_cons_self ..)
    rw [insertMember, if_neg (String.lt_asymm hm), if_neg, ih fun m' hm' => h m' (.tail m hm')]
    · rfl
    · rintro rfl
      exact String.lt_irrefl _ hm

theorem sorted_canonicalMembers (ms : List (String × Value)) {acc : List (String × Value)}
    (h : Sorted acc) : Sorted (canonicalMembers ms acc) := by
  induction ms generalizing acc with
  | nil => exact h
  | cons m ms ih => exact ih (sorted_insertMember h m.1 m.2.canonical)

theorem mem_canonicalMembers {ms acc : List (String × Value)} {m : String × Value}
    (h : m ∈ canonicalMembers ms acc) : m ∈ acc ∨ ∃ v, (m.1, v) ∈ ms ∧ m.2 = v.canonical := by
  induction ms generalizing acc with
  | nil => exact Or.inl h
  | cons m' ms ih =>
    rcases ih h with h | ⟨v, hv, hm⟩
    · rcases mem_insertMember h with rfl | h
      · exact Or.inr ⟨m'.2, List.mem_cons_self .., rfl⟩
      · exact Or.inl h
    · exact Or.inr ⟨v, List.mem_cons_of_mem m' hv, hm⟩

theorem canonicalMembers_sorted {ms acc : List (String × Value)} (h : Sorted (acc ++ ms))
    (hms : ∀ m ∈ ms, m.2.canonical = m.2) : canonicalMembers ms acc = acc ++ ms := by
  induction ms generalizing acc with
  | nil => exact (List.append_nil acc).symm
  | cons m ms ih =>
    have hacc : ∀ m' ∈ acc, m'.1 < m.1 := fun m' hm' =>
      (List.pairwise_append.mp h).2.2 m' hm' m (List.mem_cons_self ..)
    have happend : acc ++ m :: ms = (acc ++ [m]) ++ ms := by
      rw [List.append_assoc]; rfl
    obtain ⟨n, v⟩ := m
    rw [canonicalMembers, hms (n, v) (List.mem_cons_self ..), insertMember_last v hacc, happend]
    rw [happend] at h
    exact ih h fun m' hm' => hms m' (List.mem_cons_of_mem _ hm')

/-- **Canonical form is its own canonical form.** -/
theorem canonical_canonical (v : Value) : v.canonical.canonical = v.canonical := by
  induction v using ind with
  | scalar v hv => rw [canonical_scalar hv, canonical_scalar hv]
  | arr vs ih =>
    simp only [canonical, canonicalItems_eq, List.map_map]
    exact congrArg Value.arr (List.map_congr_left ih)
  | obj ms ih =>
    have hsorted : Sorted (canonicalMembers ms []) := sorted_canonicalMembers ms .nil
    simp only [canonical]
    refine congrArg Value.obj (canonicalMembers_sorted hsorted fun m hm => ?_)
    rcases mem_canonicalMembers hm with h | ⟨v, hv, hm⟩
    · cases h
    · rw [hm]
      exact ih (m.1, v) hv

theorem every_canonical {v : Value} (h : v.every p = true) : v.canonical.every p = true := by
  induction v using ind with
  | scalar v hv => rw [canonical_scalar hv]; exact h
  | arr vs ih =>
    rw [every_arr] at h
    rw [canonical, canonicalItems_eq, every_arr]
    intro w hw
    obtain ⟨v, hv, rfl⟩ := List.mem_map.mp hw
    exact ih v hv (h v hv)
  | obj ms ih =>
    rw [every_obj] at h
    rw [canonical, every_obj]
    intro m hm
    rcases mem_canonicalMembers hm with hm | ⟨v, hv, hm⟩
    · cases hm
    · rw [hm]
      exact ih (m.1, v) hv (h (m.1, v) hv)

theorem depth_canonical_le (v : Value) : v.canonical.depth ≤ v.depth := by
  induction v using ind with
  | scalar v hv => exact Nat.le_of_eq (congrArg depth (canonical_scalar hv))
  | arr vs ih =>
    rw [canonical, canonicalItems_eq]
    refine Nat.succ_le_succ (depthOfItems_le.mpr fun w hw => ?_)
    obtain ⟨v, hv, rfl⟩ := List.mem_map.mp hw
    exact Nat.le_trans (ih v hv) (depthOfItems_le.mp (Nat.le_refl _) v hv)
  | obj ms ih =>
    rw [canonical]
    refine Nat.succ_le_succ (depthOfMembers_le.mpr fun m hm => ?_)
    rcases mem_canonicalMembers hm with hm | ⟨v, hv, hm⟩
    · cases hm
    · rw [hm]
      exact Nat.le_trans (ih (m.1, v) hv) (depthOfMembers_le.mp (Nat.le_refl _) (m.1, v) hv)

end DebugHost.Json.Value
