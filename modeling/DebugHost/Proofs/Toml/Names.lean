import DebugHost.Proofs.Record
import DebugHost.Toml.Reader

/-! # The names in a document

A document that is read names none of its values twice, and neither does a table that is one of them
(`allNamed_read`). Every part of the document that is put into what there is either changes the value of a
name in its place, or adds a name that is new. -/

namespace DebugHost.Toml

/-! ### Names -/

/-- The names of members. -/
def names (ms : Members) : List String := ms.map (·.1)

/-- A value that names nothing twice if it is a table. -/
def Named : Value → Prop
  | .table _ ms => (names ms).Nodup
  | _ => True

/-- Members that name nothing twice, and neither do the tables among them. -/
structure AllNamed (ms : Members) : Prop where
  nodup : (names ms).Nodup
  values : ∀ m ∈ ms, Named m.2

theorem allNamed_nil : AllNamed [] := ⟨.nil, List.forall_mem_nil _⟩

variable {name : String} {v : Value} {ms ms' : Members}

/-- The members of a table. -/
def Value.members : Value → Members
  | .table _ ms => ms
  | _ => []

theorem names_members (h : Named v) : (names v.members).Nodup := by
  cases v with
  | table o keys => exact h
  | _ => exact List.nodup_nil

/-- A value is found in any order of members that name nothing twice. -/
theorem lookup?_perm (h : ms'.Perm ms) (hd : (names ms).Nodup) : lookup? name ms' = lookup? name ms := by
  have hknown : (Record.known [name] ms).Nodup := hd.filter _
  refine Record.find_further (List.forall_mem_nil _) ?_ hknown (List.mem_singleton_self name)
  rwa [List.append_nil]

theorem not_mem_of_lookup? (h : lookup? name ms = none) : name ∉ names ms := Record.find_eq_none.mp h

/-! ### New names and new values -/

/-- Members with a new name, or with a new value of a name, which stands in its place or at the end. A new
value is named as well as the old one. -/
inductive Extends (ms : Members) : Members → Prop where
  | add {name : String} {v : Value} (hnew : name ∉ names ms) (hv : Named v) :
    Extends ms (ms ++ [(name, v)])
  | set {name : String} {v w : Value} (hold : lookup? name ms = some w) (hv : Named w → Named v) :
    Extends ms (assign name v ms)
  | move {name : String} {v w : Value} (hold : lookup? name ms = some w) (hv : Named w → Named v) :
    Extends ms (ms.filter (·.1 ≠ name) ++ [(name, v)])

theorem names_assign (h : name ∈ names ms) : names (assign name v ms) = names ms := by
  induction ms with
  | nil => cases h
  | cons m ms ih =>
    obtain ⟨n, w⟩ := m
    rw [assign]
    split
    · rfl
    · next hne =>
      exact congrArg (n :: ·) (ih ((List.mem_cons.mp h).resolve_left (Ne.symm hne)))

theorem mem_assign {m : String × Value} (h : m ∈ assign name v ms) : m = (name, v) ∨ m ∈ ms := by
  induction ms with
  | nil => exact Or.inl (List.mem_singleton.mp h)
  | cons m' ms ih =>
    rw [assign] at h
    split at h
    · next heq =>
      rcases List.mem_cons.mp h with h | h
      · exact Or.inl (heq ▸ h)
      · exact Or.inr (List.mem_cons_of_mem _ h)
    · rcases List.mem_cons.mp h with h | h
      · exact Or.inr (h ▸ List.mem_cons_self ..)
      · exact (ih h).imp_right (List.mem_cons_of_mem _)

theorem nodup_append (h : (names ms).Nodup) (hnew : name ∉ names ms) (v : Value) :
    (names (ms ++ [(name, v)])).Nodup := by
  rw [names, List.map_append]
  refine List.nodup_append.mpr ⟨h, by simp, ?_⟩
  rintro n hn n' hn' rfl
  obtain rfl : n = name := List.mem_singleton.mp hn'
  exact hnew hn

theorem Extends.nodup (h : Extends ms ms') (hms : (names ms).Nodup) : (names ms').Nodup := by
  cases h with
  | add hnew => exact nodup_append hms hnew _
  | set hold =>
    rw [names_assign (List.mem_map_of_mem (Record.mem_of_find hold))]
    exact hms
  | move hold =>
    refine nodup_append (hms.sublist (List.filter_sublist.map _)) (fun hn => ?_) _
    obtain ⟨m, hm, rfl⟩ := List.mem_map.mp hn
    simp at hm

theorem Extends.allNamed (h : Extends ms ms') (hms : AllNamed ms) : AllNamed ms' := by
  refine ⟨h.nodup hms.nodup, fun m hm => ?_⟩
  cases h with
  | add hnew hv =>
    rcases List.mem_append.mp hm with hm | hm
    · exact hms.values m hm
    · exact List.mem_singleton.mp hm ▸ hv
  | set hold hv =>
    rcases mem_assign hm with rfl | hm
    · exact hv (hms.values _ (Record.mem_of_find hold))
    · exact hms.values m hm
  | move hold hv =>
    rcases List.mem_append.mp hm with hm | hm
    · exact hms.values m (List.mem_of_mem_filter hm)
    · exact List.mem_singleton.mp hm ▸ hv (hms.values _ (Record.mem_of_find hold))

/-! ### Parts of a document -/

variable {last : String} {path : List String} {f : Members → Option Members}

theorem insertPair_extends (hv : Named v) (h : insertPair v last path ms = some ms') :
    Extends ms ms' := by
  induction path generalizing ms ms' with
  | nil =>
    rw [insertPair] at h
    split at h
    · cases h
    · next hnew =>
      cases h
      exact .add (not_mem_of_lookup? (Option.not_isSome_iff_eq_none.mp hnew)) hv
  | cons name path ih =>
    rw [insertPair] at h
    split at h
    · next hnew =>
      obtain ⟨inner, hinner, heq⟩ := Option.bind_eq_some_iff.mp h
      cases heq
      exact .add (not_mem_of_lookup? hnew) ((ih hinner).nodup .nil)
    · next inner hold =>
      obtain ⟨inner', hinner, heq⟩ := Option.bind_eq_some_iff.mp h
      cases heq
      exact .set hold (ih hinner).nodup
    · next inner hold =>
      split at h
      · cases h
      · obtain ⟨inner', hinner, heq⟩ := Option.bind_eq_some_iff.mp h
        cases heq
        exact .set hold (ih hinner).nodup
    · next inner before hold =>
      split at h
      · cases h
      · obtain ⟨inner', hinner, heq⟩ := Option.bind_eq_some_iff.mp h
        cases heq
        exact .set hold fun _ => trivial
    · cases h

theorem within_extends (hf : ∀ {ms ms'}, f ms = some ms' → Extends ms ms')
    (h : within f path ms = some ms') : Extends ms ms' := by
  induction path generalizing ms ms' with
  | nil => exact hf h
  | cons name path ih =>
    rw [within] at h
    split at h
    · next hnew =>
      obtain ⟨inner, hinner, heq⟩ := Option.bind_eq_some_iff.mp h
      cases heq
      exact .add (not_mem_of_lookup? hnew) ((ih hinner).nodup .nil)
    · cases h
    · next o inner _ hold =>
      obtain ⟨inner', hinner, heq⟩ := Option.bind_eq_some_iff.mp h
      cases heq
      exact .set hold (ih hinner).nodup
    · next inner before hold =>
      obtain ⟨inner', hinner, heq⟩ := Option.bind_eq_some_iff.mp h
      cases heq
      exact .set hold fun _ => trivial
    · cases h

theorem beginTable_extends (h : beginTable name ms = some ms') : Extends ms ms' := by
  unfold beginTable at h
  split at h
  · next hnew =>
    cases h
    exact .add (not_mem_of_lookup? hnew) .nil
  · next inner hold =>
    cases h
    exact .move hold id
  · cases h

theorem beginTables_extends (h : beginTables name ms = some ms') : Extends ms ms' := by
  unfold beginTables at h
  split at h
  · next hnew =>
    cases h
    exact .add (not_mem_of_lookup? hnew) trivial
  · next last before hold =>
    cases h
    exact .set hold fun _ => trivial
  · cases h

/-- A statement whose value names nothing twice. -/
def Statement.Named : Statement → Prop
  | .pair _ v => Toml.Named v
  | _ => True

theorem apply_extends {header header' : List String} {s : Statement} (hs : s.Named)
    (h : s.apply header ms = some (header', ms')) : Extends ms ms' := by
  cases s with
  | pair key v =>
    obtain ⟨⟨path, last⟩, -, h⟩ := Option.bind_eq_some_iff.mp h
    obtain ⟨ms'', hms, heq⟩ := Option.bind_eq_some_iff.mp h
    cases heq
    exact within_extends (insertPair_extends hs) hms
  | table key =>
    obtain ⟨⟨path, last⟩, -, h⟩ := Option.bind_eq_some_iff.mp h
    obtain ⟨ms'', hms, heq⟩ := Option.bind_eq_some_iff.mp h
    cases heq
    exact within_extends beginTable_extends hms
  | tables key =>
    obtain ⟨⟨path, last⟩, -, h⟩ := Option.bind_eq_some_iff.mp h
    obtain ⟨ms'', hms, heq⟩ := Option.bind_eq_some_iff.mp h
    cases heq
    exact within_extends beginTables_extends hms

theorem allNamed_go {header : List String} {statements : List Statement}
    (hs : ∀ s ∈ statements, s.Named) (hms : AllNamed ms)
    (h : document?.go header ms statements = some ms') : AllNamed ms' := by
  induction statements generalizing header ms with
  | nil =>
    cases h
    exact hms
  | cons s statements ih =>
    obtain ⟨hs, hrest⟩ := List.forall_mem_cons.mp hs
    obtain ⟨⟨header', ms₁⟩, happly, h⟩ := Option.bind_eq_some_iff.mp h
    exact ih hrest ((apply_extends hs happly).allNamed hms) h

/-! ### Values -/

/-- Pairs that are put into members one after the other name nothing twice. -/
theorem nodup_insertPairs {pairs : List (List String × Value)} (hp : ∀ p ∈ pairs, Named p.2)
    (hms : (names ms).Nodup)
    (h : pairs.foldlM (fun ms (key, v) => do
      let (path, last) ← splitKey? key
      insertPair v last path ms) ms = some ms') : (names ms').Nodup := by
  induction pairs generalizing ms with
  | nil =>
    cases h
    exact hms
  | cons p pairs ih =>
    obtain ⟨hv, hrest⟩ := List.forall_mem_cons.mp hp
    rw [List.foldlM_cons] at h
    obtain ⟨ms₁, hfirst, h⟩ := Option.bind_eq_some_iff.mp h
    obtain ⟨⟨path, last⟩, -, hinsert⟩ := Option.bind_eq_some_iff.mp hfirst
    exact ih hrest ((insertPair_extends hv hinsert).nodup hms) h

theorem named_inlineTable {pairs : List (List String × Value)} (hp : ∀ p ∈ pairs, Named p.2)
    (h : inlineTable? pairs = some v) : Named v := by
  obtain ⟨ms, hms, heq⟩ := Option.bind_eq_some_iff.mp h
  cases heq
  exact nodup_insertPairs hp allNamed_nil.nodup hms

theorem named_inRange {n : Int} (h : inRange? n = some v) : Named v := by
  unfold inRange? at h
  split at h
  · cases h
    trivial
  · cases h

theorem named_integer {w : List Char} (h : integer? w = some v) : Named v := by
  unfold integer? at h
  split at h <;>
  · obtain ⟨ds, -, h⟩ := Option.bind_eq_some_iff.mp h
    exact named_inRange h

theorem named_real {w : List Char} (h : real? w = some v) : Named v := by
  -- Whatever a number is refused for, what is read is a number.
  have hfinite : ∀ {p : Bool} {x : Decimal.Binary64},
      (if p then none else some (Value.real x)) = some v → Named v := by
    intro p x h
    split at h
    · cases h
    · cases h
      trivial
  unfold real? at h
  simp only at h
  split at h
  · cases h
    trivial
  · split at h
    · cases h
      trivial
    · obtain ⟨e, -, h⟩ := Option.bind_eq_some_iff.mp h
      obtain ⟨whole, -, h⟩ := Option.bind_eq_some_iff.mp h
      split at h
      · split at h
        · cases h
        · exact hfinite h
      · obtain ⟨ds, -, h⟩ := Option.bind_eq_some_iff.mp h
        exact hfinite h

theorem named_wordValue {w : List Char} (h : wordValue? w = some v) : Named v := by
  unfold wordValue? at h
  split_ifs at h
  · cases h
    trivial
  · cases h
    trivial
  · cases h
    trivial
  · rcases Option.or_eq_some_iff.mp h with h | ⟨-, h⟩
    · exact named_integer h
    · exact named_real h

section

variable {fuel depth : Nat} {cs rest : List Char} {key : List String} {ps : List (List String × Value)}

theorem named_value (ih : ∀ {depth cs ps rest}, pairs? fuel depth cs = some (ps, rest) → ∀ p ∈ ps, Named p.2)
    (h : value? (fuel + 1) depth cs = some (v, rest)) : Named v := by
  rw [value?.eq_def] at h
  simp only at h
  split at h
  · obtain ⟨s, -, heq⟩ := Option.map_eq_some_iff.mp h
    cases heq
    trivial
  · obtain ⟨s, -, heq⟩ := Option.map_eq_some_iff.mp h
    cases heq
    trivial
  · split at h
    · cases h
    · obtain ⟨skipped, -, h⟩ := Option.bind_eq_some_iff.mp h
      obtain ⟨items, -, heq⟩ := Option.bind_eq_some_iff.mp h
      cases heq
      trivial
  · split at h
    · cases h
    · split at h
      · cases h
        exact allNamed_nil.nodup
      · obtain ⟨⟨ps, rest'⟩, hpairs, h⟩ := Option.bind_eq_some_iff.mp h
        obtain ⟨t, htable, heq⟩ := Option.bind_eq_some_iff.mp h
        cases heq
        exact named_inlineTable (ih hpairs) htable
  · obtain ⟨w, hword, heq⟩ := Option.map_eq_some_iff.mp h
    cases heq
    exact named_wordValue hword

theorem named_pair (ih : ∀ {depth cs v rest}, value? fuel depth cs = some (v, rest) → Named v)
    (h : pair? (fuel + 1) depth cs = some (key, v, rest)) : Named v := by
  rw [pair?.eq_def] at h
  simp only at h
  obtain ⟨⟨key', rest'⟩, -, h⟩ := Option.bind_eq_some_iff.mp h
  split at h
  · obtain ⟨⟨v', rest''⟩, hvalue, heq⟩ := Option.bind_eq_some_iff.mp h
    cases heq
    exact ih hvalue
  · cases h

theorem named_pairs (ih : ∀ {depth cs key v rest}, pair? fuel depth cs = some (key, v, rest) → Named v)
    (ihs : ∀ {depth cs ps rest}, pairs? fuel depth cs = some (ps, rest) → ∀ p ∈ ps, Named p.2)
    (h : pairs? (fuel + 1) depth cs = some (ps, rest)) : ∀ p ∈ ps, Named p.2 := by
  rw [pairs?.eq_def] at h
  simp only at h
  obtain ⟨⟨key, v, rest'⟩, hpair, h⟩ := Option.bind_eq_some_iff.mp h
  have hv : Named v := ih hpair
  split at h
  · obtain ⟨⟨ps', rest''⟩, hpairs, heq⟩ := Option.bind_eq_some_iff.mp h
    cases heq
    exact List.forall_mem_cons.mpr ⟨hv, ihs hpairs⟩
  · cases h
    exact List.forall_mem_singleton.mpr hv
  · cases h

/-- Nothing that is read as a value, as a pair or as pairs names anything twice. -/
theorem named_read (fuel : Nat) :
    (∀ {depth cs v rest}, value? fuel depth cs = some (v, rest) → Named v) ∧
      (∀ {depth cs key v rest}, pair? fuel depth cs = some (key, v, rest) → Named v) ∧
      ∀ {depth cs ps rest}, pairs? fuel depth cs = some (ps, rest) → ∀ p ∈ ps, Named p.2 := by
  induction fuel with
  | zero =>
    refine ⟨fun h => ?_, fun h => ?_, fun h => ?_⟩
    · rw [value?] at h
      cases h
    · rw [pair?] at h
      cases h
    · rw [pairs?] at h
      cases h
  | succ fuel ih =>
    obtain ⟨hvalue, hpair, hpairs⟩ := ih
    exact ⟨named_value hpairs, named_pair hvalue, named_pairs hpair hpairs⟩

end

/-! ### Documents -/

theorem named_statement {cs rest : List Char} {s : Statement} (h : statement? cs = some (s, rest)) :
    s.Named := by
  unfold statement? at h
  split at h
  · obtain ⟨k, -, heq⟩ := Option.map_eq_some_iff.mp h
    cases heq
    trivial
  · obtain ⟨k, -, heq⟩ := Option.map_eq_some_iff.mp h
    cases heq
    trivial
  · obtain ⟨⟨k, v, r⟩, hpair, heq⟩ := Option.map_eq_some_iff.mp h
    cases heq
    exact (named_read _).2.1 hpair

theorem named_statements {fuel : Nat} {cs : List Char} {ss : List Statement}
    (h : statements? fuel cs = some ss) : ∀ s ∈ ss, s.Named := by
  induction fuel generalizing cs ss with
  | zero => cases h
  | succ fuel ih =>
    rw [statements?] at h
    obtain ⟨skipped, -, h⟩ := Option.bind_eq_some_iff.mp h
    split at h
    · cases h
      exact List.forall_mem_nil _
    · obtain ⟨⟨s, rest⟩, hs, h⟩ := Option.bind_eq_some_iff.mp h
      obtain ⟨rest', -, h⟩ := Option.bind_eq_some_iff.mp h
      obtain ⟨ss', hss, heq⟩ := Option.bind_eq_some_iff.mp h
      cases heq
      exact List.forall_mem_cons.mpr ⟨named_statement hs, ih hss⟩

/-- **A document that is read names nothing twice.** -/
theorem allNamed_read {text : String} (h : read? text = some ms) : AllNamed ms := by
  obtain ⟨ss, hss, h⟩ := Option.bind_eq_some_iff.mp h
  exact allNamed_go (named_statements hss) allNamed_nil h

end DebugHost.Toml
