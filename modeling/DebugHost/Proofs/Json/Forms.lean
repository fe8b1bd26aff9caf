import DebugHost.Json.Field
import DebugHost.Proofs.Json.Shape
import DebugHost.Proofs.Record

/-! # Variations of what is written

What is written of a structure may be varied without a change of what is read (`Form.Varies`): the members
of an object may stand in another order and among members of other names, and a field that was left out may
be given as `null` if it is optional. A reader survives this for all that is written of its structures
(`Survives`) if its record restores them field by field (`survives_record`). -/

namespace DebugHost.Json

open DebugHost.Text

/-! ### Forms -/

/-- Where in a value something may be varied. -/
inductive Form where
  /-- Nowhere. -/
  | plain
  /-- In the items of an array. -/
  | list (item : Form)
  /-- In an object with the fields `names`, of which those in `optional` may be given as `null`, and in
  the values of its fields. -/
  | record (names optional : List String) (inside : String → Form)

/-- Members that vary others: the values of these vary by `R`, some of the names in `optional` that are not
given are given as `null`, members of names that are no field are added, and all are in any order. -/
inductive MembersVary (names optional : List String) (R : String → Value → Value → Prop)
    (ms : List (String × Value)) : List (String × Value) → Prop where
  | mk (ms' : List (String × Value)) (nulls : List String) (extra : List (String × Value))
    {ns : List (String × Value)}
    (given : List.Forall₂ (fun m m' => m'.1 = m.1 ∧ R m.1 m.2 m'.2) ms ms') (once : nulls.Nodup)
    (absent : ∀ n ∈ nulls, n ∈ optional ∧ n ∉ ms.map (·.1)) (further : ∀ x ∈ extra, x.1 ∉ names)
    (order : ns.Perm (ms' ++ nulls.map (·, .null) ++ extra)) : MembersVary names optional R ms ns

/-- The second value varies the first where the form allows it. -/
def Form.Varies : Form → Value → Value → Prop
  | .plain, v, v' => v' = v
  | .list item, v, v' =>
    v' = v ∨ ∃ vs vs', v = .arr vs ∧ v' = .arr vs' ∧ List.Forall₂ item.Varies vs vs'
  | .record names optional inside, v, v' =>
    v' = v ∨ ∃ ms ns, v = .obj ms ∧ v' = .obj ns ∧
      MembersVary names optional (fun n => (inside n).Varies) ms ns

/-- What is given for a field that varies what was given, if anything. -/
inductive Form.Kept (f : Form) (optional : Prop) : Option Value → Option Value → Prop where
  | given {v v' : Value} (h : f.Varies v v') : Form.Kept f optional (some v) (some v')
  | absent : Form.Kept f optional none none
  | null (h : optional) : Form.Kept f optional none (some .null)

/-- Nothing has to be varied. -/
theorem Form.Varies.refl (f : Form) (v : Value) : f.Varies v v := by
  cases f with
  | plain => rfl
  | list item => exact Or.inl rfl
  | record names optional inside => exact Or.inl rfl

/-- Nothing but `null` varies `null`. -/
theorem Form.Varies.null_iff {f : Form} {v v' : Value} (h : f.Varies v v') : v = .null ↔ v' = .null := by
  cases f with
  | plain => rw [show v' = v from h]
  | list item =>
    rcases h with rfl | ⟨vs, vs', rfl, rfl, -⟩
    · exact Iff.rfl
    · exact iff_of_false nofun nofun
  | record names optional inside =>
    rcases h with rfl | ⟨ms, ns, rfl, rfl, -⟩
    · exact Iff.rfl
    · exact iff_of_false nofun nofun

section

variable {names optional : List String} {inside : String → Form} {ms ns : List (String × Value)}

theorem find_nulls {nulls : List String} {n : String} :
    Record.find (nulls.map (·, Value.null)) n = if n ∈ nulls then some .null else none := by
  induction nulls with
  | nil => rfl
  | cons k nulls ih =>
    rw [List.map_cons, Record.find_cons, ih]
    by_cases hk : k = n
    · simp [hk]
    · simp [hk, Ne.symm hk]

theorem MembersVary.refl (ms : List (String × Value)) :
    MembersVary names optional (fun n => (inside n).Varies) ms ms :=
  .mk ms [] [] (List.forall₂_same.mpr fun m _ => ⟨rfl, .refl (inside m.1) m.2⟩) .nil
    (List.forall_mem_nil _) (List.forall_mem_nil _) (by simp)

/-- The names of the members that are given and of those that are given as `null`. -/
theorem names_given {R : String → Value → Value → Prop} {ms' : List (String × Value)} (nulls : List String)
    (h : List.Forall₂ (fun m m' => m'.1 = m.1 ∧ R m.1 m.2 m'.2) ms ms') :
    (ms' ++ nulls.map (·, Value.null)).map (·.1) = ms.map (·.1) ++ nulls := by
  induction h with
  | nil => simp [Function.comp_def]
  | cons hm _ ih => rw [List.cons_append, List.map_cons, ih, hm.1]; rfl

/-- Members that vary others give for every field what varies what these give, and no field twice. -/
theorem MembersVary.kept (h : MembersVary names optional (fun n => (inside n).Varies) ms ns)
    (hd : (ms.map (·.1)).Nodup) : (Record.known names ns).Nodup ∧
      ∀ n ∈ names, (inside n).Kept (n ∈ optional) (Record.find ms n) (Record.find ns n) := by
  obtain ⟨ms', nulls, extra, given, once, absent, further, order⟩ := h
  have hnames : ((ms' ++ nulls.map (·, Value.null)).map (·.1)).Nodup := by
    rw [names_given (R := fun n => (inside n).Varies) nulls given]
    refine List.nodup_append.mpr ⟨hd, once, fun n hn n' hn' heq => ?_⟩
    exact (absent n' hn').2 (heq ▸ hn)
  have hgiven : (Record.known names (ms' ++ nulls.map (·, Value.null))).Nodup := hnames.filter _
  refine ⟨(Record.known_further further order).nodup_iff.mpr hgiven, fun n hn => ?_⟩
  rw [Record.find_further further order hgiven hn, Record.find_append, find_nulls]
  have hrel := Record.find_related (R := fun n => (inside n).Varies) given n
  generalize Record.find ms n = o at hrel
  generalize Record.find ms' n = o' at hrel
  cases hrel with
  | some h => exact .given h
  | none =>
    rw [Option.none_or]
    split
    · next hnull => exact .null (absent n hnull).1
    · exact .absent

end

/-! ### Readers that survive variations -/

/-- Whether a scalar is no whole number, or one of 64 bits. -/
def isInt64 : Value → Bool
  | .int n => Integer.Range.int64.holds n
  | _ => true

variable {α β : Type}

/-- What is written of something is read as the same however it is varied, if its whole numbers are of 64
bits. -/
def Survives (write : α → Value) (f : Form) (read : Field α) : Prop :=
  ∀ a v, (write a).every isInt64 = true → f.Varies (write a) v → read v = .ok a

theorem survives_int64 : Survives .int .plain Field.int64 := by
  rintro n _ hn rfl
  exact if_pos hn

theorem survives_string : Survives .str .plain Field.string := by
  rintro s _ - rfl
  rfl

theorem survives_bool : Survives .bool .plain Field.bool := by
  rintro b _ - rfl
  rfl

variable {write : α → Value} {f : Form} {read : Field α}

theorem Survives.all (h : Survives write f read) {as : List α} {vs : List Value}
    (hn : ∀ a ∈ as, (write a).every isInt64 = true) (hvs : List.Forall₂ f.Varies (as.map write) vs) :
    Field.all read vs = .ok as := by
  induction as generalizing vs with
  | nil =>
    cases hvs
    rfl
  | cons a as ih =>
    cases hvs with
    | cons hv hvs =>
      obtain ⟨ha, has⟩ := List.forall_mem_cons.mp hn
      simp only [Field.all, h a _ ha hv, ih has hvs]
      rfl

theorem Survives.list (h : Survives write f read) :
    Survives (fun as => .arr (as.map write)) (.list f) (Field.list read) := by
  intro as v hn hv
  have hitems : ∀ a ∈ as, (write a).every isInt64 = true := fun a ha =>
    Value.every_arr.mp hn (write a) (List.mem_map_of_mem ha)
  rcases hv with rfl | ⟨_, vs, ⟨⟩, rfl, hvs⟩
  · exact h.all hitems (List.forall₂_same.mpr fun v _ => .refl f v)
  · exact h.all hitems hvs

theorem Survives.nullable (h : Survives write f read) (hnull : ∀ a, write a ≠ .null) :
    Survives (orNull write) f (Field.nullable read) := by
  intro o v hn hv
  cases o with
  | none =>
    obtain rfl := hv.null_iff.mp rfl
    rfl
  | some a =>
    unfold Field.nullable
    split
    · exact absurd (hv.null_iff.mpr rfl) (hnull a)
    · rw [h a v hn hv]
      rfl

/-! ### Structures -/

/-- A record restores a structure from the members `ms` that are written for it, and from what varies them:
fields in `optional` may be given as `null`, and the values of fields may be varied by their `forms`. -/
structure Restores (optional : List String) (forms : List (String × Form)) (r : Record Value α)
    (ms : List (String × Value)) (a : α) : Prop where
  exact : r.Exact
  names : (ms.map (·.1)).Sublist r.names
  build : ∀ inside : String → Form, (∀ p ∈ forms, inside p.1 = p.2) → r.names.Nodup →
    (∀ m ∈ ms, m.2.every isInt64 = true) → ∀ get : String → Option Value,
    (∀ n ∈ r.names, (inside n).Kept (n ∈ optional) (Record.find ms n) (get n)) → r.build get = .ok a

section

variable {optional : List String} {forms forms' : List (String × Form)} {n : String} {a : α}

theorem restores_required (h : Survives write f read) :
    Restores optional [(n, f)] (.required n read) [(n, write a)] a where
  exact := Record.exact_required n read
  names := .refl _
  build inside hf _ hn get hget := by
    have hk := hget n (List.mem_singleton_self n)
    rw [Record.find_cons, if_pos rfl, hf _ (List.mem_singleton_self _)] at hk
    generalize hv : get n = o at hk
    cases hk with
    | given h' => exact Record.build_required.mpr ⟨_, hv, h a _ (hn _ (List.mem_singleton_self _)) h'⟩

theorem restores_defaulted (h : Survives write f read) (d : α) :
    Restores optional [(n, f)] (.defaulted n d read) [(n, write a)] a where
  exact := Record.exact_defaulted n d read
  names := .refl _
  build inside hf _ hn get hget := by
    have hk := hget n (List.mem_singleton_self n)
    rw [Record.find_cons, if_pos rfl, hf _ (List.mem_singleton_self _)] at hk
    generalize hv : get n = o at hk
    cases hk with
    | given h' =>
      exact Record.build_defaulted.mpr (Or.inr ⟨_, hv, h a _ (hn _ (List.mem_singleton_self _)) h'⟩)

/-- A field that is left out when it is absent. -/
theorem restores_optional (h : Survives write f read) (hnull : ∀ a, write a ≠ .null) {o : Option α} :
    Restores optional [(n, f)] (.defaulted n none (Field.nullable read)) (optionalMember n write o) o := by
  cases o with
  | some a => exact restores_defaulted (a := some a) (h.nullable hnull) none
  | none =>
    refine ⟨Record.exact_defaulted .., List.nil_sublist _, fun inside _ _ _ get hget => ?_⟩
    have hk := hget n (List.mem_singleton_self n)
    rw [optionalMember, Record.find_nil] at hk
    generalize hv : get n = o at hk
    cases hk with
    | absent => exact Record.build_defaulted.mpr (Or.inl ⟨hv, rfl⟩)
    | null => exact Record.build_defaulted.mpr (Or.inr ⟨_, hv, rfl⟩)

variable {r : Record Value α} {ms ms' : List (String × Value)}

theorem Restores.map (h : Restores optional forms r ms a) (g : α → β) :
    Restores optional forms (g <$> r) ms (g a) where
  exact := have := h.exact; inferInstance
  names := h.names
  build inside hf hd hn get hget := Record.build_map.mpr ⟨a, h.build inside hf hd hn get hget, rfl⟩

theorem Restores.seq {s : Record Value (α → β)} {g : α → β} (hs : Restores optional forms s ms g)
    (h : Restores optional forms' r ms' a) :
    Restores optional (forms ++ forms') (s <*> r) (ms ++ ms') (g a) where
  exact := have := hs.exact; have := h.exact; inferInstance
  names := by
    rw [List.map_append]
    exact hs.names.append h.names
  build inside hf hd hn get hget := by
    obtain ⟨hfs, hfr⟩ := List.forall_mem_append.mp hf
    obtain ⟨hds, hdr, hdisjoint⟩ := List.nodup_append.mp hd
    obtain ⟨hns, hnr⟩ := List.forall_mem_append.mp hn
    refine Record.build_seq.mpr ⟨g, hs.build inside hfs hds hns get fun n hn => ?_, a,
      h.build inside hfr hdr hnr get fun n hn => ?_, rfl⟩
    · have hother : n ∉ ms'.map (·.1) := fun hn' => hdisjoint n hn n (h.names.subset hn') rfl
      have hk := hget n (List.mem_append_left _ hn)
      rwa [Record.find_append, Record.find_eq_none.mpr hother, Option.or_none] at hk
    · have hother : n ∉ ms.map (·.1) := fun hn' => hdisjoint n (hs.names.subset hn') n hn rfl
      have hk := hget n (List.mem_append_right _ hn)
      rwa [Record.find_append, Record.find_eq_none.mpr hother, Option.none_or] at hk

end

/-- The form of a structure of which the fields in `optional` may be given as `null`, and the values of
fields may be varied as `inside` tells. -/
def Form.of (α : Type) [Typed α] (optional : List String) (inside : String → Form) : Form :=
  .record (Typed.record (α := α)).names optional inside

/-- The form of a structure in which no field has parts. -/
def Form.flat (α : Type) [Typed α] (optional : List String) : Form := .of α optional fun _ => .plain

/-- What is written of a structure survives the variations of a form. -/
def SurvivesWire (α : Type) [Typed α] (f : Form) : Prop :=
  Survives (Typed.write (α := α)) f Typed.read

/-- **A structure survives variations if its record restores it from its members.** -/
theorem survives_record [Typed α] {optional : List String} {inside : String → Form}
    {forms : List (String × Form)} (hd : (Typed.record (α := α)).names.Nodup)
    (hf : forms.map (fun p => inside p.1) = forms.map (·.2))
    (h : ∀ a : α, Restores optional forms Typed.record (Typed.members a) a) :
    SurvivesWire α (.of α optional inside) := by
  intro a v hn hv
  obtain ⟨hexact, hnames, hbuild⟩ := h a
  have hmembers : ∀ ns, MembersVary (Typed.record (α := α)).names optional
      (fun n => (inside n).Varies) (Typed.members a) ns → Typed.read (.obj ns) = .ok a := by
    intro ns hvary
    obtain ⟨hknown, hkept⟩ := hvary.kept (hd.sublist hnames)
    exact Record.ofMembers_eq_ok.mpr ⟨hknown, fun h => absurd h Bool.false_ne_true,
      hbuild inside (List.map_inj_left.mp hf) hd (Value.every_obj.mp hn) _ hkept⟩
  rcases hv with rfl | ⟨_, ns, ⟨⟩, rfl, hvary⟩
  · exact hmembers _ (.refl _)
  · exact hmembers ns hvary

end DebugHost.Json
