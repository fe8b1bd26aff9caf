import DebugHost.Record
import Mathlib.Data.List.Forall2
import Mathlib.Data.List.Nodup

/-! # What a record reads

When building a structure succeeds (`build_map`, `build_seq`, `build_required`, `build_defaulted`): each
of its fields is read from the value given for its name, or has not been given and stands for its
default. A record that looks at all it is given (`Exact`) is read from members exactly if no field is given
twice and the structure can be built (`ofMembers_eq_ok`). -/

namespace DebugHost

variable {ε V α β : Type}

theorem map_eq_ok {f : α → β} {x : Except ε α} {b : β} :
    x.map f = .ok b ↔ ∃ a, x = .ok a ∧ f a = b := by
  cases x with
  | error e => simp [Except.map]
  | ok a =>
    refine ⟨fun h => ⟨a, rfl, Except.ok.inj h⟩, ?_⟩
    rintro ⟨_, ⟨⟩, rfl⟩
    rfl

theorem bind_eq_ok {x : Except ε α} {f : α → Except ε β} {b : β} :
    x >>= f = .ok b ↔ ∃ a, x = .ok a ∧ f a = .ok b := by
  cases x with
  | error e =>
    refine iff_of_false (fun h => by cases h) ?_
    rintro ⟨_, ⟨⟩, -⟩
  | ok a =>
    refine ⟨fun h => ⟨a, rfl, h⟩, ?_⟩
    rintro ⟨_, ⟨⟩, h⟩
    exact h

theorem mapError_eq_ok {δ : Type} {f : ε → δ} {x : Except ε α} {a : α} :
    x.mapError f = .ok a ↔ x = .ok a := by
  cases x with
  | error e =>
    constructor
    · intro h
      cases h
    · intro h
      cases h
  | ok a' => exact ⟨fun h => congrArg _ (Except.ok.inj h), fun h => congrArg _ (Except.ok.inj h)⟩

namespace Record

variable {get : String → Option V}

/-! ### Names and faults -/

section

variable (f : α → β) (g : Record V (α → β)) (r : Record V α) (n : String) (d : α)
  (read : V → Except Mismatch α)

@[simp] theorem names_map : (f <$> r).names = r.names := rfl

@[simp] theorem names_seq : (g <*> r).names = g.names ++ r.names := rfl

@[simp] theorem names_required : (required n read).names = [n] := rfl

@[simp] theorem names_defaulted : (defaulted n d read).names = [n] := rfl

@[simp] theorem fault_map : (f <$> r).fault = r.fault := rfl

@[simp] theorem fault_seq (m : String) (v : V) :
    (g <*> r).fault m v = if m ∈ g.names then g.fault m v else r.fault m v := rfl

@[simp] theorem fault_required (m : String) (v : V) :
    (required n read).fault m v = faultOf read v := rfl

@[simp] theorem fault_defaulted (m : String) (v : V) :
    (defaulted n d read).fault m v = faultOf read v := rfl

end

/-! ### Building -/

theorem build_map {f : α → β} {r : Record V α} {b : β} :
    (f <$> r).build get = .ok b ↔ ∃ a, r.build get = .ok a ∧ f a = b :=
  map_eq_ok

theorem build_seq {f : Record V (α → β)} {r : Record V α} {b : β} :
    (f <*> r).build get = .ok b ↔
      ∃ g, f.build get = .ok g ∧ ∃ a, r.build get = .ok a ∧ g a = b := by
  simp only [Seq.seq, seq]
  cases f.build get with
  | error e => simp
  | ok g =>
    refine map_eq_ok.trans ⟨fun h => ⟨g, rfl, h⟩, ?_⟩
    rintro ⟨_, ⟨⟩, h⟩
    exact h

theorem build_required {n : String} {read : V → Except Mismatch α} {a : α} :
    (required n read).build get = .ok a ↔ ∃ v, get n = some v ∧ read v = .ok a := by
  simp only [required]
  cases get n with
  | none => simp
  | some v =>
    refine mapError_eq_ok.trans ⟨fun h => ⟨v, rfl, h⟩, ?_⟩
    rintro ⟨_, ⟨⟩, h⟩
    exact h

theorem build_defaulted {n : String} {d : α} {read : V → Except Mismatch α} {a : α} :
    (defaulted n d read).build get = .ok a ↔
      (get n = none ∧ a = d) ∨ ∃ v, get n = some v ∧ read v = .ok a := by
  simp only [defaulted]
  cases get n with
  | none =>
    refine ⟨fun h => Or.inl ⟨rfl, (Except.ok.inj h).symm⟩, ?_⟩
    rintro (⟨-, rfl⟩ | ⟨_, ⟨⟩, -⟩)
    rfl
  | some v =>
    refine mapError_eq_ok.trans ⟨fun h => Or.inr ⟨v, rfl, h⟩, ?_⟩
    rintro (⟨⟨⟩, -⟩ | ⟨_, ⟨⟩, h⟩)
    exact h

theorem exists_build_map {f : α → β} {r : Record V α} :
    (∃ b, (f <$> r).build get = .ok b) ↔ ∃ a, r.build get = .ok a := by
  simp only [build_map, exists_comm (α := β), exists_and_left, exists_eq', and_true]

theorem exists_build_seq {f : Record V (α → β)} {r : Record V α} :
    (∃ b, (f <*> r).build get = .ok b) ↔
      (∃ g, f.build get = .ok g) ∧ ∃ a, r.build get = .ok a := by
  constructor
  · rintro ⟨b, hb⟩
    obtain ⟨g, hg, a, ha, -⟩ := build_seq.mp hb
    exact ⟨⟨g, hg⟩, a, ha⟩
  · rintro ⟨⟨g, hg⟩, a, ha⟩
    exact ⟨g a, build_seq.mpr ⟨g, hg, a, ha, rfl⟩⟩

theorem forall_build_map {f : α → β} {r : Record V α} {P : β → Prop} :
    (∀ b, (f <$> r).build get = .ok b → P b) ↔ ∀ a, r.build get = .ok a → P (f a) := by
  constructor
  · exact fun h a ha => h _ (build_map.mpr ⟨a, ha, rfl⟩)
  · intro h b hb
    obtain ⟨a, ha, rfl⟩ := build_map.mp hb
    exact h a ha

theorem forall_build_seq {f : Record V (α → β)} {r : Record V α} {P : β → Prop} :
    (∀ b, (f <*> r).build get = .ok b → P b) ↔
      ∀ g, f.build get = .ok g → ∀ a, r.build get = .ok a → P (g a) := by
  constructor
  · exact fun h g hg a ha => h _ (build_seq.mpr ⟨g, hg, a, ha, rfl⟩)
  · intro h b hb
    obtain ⟨g, hg, a, ha, rfl⟩ := build_seq.mp hb
    exact h g hg a ha

/-! ### Reading -/

variable {r : Record V α} {a : α}

theorem mem_of_find {members : List (String × V)} {n : String} {v : V}
    (h : find members n = some v) : (n, v) ∈ members := by
  obtain ⟨m, hm, rfl⟩ := Option.map_eq_some_iff.mp h
  have hn : m.1 = n := eq_of_beq (List.find?_some hm :)
  exact hn ▸ List.mem_of_find?_eq_some hm

@[simp] theorem find_nil (n : String) : find ([] : List (String × V)) n = none := rfl

@[simp] theorem find_cons (m : String × V) (members : List (String × V)) (n : String) :
    find (m :: members) n = if m.1 = n then some m.2 else find members n := by
  unfold find
  rw [List.find?_cons]
  by_cases hm : m.1 = n
  · rw [beq_iff_eq.mpr hm, if_pos hm]
    rfl
  · rw [beq_eq_false_iff_ne.mpr hm, if_neg hm]

@[simp] theorem find_append (members others : List (String × V)) (n : String) :
    find (members ++ others) n = (find members n).or (find others n) := by
  induction members with
  | nil => rfl
  | cons m members ih =>
    rw [List.cons_append, find_cons, find_cons, ih]
    split <;> rfl

theorem find_eq_none {members : List (String × V)} {n : String} :
    find members n = none ↔ n ∉ members.map (·.1) := by
  induction members with
  | nil => simp
  | cons m members ih =>
    rw [find_cons, List.map_cons, List.mem_cons, not_or, ← ih]
    by_cases hm : m.1 = n
    · simp [hm]
    · simp [hm, Ne.symm hm]

/-- Related values are found in members of the same names with related values. -/
theorem find_related {R : String → V → V → Prop} {members others : List (String × V)}
    (h : List.Forall₂ (fun m m' => m'.1 = m.1 ∧ R m.1 m.2 m'.2) members others) (n : String) :
    Option.Rel (R n) (find members n) (find others n) := by
  induction h with
  | nil => exact .none
  | @cons m m' members others hm _ ih =>
    rw [find_cons, find_cons, hm.1]
    split
    · next hn => exact .some (hn ▸ hm.2)
    · exact ih

/-- A structure is built from the members that are given. -/
theorem ofMembers_ok {closed : Bool} {members : List (String × V)}
    (h : r.ofMembers closed members = .ok a) : r.build (find members) = .ok a := by
  unfold ofMembers at h
  split at h
  · cases h
  · exact mapError_eq_ok.mp h

/-- A structure is built from the items at the places of its fields. -/
theorem ofItems_ok {name : String} {excess : Option String} {items : List V}
    (h : r.ofItems name excess items = .ok a) : r.build (find (r.names.zip items)) = .ok a := by
  unfold ofItems at h
  simp only at h
  split at h
  · cases h
  · split at h
    · cases h
    · next a' hbuild =>
      rw [hbuild]
      split at h
      · split at h
        · cases h
        · exact congrArg _ (Except.ok.inj h)
      · exact congrArg _ (Except.ok.inj h)

/-! ### Records that look at all they are given -/

/-- A structure is built only from values without a fault. -/
class Exact (r : Record V α) : Prop where
  fault_none : ∀ {get : String → Option V} {a : α}, r.build get = .ok a →
    ∀ n ∈ r.names, ∀ v, get n = some v → r.fault n v = none

theorem faultOf_of_ok {read : V → Except Mismatch α} {v : V} (h : read v = .ok a) :
    faultOf read v = none := by
  rw [faultOf, h]

instance exact_required (n : String) (read : V → Except Mismatch α) : (required n read).Exact where
  fault_none h m hm v hv := by
    obtain rfl := List.mem_singleton.mp hm
    obtain ⟨w, hw, hread⟩ := build_required.mp h
    obtain rfl := Option.some.inj (hw.symm.trans hv)
    exact faultOf_of_ok hread

instance exact_defaulted (n : String) (d : α) (read : V → Except Mismatch α) :
    (defaulted n d read).Exact where
  fault_none h m hm v hv := by
    obtain rfl := List.mem_singleton.mp hm
    rcases build_defaulted.mp h with ⟨hw, -⟩ | ⟨w, hw, hread⟩
    · exact absurd (hw.symm.trans hv) (by simp)
    · obtain rfl := Option.some.inj (hw.symm.trans hv)
      exact faultOf_of_ok hread

instance exact_map (f : α → β) (r : Record V α) [hr : r.Exact] : (f <$> r).Exact where
  fault_none h := by
    obtain ⟨a, ha, -⟩ := build_map.mp h
    exact hr.fault_none ha

instance exact_seq (f : Record V (α → β)) (r : Record V α) [hf : f.Exact] [hr : r.Exact] :
    (f <*> r).Exact where
  fault_none h n hn v hv := by
    obtain ⟨g, hg, a, ha, -⟩ := build_seq.mp h
    rw [fault_seq]
    split
    · next hmem => exact hf.fault_none hg n hmem v hv
    · next hmem => exact hr.fault_none ha n ((List.mem_append.mp hn).resolve_left hmem) v hv

/-- The names of members that are among `fields`. -/
def known (fields : List String) (members : List (String × V)) : List String :=
  (members.map (·.1)).filter (· ∈ fields)

variable {fields : List String} {members : List (String × V)}

theorem mem_known {n : String} : n ∈ known fields members ↔ n ∈ members.map (·.1) ∧ n ∈ fields := by
  simp [known]

theorem known_cons (m : String × V) : known fields (m :: members) =
    if m.1 ∈ fields then m.1 :: known fields members else known fields members := by
  unfold known
  rw [List.map_cons, List.filter_cons]
  simp only [decide_eq_true_eq]

/-- Members among others give some of the fields at most as often. -/
theorem known_nodup {fields' : List String} {members' : List (String × V)} (hf : fields ⊆ fields')
    (hm : members.Sublist members') (hd : (known fields' members').Nodup) :
    (known fields members).Nodup := by
  have hknown : (known fields members).Sublist (known fields' members) :=
    List.monotone_filter_right _ fun n hn => decide_eq_true (hf (of_decide_eq_true hn))
  exact hd.sublist (hknown.trans ((hm.map _).filter _))

/-- Members have no fault if no field is given twice, every field given is good, and, in a closed
record, nothing else is given. -/
theorem firstFault_eq_none {closed : Bool} {seen : List String} :
    r.firstFault closed seen members = none ↔
      (known r.names members).Nodup ∧ (closed = true → ∀ m ∈ members, m.1 ∈ r.names) ∧
        ∀ m ∈ members, m.1 ∈ r.names → m.1 ∉ seen ∧ r.fault m.1 m.2 = none := by
  induction members generalizing seen with
  | nil => simp [firstFault, known]
  | cons m members ih =>
    obtain ⟨n, v⟩ := m
    rw [firstFault, known_cons]
    by_cases hn : n ∈ r.names
    · by_cases hseen : n ∈ seen
      · simp [hn, hseen]
      · simp only [hn, hseen, ↓reduceIte, Option.or_eq_none_iff, ih, List.nodup_cons, mem_known,
          List.forall_mem_cons]
        simp only [List.mem_cons, not_or, true_and, not_false_eq_true, forall_const, and_true]
        constructor
        · rintro ⟨hfault, hd, hclosed, hall⟩
          refine ⟨⟨fun hmem => ?_, hd⟩, hclosed, hfault, fun m hm hmem =>
            ⟨(hall m hm hmem).1.2, (hall m hm hmem).2⟩⟩
          obtain ⟨m, hm, rfl⟩ := List.mem_map.mp hmem
          exact (hall m hm hn).1.1 rfl
        · rintro ⟨⟨hnew, hd⟩, hclosed, hfault, hall⟩
          refine ⟨hfault, hd, hclosed, fun m hm hmem => ⟨⟨?_, (hall m hm hmem).1⟩, (hall m hm hmem).2⟩⟩
          rintro rfl
          exact hnew (List.mem_map_of_mem hm)
    · cases closed <;> simp [hn, ih]

/-- Of members that give no field twice, the value given for a field is that of its member. -/
theorem find_eq_some_iff (hd : (known fields members).Nodup) {n : String} (hn : n ∈ fields) {v : V} :
    find members n = some v ↔ (n, v) ∈ members := by
  refine ⟨mem_of_find, fun hmem => ?_⟩
  induction members with
  | nil => cases hmem
  | cons m members ih =>
    rw [known_cons] at hd
    rw [find_cons]
    rcases List.mem_cons.mp hmem with rfl | hmem
    · exact if_pos rfl
    · by_cases hm : m.1 = n
      · rw [if_pos (hm ▸ hn)] at hd
        exact absurd (mem_known.mpr ⟨List.mem_map_of_mem hmem, hn⟩) (hm ▸ (List.nodup_cons.mp hd).1)
      · rw [if_neg hm]
        refine ih ?_ hmem
        split at hd
        · exact (List.nodup_cons.mp hd).2
        · exact hd

/-- Each of some members gives one of some things what holds of it, if each gives one of them something and
what is found for one of them holds of it. -/
theorem forall_members {σ : Type} {key : σ → String} {things : List σ}
    {P : σ → V → Prop} (hthings : (things.map key).Nodup) (hmembers : (members.map (·.1)).Nodup) :
    (∀ m ∈ members, ∃ s ∈ things, key s = m.1 ∧ P s m.2) ↔
      (∀ m ∈ members, m.1 ∈ things.map key) ∧
        ∀ s ∈ things, ∀ v, find members (key s) = some v → P s v := by
  have hfind : ∀ {s}, s ∈ things → ∀ {v}, find members (key s) = some v ↔ (key s, v) ∈ members :=
    fun hs => find_eq_some_iff (hmembers.filter _) (List.mem_map_of_mem hs)
  constructor
  · refine fun h => ⟨fun m hm => ?_, fun s hs v hv => ?_⟩
    · obtain ⟨s, hs, hkey, -⟩ := h m hm
      exact hkey ▸ List.mem_map_of_mem hs
    · obtain ⟨s', hs', hkey, hP⟩ := h _ ((hfind hs).mp hv)
      obtain rfl := List.inj_on_of_nodup_map hthings hs' hs hkey
      exact hP
  · rintro ⟨hnames, hall⟩ m hm
    obtain ⟨s, hs, hkey⟩ := List.mem_map.mp (hnames m hm)
    exact ⟨s, hs, hkey, hall s hs m.2 ((hfind hs).mpr (hkey ▸ hm))⟩

/-- **What a record reads from members**: no field is given twice, in a closed record nothing but fields
is given, and the structure can be built from what is given. -/
theorem ofMembers_eq_ok [hr : r.Exact] {closed : Bool} :
    r.ofMembers closed members = .ok a ↔
      (known r.names members).Nodup ∧ (closed = true → ∀ m ∈ members, m.1 ∈ r.names) ∧
        r.build (find members) = .ok a := by
  constructor
  · intro h
    refine ⟨?_, ?_, ofMembers_ok h⟩ <;>
    · unfold ofMembers at h
      split at h
      · cases h
      · next hfault =>
        first
          | exact (firstFault_eq_none.mp hfault).1
          | exact (firstFault_eq_none.mp hfault).2.1
  · rintro ⟨hd, hclosed, hbuild⟩
    have hfault : r.firstFault closed [] members = none := by
      refine firstFault_eq_none.mpr ⟨hd, hclosed, fun m hm hn => ⟨List.not_mem_nil, ?_⟩⟩
      exact hr.fault_none hbuild m.1 hn m.2 ((find_eq_some_iff hd hn).mpr hm)
    rw [ofMembers, hfault]
    exact mapError_eq_ok.mpr hbuild

theorem ofMembers_eq [r.Exact] (hd : (members.map (·.1)).Nodup) (hb : r.build (find members) = .ok a) :
    r.ofMembers false members = .ok a :=
  ofMembers_eq_ok.mpr ⟨hd.filter _, fun h => absurd h Bool.false_ne_true, hb⟩

/-! ### Further members -/

/-- Further members of other names give no field. -/
theorem known_further {extra others : List (String × V)} (hextra : ∀ x ∈ extra, x.1 ∉ fields)
    (hp : others.Perm (members ++ extra)) : (known fields others).Perm (known fields members) := by
  have hnil : known fields extra = [] := by
    refine List.eq_nil_iff_forall_not_mem.mpr fun n hn => ?_
    obtain ⟨hn, hfield⟩ := mem_known.mp hn
    obtain ⟨x, hx, rfl⟩ := List.mem_map.mp hn
    exact hextra x hx hfield
  have happend : known fields (members ++ extra) = known fields members := by
    rw [known, List.map_append, List.filter_append]
    exact (congrArg _ hnil).trans (List.append_nil _)
  have hnames : (known fields others).Perm (known fields (members ++ extra)) := (hp.map _).filter _
  rwa [happend] at hnames

/-- The values of fields are found among further members of other names, in any order. -/
theorem find_further {extra others : List (String × V)} (hextra : ∀ x ∈ extra, x.1 ∉ fields)
    (hp : others.Perm (members ++ extra)) (hd : (known fields members).Nodup) {n : String}
    (hn : n ∈ fields) : find others n = find members n := by
  have hd' := (known_further hextra hp).nodup_iff.mpr hd
  refine Option.ext fun v => ?_
  rw [find_eq_some_iff hd hn, find_eq_some_iff hd' hn, hp.mem_iff, List.mem_append]
  exact or_iff_left fun h => hextra (n, v) h hn

/-! ### Records that read the same from other values -/

/-- The same is read from a record when other values are given for its fields, such as `R` allows for the
name and the value that was given, if any. -/
def Keeps (R : String → Option V → Option V → Prop) (r : Record V α) : Prop :=
  ∀ (get get' : String → Option V) (a : α), (∀ n ∈ r.names, R n (get n) (get' n)) →
    r.build get = .ok a → r.build get' = .ok a

variable {R : String → Option V → Option V → Prop}

theorem keeps_required {n : String} {read : V → Except Mismatch α}
    (h : ∀ {v a o}, R n (some v) o → read v = .ok a → ∃ v', o = some v' ∧ read v' = .ok a) :
    (required n read).Keeps R := by
  intro get get' a hget hb
  obtain ⟨v, hv, hread⟩ := build_required.mp hb
  exact build_required.mpr (h (hv ▸ hget n (List.mem_singleton_self n)) hread)

theorem keeps_defaulted {n : String} {d : α} {read : V → Except Mismatch α}
    (h : ∀ {v a o}, R n (some v) o → read v = .ok a → ∃ v', o = some v' ∧ read v' = .ok a)
    (hnone : ∀ {o}, R n none o → o = none) : (defaulted n d read).Keeps R := by
  intro get get' a hget hb
  have hn := hget n (List.mem_singleton_self n)
  rcases build_defaulted.mp hb with ⟨hv, rfl⟩ | ⟨v, hv, hread⟩
  · exact build_defaulted.mpr (Or.inl ⟨hnone (hv ▸ hn), rfl⟩)
  · exact build_defaulted.mpr (Or.inr (h (hv ▸ hn) hread))

theorem Keeps.map (f : α → β) (hr : r.Keeps R) : (f <$> r).Keeps R := by
  intro get get' b hget hb
  obtain ⟨a, ha, hf⟩ := build_map.mp hb
  exact build_map.mpr ⟨a, hr get get' a hget ha, hf⟩

theorem Keeps.seq {f : Record V (α → β)} (hf : f.Keeps R) (hr : r.Keeps R) : (f <*> r).Keeps R := by
  intro get get' b hget hb
  obtain ⟨g, hg, a, ha, h⟩ := build_seq.mp hb
  exact build_seq.mpr ⟨g, hf get get' g (fun n hn => hget n (List.mem_append_left _ hn)) hg,
    a, hr get get' a (fun n hn => hget n (List.mem_append_right _ hn)) ha, h⟩

/-- The same is read from other members, if they give no field twice. -/
theorem Keeps.ofMembers [r.Exact] {others : List (String × V)} (hr : r.Keeps R)
    (hd : (known r.names others).Nodup) (h : ∀ n ∈ r.names, R n (find members n) (find others n))
    (ha : r.ofMembers false members = .ok a) : r.ofMembers false others = .ok a :=
  ofMembers_eq_ok.mpr
    ⟨hd, fun h => absurd h Bool.false_ne_true, hr _ _ a h (ofMembers_ok ha)⟩

end Record
end DebugHost
