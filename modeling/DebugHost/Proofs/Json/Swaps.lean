import DebugHost.Json.Field
import DebugHost.Proofs.Record
import DebugHost.Proofs.Redaction

/-! # Reading values that differ in one text

Two values with one text swapped for another (`Swaps`) are read alike by every reader that messages and
their bodies are made of (`Blind`): both are read, or both are refused for the same reason, which at most
shows the one text in the one case and the other text in the other (`SameMismatch`). There is one lemma
for each way to build a reader. -/

namespace DebugHost

variable {ε α β : Type}

/-! ### Outcomes that agree -/

/-- Two readings that both succeed, or fail for reasons that are related. -/
inductive Agree (R : ε → ε → Prop) : Except ε α → Except ε α → Prop where
  | ok (a b : α) : Agree R (.ok a) (.ok b)
  | error {e f : ε} (h : R e f) : Agree R (.error e) (.error f)

namespace Agree

variable {R : ε → ε → Prop} {x y : Except ε α}

theorem refl (hr : ∀ e, R e e) (x : Except ε α) : Agree R x x := by
  cases x with
  | ok a => exact .ok a a
  | error e => exact .error (hr e)

theorem map (f : α → β) (h : Agree R x y) : Agree R (x.map f) (y.map f) := by
  cases h with
  | ok a b => exact .ok (f a) (f b)
  | error h => exact .error h

theorem mapError {δ : Type} {S : δ → δ → Prop} {f : ε → δ} (hf : ∀ e e', R e e' → S (f e) (f e'))
    (h : Agree R x y) : Agree S (x.mapError f) (y.mapError f) := by
  cases h with
  | ok a b => exact .ok a b
  | error h => exact .error (hf _ _ h)

theorem iff_or : Agree R x y ↔
    (∃ a b, x = .ok a ∧ y = .ok b) ∨ ∃ e f, x = .error e ∧ y = .error f ∧ R e f := by
  constructor
  · intro h
    cases h with
    | ok a b => exact Or.inl ⟨a, b, rfl, rfl⟩
    | error h => exact Or.inr ⟨_, _, rfl, rfl, h⟩
  · rintro (⟨a, b, rfl, rfl⟩ | ⟨e, f, rfl, rfl, h⟩)
    · exact .ok a b
    · exact .error h

/-- If one reading fails, so does the other. -/
theorem exists_error {e : ε} (h : Agree R x y) (hx : x = .error e) : ∃ f, y = .error f ∧ R e f := by
  subst hx
  cases h with
  | error h => exact ⟨_, rfl, h⟩

end Agree

/-- Optional things that are related are both there or both not there. -/
theorem rel_iff_or {R : α → β → Prop} {x : Option α} {y : Option β} :
    Option.Rel R x y ↔ (x = none ∧ y = none) ∨ ∃ a b, x = some a ∧ y = some b ∧ R a b := by
  constructor
  · intro h
    cases h with
    | none => exact Or.inl ⟨rfl, rfl⟩
    | some h => exact Or.inr ⟨_, _, rfl, rfl, h⟩
  · rintro (⟨rfl, rfl⟩ | ⟨a, b, rfl, rfl, h⟩)
    · exact .none
    · exact .some h

namespace Json

open DebugHost.Redaction

variable {s t : String}

/-! ### Swapped texts -/

/-- Two values that are the same, but that one text in the first is `s` where the second has `t`. -/
inductive Swaps (s t : String) : Value → Value → Prop where
  | same (v : Value) : Swaps s t v v
  | text : Swaps s t (.str s) (.str t)
  | item (vs ws : List Value) {v v' : Value} (h : Swaps s t v v') :
    Swaps s t (.arr (vs ++ v :: ws)) (.arr (vs ++ v' :: ws))
  | member (ms ns : List (String × Value)) (n : String) {v v' : Value} (h : Swaps s t v v') :
    Swaps s t (.obj (ms ++ (n, v) :: ns)) (.obj (ms ++ (n, v') :: ns))

/-- Two members of one name with swapped texts. -/
structure MemberSwaps (s t : String) (m m' : String × Value) : Prop where
  name : m.1 = m'.1
  value : Swaps s t m.2 m'.2

theorem MemberSwaps.same (m : String × Value) : MemberSwaps s t m m := ⟨rfl, .same m.2⟩

/-- Where one element of a list is replaced by a related one, the lists are related element by element. -/
theorem forall₂_replace {R : α → α → Prop} (hr : ∀ a, R a a) (as bs : List α) {a a' : α} (h : R a a') :
    List.Forall₂ R (as ++ a :: bs) (as ++ a' :: bs) :=
  List.rel_append (List.forall₂_same.mpr fun a _ => hr a)
    (.cons h (List.forall₂_same.mpr fun a _ => hr a))

theorem swaps_items (vs ws : List Value) {v v' : Value} (h : Swaps s t v v') :
    List.Forall₂ (Swaps s t) (vs ++ v :: ws) (vs ++ v' :: ws) :=
  forall₂_replace .same vs ws h

theorem swaps_members (ms ns : List (String × Value)) (n : String) {v v' : Value} (h : Swaps s t v v') :
    List.Forall₂ (MemberSwaps s t) (ms ++ (n, v) :: ns) (ms ++ (n, v') :: ns) :=
  forall₂_replace .same ms ns ⟨rfl, h⟩

/-- Mismatches that are the same, but that the text found is `s` in the first and `t` in the second. -/
inductive SameMismatch (s t : String) : Mismatch → Mismatch → Prop where
  | same (m : Mismatch) : SameMismatch s t m m
  | found {expected : String} (h : Plain expected.toList) :
    SameMismatch s t (.wrongType (Value.str s).described expected)
      (.wrongType (Value.str t).described expected)

/-- A reader that reads alike whatever differs in one text only. -/
def Blind (read : Field α) : Prop :=
  ∀ {s t : String} {v v' : Value}, Swaps s t v v' → Agree (SameMismatch s t) (read v) (read v')

/-- A value of another kind than the expected one is refused alike. -/
theorem mismatch_agree (expected : String) (he : Plain expected.toList) {v v' : Value}
    (h : Swaps s t v v') : Agree (α := α) (SameMismatch s t) (v.mismatch expected) (v'.mismatch expected) := by
  cases h with
  | same => exact .refl .same _
  | text => exact .error (.found he)
  | item => exact .error (.same _)
  | member => exact .error (.same _)

/-! ### Readers of scalars -/

theorem blind_int64 : Blind Field.int64 := by
  intro s t v v' h
  have hmismatch := mismatch_agree (α := Int) "i64" (by decide) h
  cases h with
  | same => exact .refl .same _
  | _ => exact hmismatch

theorem blind_bool : Blind Field.bool := by
  intro s t v v' h
  have hmismatch := mismatch_agree (α := Bool) "a boolean" (by decide) h
  cases h with
  | same => exact .refl .same _
  | _ => exact hmismatch

theorem blind_string : Blind Field.string := by
  intro s t v v' h
  have hmismatch := mismatch_agree (α := String) "a string" (by decide) h
  cases h with
  | same => exact .refl .same _
  | text => exact .ok s t
  | _ => exact hmismatch

theorem blind_any : Blind Field.any := fun _ => .ok _ _

theorem Blind.nullable {read : Field α} (hread : Blind read) : Blind (Field.nullable read) := by
  intro s t v v' h
  cases h with
  | same => exact .refl .same _
  | text => exact (hread .text).map some
  | item vs ws h => exact (hread (.item vs ws h)).map some
  | member ms ns n h => exact (hread (.member ms ns n h)).map some

/-! ### Readers of lists -/

theorem Blind.all {read : Field α} (hread : Blind read) {vs ws : List Value}
    (h : List.Forall₂ (Swaps s t) vs ws) :
    Agree (SameMismatch s t) (Field.all read vs) (Field.all read ws) := by
  induction h with
  | nil => exact .ok [] []
  | @cons v w vs ws hv _ ih =>
    unfold Field.all
    rcases Agree.iff_or.mp (hread hv) with ⟨a, b, hx, hy⟩ | ⟨e, f, hx, hy, h⟩ <;> rw [hx, hy]
    · rcases Agree.iff_or.mp ih with ⟨as, bs, hx, hy⟩ | ⟨e, f, hx, hy, h⟩ <;> rw [hx, hy]
      · exact .ok (a :: as) (b :: bs)
      · exact .error h
    · exact .error h

theorem Blind.list {read : Field α} (hread : Blind read) : Blind (Field.list read) := by
  intro s t v v' h
  have hmismatch := mismatch_agree (α := List α) "a sequence" (by decide) h
  cases h with
  | item vs ws h => exact hread.all (swaps_items vs ws h)
  | same => exact .refl .same _
  | _ => exact hmismatch

end Json

/-! ### Records -/

namespace Record

open DebugHost.Json DebugHost.Redaction

variable {s t : String}

/-- A record that reads alike whatever differs in one text only. -/
structure Blind (r : Record Value α) : Prop where
  fault {s t : String} (n : String) {v v' : Value} (h : Swaps s t v v') :
    Option.Rel (SameMismatch s t) (r.fault n v) (r.fault n v')
  build {s t : String} {get get' : String → Option Value}
    (h : ∀ n, Option.Rel (Swaps s t) (get n) (get' n)) : Agree Eq (r.build get) (r.build get')

theorem faultOf_rel {read : Json.Field α} (hread : Json.Blind read) {v v' : Value} (h : Swaps s t v v') :
    Option.Rel (SameMismatch s t) (faultOf read v) (faultOf read v') := by
  unfold faultOf
  rcases Agree.iff_or.mp (hread h) with ⟨a, b, hx, hy⟩ | ⟨e, f, hx, hy, h⟩ <;> rw [hx, hy]
  · exact .none
  · exact .some h

theorem blind_required (n : String) {read : Json.Field α} (hread : Json.Blind read) :
    (required n read).Blind where
  fault _ _ _ h := faultOf_rel hread h
  build h := by
    unfold required
    simp only
    rcases rel_iff_or.mp (h n) with ⟨hx, hy⟩ | ⟨v, v', hx, hy, hv⟩ <;> rw [hx, hy]
    · exact .error rfl
    · exact (hread hv).mapError fun _ _ _ => rfl

theorem blind_defaulted (n : String) (d : α) {read : Json.Field α} (hread : Json.Blind read) :
    (defaulted n d read).Blind where
  fault _ _ _ h := faultOf_rel hread h
  build h := by
    unfold defaulted
    simp only
    rcases rel_iff_or.mp (h n) with ⟨hx, hy⟩ | ⟨v, v', hx, hy, hv⟩ <;> rw [hx, hy]
    · exact .ok d d
    · exact (hread hv).mapError fun _ _ _ => rfl

theorem Blind.map (f : α → β) {r : Record Value α} (hr : r.Blind) : (f <$> r).Blind where
  fault n _ _ h := hr.fault n h
  build h := (hr.build h).map f

theorem Blind.seq {f : Record Value (α → β)} {r : Record Value α} (hf : f.Blind) (hr : r.Blind) :
    (f <*> r).Blind where
  fault n _ _ h := by
    rw [fault_seq, fault_seq]
    split
    · exact hf.fault n h
    · exact hr.fault n h
  build h := by
    simp only [Seq.seq, Record.seq]
    rcases Agree.iff_or.mp (hf.build h) with ⟨g, g', hx, hy⟩ | ⟨e, e', hx, hy, he⟩ <;> rw [hx, hy]
    · rcases Agree.iff_or.mp (hr.build h) with ⟨a, b, hx, hy⟩ | ⟨e, e', hx, hy, he⟩ <;> rw [hx, hy]
      · exact .ok (g a) (g' b)
      · exact .error he
    · exact .error he

/-! ### Structures -/

variable {r : Record Value α} {ms ns : List (String × Value)}

/-- The values given for a name are swapped too. -/
theorem find_rel (h : List.Forall₂ (MemberSwaps s t) ms ns) (n : String) :
    Option.Rel (Swaps s t) (find ms n) (find ns n) :=
  find_related (R := fun _ => Swaps s t) (h.imp fun _ _ hm => ⟨hm.name.symm, hm.value⟩) n

theorem Blind.firstFault (hr : r.Blind) (closed : Bool) (seen : List String)
    (h : List.Forall₂ (MemberSwaps s t) ms ns) :
    Option.Rel (SameMismatch s t) (r.firstFault closed seen ms) (r.firstFault closed seen ns) := by
  induction h generalizing seen with
  | nil => exact .none
  | @cons m m' ms ns hm _ ih =>
    obtain ⟨n, v⟩ := m
    obtain ⟨n', v'⟩ := m'
    obtain ⟨hname, hvalue⟩ := hm
    cases hname
    unfold Record.firstFault
    split
    · split
      · exact .some (.same _)
      · rcases rel_iff_or.mp (hr.fault n hvalue) with ⟨hx, hy⟩ | ⟨e, f, hx, hy, h⟩ <;> rw [hx, hy]
        · exact ih (n :: seen)
        · exact .some h
    · split
      · exact .some (.same _)
      · exact ih seen

/-- Named values are read alike. -/
theorem Blind.ofMembers (hr : r.Blind) (closed : Bool) (h : List.Forall₂ (MemberSwaps s t) ms ns) :
    Agree (SameMismatch s t) (r.ofMembers closed ms) (r.ofMembers closed ns) := by
  unfold Record.ofMembers
  rcases rel_iff_or.mp (hr.firstFault closed [] h) with ⟨hx, hy⟩ | ⟨e, f, hx, hy, he⟩ <;> rw [hx, hy]
  · refine (hr.build (find_rel h)).mapError ?_
    rintro n _ rfl
    exact .same _
  · exact .error he

theorem zip_rel (names : List String) {vs ws : List Value} (h : List.Forall₂ (Swaps s t) vs ws) :
    List.Forall₂ (MemberSwaps s t) (names.zip vs) (names.zip ws) := by
  induction h generalizing names with
  | nil => simp
  | cons hv _ ih =>
    cases names with
    | nil => exact .nil
    | cons n names => exact .cons ⟨rfl, hv⟩ (ih names)

/-- Items in the order of the fields are read alike. -/
theorem Blind.ofItems (hr : r.Blind) (name : String) (excess : Option String) {vs ws : List Value}
    (h : List.Forall₂ (Swaps s t) vs ws) :
    Agree (SameMismatch s t) (r.ofItems name excess vs) (r.ofItems name excess ws) := by
  have hzip := zip_rel r.names h
  unfold Record.ofItems
  simp only
  rcases rel_iff_or.mp (hr.firstFault false [] hzip) with ⟨hx, hy⟩ | ⟨e, f, hx, hy, he⟩ <;>
    rw [hx, hy]
  · simp only
    rcases Agree.iff_or.mp (hr.build (find_rel hzip)) with ⟨a, b, hx, hy⟩ | ⟨n, _, hx, hy, rfl⟩ <;>
      rw [hx, hy, ← h.length_eq]
    · cases excess with
      | none => exact .ok a b
      | some e =>
        simp only
        split
        · exact .error (.same _)
        · exact .ok a b
    · exact .error (.same _)
  · exact .error he

end Record

namespace Json

open DebugHost.Redaction

/-- **A structure whose fields are read alike is read alike.** -/
theorem blind_record {name : String} (hname : Plain name.toList) {r : Record Value α} (hr : r.Blind) :
    Blind (Field.record name r) := by
  intro s t v v' h
  have hplain : Plain ("struct " ++ name).toList := by
    rw [String.toList_append]
    exact Plain.append (by decide) hname
  have hmismatch := mismatch_agree (α := α) _ hplain h
  cases h with
  | same => exact .refl .same _
  | text => exact hmismatch
  | item vs ws h => exact hr.ofItems name (some "fewer elements in array") (swaps_items vs ws h)
  | member ms ns n h => exact hr.ofMembers false (swaps_members ms ns n h)

theorem blind_read [Typed α] (hname : Plain (Typed.name α).toList)
    (hr : (Typed.record (α := α)).Blind) : Blind (Typed.read (α := α)) :=
  blind_record hname hr

end Json
end DebugHost
