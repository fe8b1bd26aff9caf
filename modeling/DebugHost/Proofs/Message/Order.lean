import DebugHost.Frame
import DebugHost.Proofs.Json.Grammar
import DebugHost.Proofs.Json.Shape
import DebugHost.Proofs.Message.Reading
import Mathlib

/-! # Messages and the order of their members

Values that differ in the order of members only, at any depth (`Rearranged`), have the same canonical form
if no object names a member twice (`Rearranged.canonical`).

A text that begins as an object is read as a message exactly if it is the document of an object of which
the message can be made (`read_document`), and this depends on nothing but the canonical forms of the values
given for the tag and the fields of the kind (`ofValue_congr`). So the order of the members, the blanks
between them and members of other names do not matter (`decodeBody_rearranged`). -/

namespace DebugHost.Json.Value

/-! ### Objects that name no member twice -/

/-- No object in a value names a member twice. -/
inductive Distinct : Value → Prop where
  | scalar {v : Value} (h : v.depth = 0) : Distinct v
  | arr {vs : List Value} (h : ∀ v ∈ vs, Distinct v) : Distinct (.arr vs)
  | obj {ms : List (String × Value)} (hd : (ms.map (·.1)).Nodup) (h : ∀ m ∈ ms, Distinct m.2) :
    Distinct (.obj ms)

theorem distinct_arr {vs : List Value} : (Value.arr vs).Distinct ↔ ∀ v ∈ vs, v.Distinct := by
  refine ⟨fun h => ?_, .arr⟩
  cases h with
  | scalar h => exact absurd h (Nat.succ_ne_zero _)
  | arr h => exact h

theorem distinct_obj {ms : List (String × Value)} :
    (Value.obj ms).Distinct ↔ (ms.map (·.1)).Nodup ∧ ∀ m ∈ ms, m.2.Distinct := by
  refine ⟨fun h => ?_, fun h => .obj h.1 h.2⟩
  cases h with
  | scalar h => exact absurd h (Nat.succ_ne_zero _)
  | obj hd h => exact ⟨hd, h⟩

/-! ### Rearranged values -/

/-- Values that differ in the order of the members of objects only, at any depth. -/
inductive Rearranged : Value → Value → Prop where
  | refl (v : Value) : Rearranged v v
  | trans {u v w : Value} (h : Rearranged u v) (h' : Rearranged v w) : Rearranged u w
  | item (vs ws : List Value) {v v' : Value} (h : Rearranged v v') :
    Rearranged (.arr (vs ++ v :: ws)) (.arr (vs ++ v' :: ws))
  | member (ms ns : List (String × Value)) (n : String) {v v' : Value} (h : Rearranged v v') :
    Rearranged (.obj (ms ++ (n, v) :: ns)) (.obj (ms ++ (n, v') :: ns))
  | perm {ms ns : List (String × Value)} (h : ms.Perm ns) : Rearranged (.obj ms) (.obj ns)

theorem Rearranged.distinct {v v' : Value} (h : Rearranged v v') (hv : v.Distinct) : v'.Distinct := by
  induction h with
  | refl => exact hv
  | trans _ _ ih ih' => exact ih' (ih hv)
  | item vs ws _ ih =>
    simp only [distinct_arr, List.forall_mem_append, List.forall_mem_cons] at hv ⊢
    exact ⟨hv.1, ih hv.2.1, hv.2.2⟩
  | member ms ns n _ ih =>
    simp only [distinct_obj, List.forall_mem_append, List.forall_mem_cons, List.map_append,
      List.map_cons] at hv ⊢
    exact ⟨hv.1, hv.2.1, ih hv.2.2.1, hv.2.2.2⟩
  | perm hp =>
    rw [distinct_obj] at hv ⊢
    exact ⟨(hp.map _).nodup_iff.mp hv.1, fun m hm => hv.2 m (hp.mem_iff.mpr hm)⟩

/-! ### Canonical form -/

/-- A member of a new name is added. -/
theorem insertMember_perm {n : String} {ms : List (String × Value)} (v : Value) (hn : n ∉ ms.map (·.1)) :
    (insertMember n v ms).Perm ((n, v) :: ms) := by
  induction ms with
  | nil => exact .refl _
  | cons m ms ih =>
    rw [List.map_cons, List.mem_cons, not_or] at hn
    rw [insertMember]
    split
    · exact .refl _
    · rw [if_neg hn.1]
      exact ((ih hn.2).cons m).trans (.swap ..)

/-- The member in canonical form. -/
def canonicalMember (m : String × Value) : String × Value := (m.1, m.2.canonical)

theorem canonicalMembers_perm {ms : List (String × Value)} (acc : List (String × Value))
    (hd : (acc.map (·.1) ++ ms.map (·.1)).Nodup) :
    (canonicalMembers ms acc).Perm (acc ++ ms.map canonicalMember) := by
  induction ms generalizing acc with
  | nil => rw [List.map_nil, List.append_nil]; exact .refl _
  | cons m ms ih =>
    obtain ⟨n, v⟩ := m
    have hnew : n ∉ acc.map (·.1) := fun hmem =>
      (List.nodup_append.mp hd).2.2 n hmem n (List.mem_cons_self ..) rfl
    have hinsert := insertMember_perm v.canonical hnew
    rw [canonicalMembers, List.map_cons]
    refine (ih _ ?_).trans ((hinsert.append_right _).trans List.perm_middle.symm)
    exact (((hinsert.map (·.1)).append_right _).trans List.perm_middle.symm).nodup_iff.mpr hd

theorem canonicalMembers_map (ms acc : List (String × Value)) : canonicalMembers ms acc =
    (ms.map canonicalMember).foldl (fun acc m => insertMember m.1 m.2 acc) acc := by
  induction ms generalizing acc with
  | nil => rfl
  | cons m ms ih => exact ih _

/-- Sorted members are determined by which they are. -/
theorem Sorted.eq_of_perm {ms ns : List (String × Value)} (h : Sorted ms) (h' : Sorted ns)
    (hp : ms.Perm ns) : ms = ns :=
  hp.eq_of_pairwise (fun _ _ _ _ hlt hgt => absurd hgt (String.lt_asymm hlt)) h h'

/-- **Values that differ in the order of members only have the same canonical form**, if no object names
a member twice. -/
theorem Rearranged.canonical {v v' : Value} (h : Rearranged v v') (hv : v.Distinct) :
    v.canonical = v'.canonical := by
  induction h with
  | refl => rfl
  | trans h _ ih ih' => exact (ih hv).trans (ih' (h.distinct hv))
  | item vs ws _ ih =>
    have hitem := (List.forall_mem_append.mp (distinct_arr.mp hv)).2
    simp only [Value.canonical, canonicalItems_eq, List.map_append, List.map_cons,
      ih (List.forall_mem_cons.mp hitem).1]
  | member ms ns n _ ih =>
    have hmember := (List.forall_mem_append.mp (distinct_obj.mp hv).2).2
    simp only [Value.canonical, canonicalMembers_map, List.map_append, List.map_cons, canonicalMember,
      ih (List.forall_mem_cons.mp hmember).1]
  | @perm ms ns hp =>
    have hd := (distinct_obj.mp hv).1
    have hd' : (ns.map (·.1)).Nodup := (hp.map _).nodup_iff.mp hd
    refine congrArg Value.obj (Sorted.eq_of_perm (sorted_canonicalMembers ms .nil)
      (sorted_canonicalMembers ns .nil) ?_)
    exact (canonicalMembers_perm [] hd).trans
      ((hp.map canonicalMember).trans (canonicalMembers_perm [] hd').symm)

/-- The members of the canonical form of an object that names no member twice. -/
theorem mem_canonicalMembers_iff {ms : List (String × Value)} (hd : (ms.map (·.1)).Nodup) {n : String}
    {w : Value} : (n, w) ∈ canonicalMembers ms [] ↔ ∃ v, (n, v) ∈ ms ∧ v.canonical = w := by
  rw [(canonicalMembers_perm [] hd).mem_iff, List.nil_append, List.mem_map]
  constructor
  · rintro ⟨⟨_, v⟩, hm, heq⟩
    obtain ⟨rfl, rfl⟩ := Prod.mk.inj heq
    exact ⟨v, hm, rfl⟩
  · rintro ⟨v, hm, rfl⟩
    exact ⟨(n, v), hm, rfl⟩

/-- A scalar is the only value of its canonical form. -/
theorem eq_of_canonical_scalar {v v' : Value} (hv : v.depth = 0) (h : v.canonical = v'.canonical) :
    v' = v := by
  rw [canonical_scalar hv] at h
  subst h
  cases v' with
  | arr vs => exact absurd hv (Nat.succ_ne_zero _)
  | obj ms => exact absurd hv (Nat.succ_ne_zero _)
  | _ => rfl

end DebugHost.Json.Value

namespace DebugHost.Message

open DebugHost.Frame DebugHost.Json DebugHost.Text.Utf8

/-! ### The kind -/

/-- The kind as the one field of a record. -/
def kindRecord : Record Value Kind := .required tag kindOfValue

instance exact_kind : kindRecord.Exact := Record.exact_required tag kindOfValue

theorem kindRecord_eq_ok {ms : List (String × Value)} {k : Kind} :
    kindRecord.ofMembers false ms = .ok k ↔
      (Record.known [tag] ms).Nodup ∧ ∃ v, Record.find ms tag = some v ∧ kindOfValue v = .ok k := by
  rw [Record.ofMembers_eq_ok, kindRecord, Record.build_required]
  simp

theorem mem_known_kind {ms : List (String × Value)} {n : String} (h : n ∈ Record.known [tag] ms) :
    n = tag :=
  List.mem_singleton.mp (Record.mem_known.mp h).2

theorem splitTag_some {k k' : Kind} {acc ms rest : List (String × Value)} :
    splitTag (some k) acc ms = .ok (k', rest) ↔
      tag ∉ Record.known [tag] ms ∧ k = k' ∧ rest = acc.reverse ++ ms.filter (·.1 ≠ tag) := by
  induction ms generalizing acc with
  | nil => simp [splitTag, Record.known, eq_comm]
  | cons m ms ih =>
    obtain ⟨n, v⟩ := m
    rw [splitTag, Record.known_cons]
    by_cases hn : n = tag
    · simp [hn]
    · simp [hn, ih]

/-- The kind is taken out of the members as the one field of a record. -/
theorem splitTag_none {k : Kind} {acc ms rest : List (String × Value)} :
    splitTag none acc ms = .ok (k, rest) ↔
      kindRecord.ofMembers false ms = .ok k ∧ rest = acc.reverse ++ ms.filter (·.1 ≠ tag) := by
  rw [kindRecord_eq_ok]
  induction ms generalizing acc with
  | nil => simp [splitTag, Record.find]
  | cons m ms ih =>
    obtain ⟨n, v⟩ := m
    rw [splitTag, Record.known_cons, Record.find_cons]
    by_cases hn : n = tag
    · have hnames : n ∈ [tag] := List.mem_singleton.mpr hn
      have hnodup : tag ∉ Record.known [tag] ms → (Record.known [tag] ms).Nodup := fun h => by
        rw [List.eq_nil_iff_forall_not_mem.mpr fun n hmem => h (mem_known_kind hmem ▸ hmem)]
        exact .nil
      rw [if_pos hn, if_pos hnames, if_pos hn, List.nodup_cons, if_neg (by simp)]
      cases hv : kindOfValue v with
      | error e => simp [hv]
      | ok k' =>
        simp only [splitTag_some, Option.some.injEq, exists_eq_left', hv, Except.ok.injEq, hn, ne_eq,
          not_true_eq_false, decide_false, Bool.false_eq_true, not_false_eq_true, List.filter_cons_of_neg]
        exact ⟨fun ⟨h, hk, hrest⟩ => ⟨⟨⟨h, hnodup h⟩, hk⟩, hrest⟩,
          fun ⟨⟨⟨h, _⟩, hk⟩, hrest⟩ => ⟨h, hk, hrest⟩⟩
    · have hnames : n ∉ [tag] := fun h => hn (List.mem_singleton.mp h)
      rw [if_neg hn, if_neg hnames, if_neg hn, ih]
      simp [hn]

/-- A message is made of an object: its kind of the tag, and the rest of all other members. -/
theorem ofValue_obj {ms : List (String × Value)} {m : Message} :
    ofValue (.obj ms) = .ok m ↔ ∃ k, kindRecord.ofMembers false ms = .ok k ∧
      ofParts k (.members (ms.filter (·.1 ≠ tag))) = .ok m := by
  simp only [ofValue, bind_eq_ok, Prod.exists, splitTag_none, List.reverse_nil, List.nil_append]
  constructor
  · rintro ⟨k, _, ⟨hk, rfl⟩, hm⟩
    exact ⟨k, hk, hm⟩
  · rintro ⟨k, hk, hm⟩
    exact ⟨k, _, ⟨hk, rfl⟩, hm⟩

/-! ### The text -/

theorem kindOfValue_scalar {v : Value} {k : Kind} (h : kindOfValue v = .ok k) : v.depth = 0 := by
  cases v <;> first | rfl | cases h

/-- The kind is read from the octets of a value that tells it. -/
theorem readKind_spells {depth : Nat} {w l rest : List UInt8} {v : Value} {k : Kind} (hw : Blanks w)
    (h : Spells depth v l) (hk : kindOfValue v = .ok k) (hrest : NumberEnds rest) :
    readKind (w ++ (l ++ rest)) = .ok (k, rest) := by
  obtain ⟨b, bs, rfl, hread⟩ := (lexeme_of_spells h (kindOfValue_scalar hk)).read hrest
  obtain ⟨hb, hne⟩ := readScalar_front hread
  rw [List.cons_append, readKind, skipBlanks_front hw hb]
  simp only
  rw [if_neg fun h => hne (by simp [h]), if_neg fun h => hne (by simp [h]), hread]
  simp only [hk]

theorem readKind_eq_ok {bs rest : List UInt8} {k : Kind} (h : readKind bs = .ok (k, rest)) :
    ∃ w v l, Blanks w ∧ Lexeme v l ∧ kindOfValue v = .ok k ∧ bs = w ++ (l ++ rest) := by
  unfold readKind at h
  split at h
  · cases h
  · next b bs' hskip =>
    obtain ⟨-, w, hw, hbs⟩ := skipBlanks_eq_cons hskip
    split at h
    · cases h
    · split at h
      · cases h
      · split at h
        · cases h
        · next v rest' hv =>
          split at h
          · next k' hk =>
            cases h
            obtain ⟨l, hl, hl'⟩ := readScalar_lexeme hv
            exact ⟨w, v, l, hw, hl, hk, by rw [hbs, hl']⟩
          · cases h

/-- The members of a message are read from the octets of the members of an object. -/
theorem readMessageMembers_members {first : Bool} {ms ps : List (String × Value)} {ls : List UInt8}
    (h : Members (Spells partDepth) first ms ls) {kind : Option Kind} {k : Kind}
    {acc : List (String × Value)} (hk : splitTag kind acc ms = .ok (k, ps)) {fuel : Nat}
    (hf : ms.length < fuel) (rest : List UInt8) :
    readMessageMembers fuel first kind acc (ls ++ rest) = .ok ((k, ps), rest) := by
  induction h generalizing fuel kind acc with
  | close hw =>
    obtain ⟨fuel, rfl⟩ := Nat.exists_eq_succ_of_ne_zero (Nat.ne_of_gt hf)
    rw [List.append_assoc, List.singleton_append, readMessageMembers, nextName_close hw]
    cases kind with
    | none => cases hk
    | some k' =>
      cases hk
      simp only [readClose_self 125 (by decide)]
  | @member first n v ms g k c l ls hg hn hc hv hms ih =>
    obtain ⟨fuel, rfl⟩ := Nat.exists_eq_succ_of_ne_zero (Nat.ne_zero_of_lt hf)
    obtain ⟨w, hw, hcolon⟩ := hc.read
    simp only [List.append_assoc]
    rw [readMessageMembers, nextName_name hg hn]
    rw [splitTag] at hk
    simp only [hcolon]
    by_cases htag : n = tag
    · rw [if_pos htag] at hk
      split at hk
      · cases hk
      · next hkind =>
        split at hk
        · cases hk
        · next k' hk' =>
          rw [if_neg fun h => hkind h.2, if_pos htag,
            readKind_spells hw hv hk' (hms.numberEnds rest)]
          exact ih hk (Nat.lt_of_succ_lt_succ hf)
    · rw [if_neg htag] at hk
      rw [if_neg fun h => htag h.1, if_neg htag,
        (follows_readValue partDepth).sound hw hv (hms.numberEnds rest)]
      exact ih hk (Nat.lt_of_succ_lt_succ hf)

/-- What is read as the members of a message are the octets of the members of an object. -/
theorem readMessageMembers_eq_ok {fuel : Nat} {first : Bool} {kind : Option Kind} {k : Kind}
    {acc ps : List (String × Value)} {bs rest : List UInt8}
    (h : readMessageMembers fuel first kind acc bs = .ok ((k, ps), rest)) :
    ∃ ms ls, Members (Spells partDepth) first ms ls ∧ splitTag kind acc ms = .ok (k, ps) ∧
      bs = ls ++ rest := by
  induction fuel generalizing first kind acc bs with
  | zero => cases h
  | succ fuel ih =>
    rw [readMessageMembers] at h
    split at h
    · cases h
    · next behind hnext =>
      rcases nextName_eq_ok hnext with ⟨-, w, rest, hw, rfl, rfl⟩ | ⟨_, _, _, ⟨⟩, -⟩
      split at h
      · cases h
      · cases h
        refine ⟨[], w ++ [125], .close hw, rfl, ?_⟩
        rw [readClose_self 125 (by decide), List.append_assoc]
        rfl
    · next n behind hnext =>
      rcases nextName_eq_ok hnext with ⟨⟨⟩, -⟩ | ⟨_, g, key, ⟨⟩, hg, hkey, rfl⟩
      split at h
      · cases h
      · next hagain =>
        split at h
        · cases h
        · next hcolon =>
          obtain ⟨c, hc, rfl⟩ := readColon_eq_ok hcolon
          split at h
          · next htag =>
            split at h
            · cases h
            · next k' rest' hk =>
              obtain ⟨w, v, l, hw, hl, hv, rfl⟩ := readKind_eq_ok hk
              obtain ⟨ms, ls, hls, hsplit, rfl⟩ := ih h
              refine ⟨(n, v) :: ms, g ++ (key ++ ((c ++ w) ++ (l ++ ls))),
                .member hg hkey (hc.append hw) (spells_lexeme hl _) hls, ?_, ?_⟩
              · rw [splitTag, if_pos htag, if_neg fun h => hagain ⟨htag, h⟩, hv]
                exact hsplit
              · simp only [List.append_assoc]
          · next htag =>
            split at h
            · cases h
            · next v rest' hv =>
              obtain ⟨w, l, hw, hl, rfl⟩ := (follows_readValue partDepth).complete hv
              obtain ⟨ms, ls, hls, hsplit, rfl⟩ := ih h
              refine ⟨(n, v) :: ms, g ++ (key ++ ((c ++ w) ++ (l ++ ls))),
                .member hg hkey (hc.append hw) hl hls, ?_, ?_⟩
              · rw [splitTag, if_neg htag]
                exact hsplit
              · simp only [List.append_assoc]

/-- An object is read as the message that can be made of it. -/
theorem read_document {ms : List (String × Value)} {bs : List UInt8} {m : Message}
    (h : Document (.obj ms) bs) (hm : ofValue (.obj ms) = .ok m) : read bs = .ok m := by
  obtain ⟨w, l, w', hw, hl, hw', rfl⟩ := h
  rcases spells_cases hl with hl | ⟨d, ls, hd, ⟨_, ⟨⟩, -⟩ | ⟨_, ⟨⟩, rfl, hls⟩⟩
  · exact absurd hl.scalar (Nat.succ_ne_zero _)
  obtain rfl : d = partDepth := Nat.succ.inj hd.symm
  obtain ⟨⟨k, ps⟩, hsplit, hm⟩ := bind_eq_ok.mp hm
  have hfuel : ms.length < (ls ++ w').length + 1 := by
    have hlength := length_members hls
    rw [List.length_append]
    omega
  have hparts : readParts (w ++ (123 :: ls ++ w')) = .ok ((k, .members ps), w') := by
    rw [List.cons_append, readParts, skipBlanks_front hw (by decide)]
    simp only
    rw [if_pos trivial, readMessageMembers_members hls hsplit hfuel]
    rfl
  rw [read, hparts]
  simp only [hm, readEnd_eq_ok.mpr hw']

/-- What is read as a message and begins as an object is one, of which the message can be made. -/
theorem exists_document {bs : List UInt8} {m : Message} (hobj : (skipBlanks bs).head? = some 123)
    (h : read bs = .ok m) : ∃ ms, Document (.obj ms) bs ∧ ofValue (.obj ms) = .ok m := by
  obtain ⟨rest, hskip⟩ := List.head?_eq_some_iff.mp hobj
  obtain ⟨-, w, hw, rfl⟩ := skipBlanks_eq_cons hskip
  unfold read at h
  split at h
  · cases h
  · next k p behind hparts =>
    split at h
    · cases h
    · next m' hm =>
      split at h
      · cases h
      · next hend =>
        cases h
        unfold readParts at hparts
        rw [hskip] at hparts
        simp only [if_true] at hparts
        obtain ⟨⟨⟨_, ps⟩, _⟩, hmembers, heq⟩ := map_eq_ok.mp hparts
        cases heq
        obtain ⟨ms, ls, hls, hsplit, rfl⟩ := readMessageMembers_eq_ok hmembers
        exact ⟨ms, ⟨w, 123 :: ls, _, hw, ⟨ls, rfl, hls⟩, readEnd_eq_ok.mp hend, rfl⟩,
          bind_eq_ok.mpr ⟨_, hsplit, hm⟩⟩

/-! ### The fields -/

/-- Values of the same canonical form are given, or none. -/
def SameForm (_ : String) (o o' : Option Value) : Prop := o.map Value.canonical = o'.map Value.canonical

/-- What is read from a value is read from every value of the same canonical form. -/
def SeesForm {α : Type} (f : Json.Field α) : Prop :=
  ∀ {v v' a}, v.canonical = v'.canonical → f v = .ok a → f v' = .ok a

theorem seesForm_of_scalar {α : Type} {f : Json.Field α} (h : ∀ {v a}, f v = .ok a → v.depth = 0) :
    SeesForm f := by
  intro v v' a hform ha
  exact Value.eq_of_canonical_scalar (h ha) hform ▸ ha

theorem seesForm_int64 : SeesForm Field.int64 :=
  seesForm_of_scalar fun {v _} h => by cases v <;> first | rfl | cases h

theorem seesForm_bool : SeesForm Field.bool :=
  seesForm_of_scalar fun {v _} h => by cases v <;> first | rfl | cases h

theorem seesForm_string : SeesForm Field.string :=
  seesForm_of_scalar fun {v _} h => by cases v <;> first | rfl | cases h

theorem seesForm_any : SeesForm Field.any := by
  intro v v' a hform h
  exact (congrArg Except.ok hform.symm).trans h

theorem SeesForm.nullable {α : Type} {f : Json.Field α} (hf : SeesForm f) : SeesForm (Field.nullable f) := by
  intro v v' a hform h
  unfold Field.nullable at h ⊢
  split at h
  · rw [Value.eq_of_canonical_scalar rfl hform]
    exact h
  · next hv =>
    obtain ⟨b, hb, rfl⟩ := map_eq_ok.mp h
    split
    · exact absurd (Value.eq_of_canonical_scalar rfl hform.symm) hv
    · exact map_eq_ok.mpr ⟨b, hf hform hb, rfl⟩

variable {α : Type} {n : String} {f : Json.Field α} {d : α}

theorem keeps_required (h : SeesForm f) : (Record.required n f).Keeps SameForm :=
  Record.keeps_required fun {v a o} hform hread => by
    cases o with
    | none => cases hform
    | some v' => exact ⟨v', rfl, h (Option.some.inj hform) hread⟩

theorem keeps_defaulted (h : SeesForm f) : (Record.defaulted n d f).Keeps SameForm :=
  Record.keeps_defaulted (fun {v a o} hform hread => by
    cases o with
    | none => cases hform
    | some v' => exact ⟨v', rfl, h (Option.some.inj hform) hread⟩) fun {o} hform => by
    cases o with
    | none => rfl
    | some v' => cases hform

theorem keeps_kind : kindRecord.Keeps SameForm :=
  keeps_required (seesForm_of_scalar kindOfValue_scalar)

theorem keeps_request : Request.record.Keeps SameForm :=
  (((keeps_required seesForm_int64).map _).seq (keeps_required seesForm_string)).seq
    (keeps_defaulted seesForm_any)

theorem keeps_response : Response.record.Keeps SameForm :=
  ((((((keeps_required seesForm_int64).map _).seq (keeps_required seesForm_int64)).seq
    (keeps_required seesForm_bool)).seq (keeps_required seesForm_string)).seq
    (keeps_defaulted seesForm_string.nullable)).seq (keeps_defaulted seesForm_any.nullable)

theorem keeps_event : Event.record.Keeps SameForm :=
  (((keeps_required seesForm_int64).map _).seq (keeps_required seesForm_string)).seq
    (keeps_defaulted seesForm_any.nullable)

/-- The names of the members that a message of a kind is made of. -/
def Kind.fields : Kind → List String
  | .request => tag :: Request.record.names
  | .response => tag :: Response.record.names
  | .event => tag :: Event.record.names

theorem kind_ofParts {k : Kind} {p : Parts} {m : Message} (h : ofParts k p = .ok m) : m.kind = k := by
  cases k <;>
  · obtain ⟨_, -, rfl⟩ := map_eq_ok.mp h
    rfl

theorem find_filter_tag (ms : List (String × Value)) (hn : n ≠ tag) :
    Record.find (ms.filter (·.1 ≠ tag)) n = Record.find ms n := by
  induction ms with
  | nil => rfl
  | cons m ms ih =>
    rw [List.filter_cons, Record.find_cons]
    split
    · rw [Record.find_cons, ih]
    · next hm =>
      have htag : m.1 = tag := by simpa using hm
      rw [ih, if_neg fun h => hn (h.symm.trans htag)]

section

variable {ms ns : List (String × Value)} {m : Message}

theorem keeps_parts {r : Record Value α} [r.Exact] (hr : r.Keeps SameForm) {fields : List String}
    (hsub : r.names ⊆ fields) (htag : tag ∉ r.names)
    (hd : (Record.known fields ns).Nodup)
    (h : ∀ n ∈ fields, SameForm n (Record.find ms n) (Record.find ns n)) {a : α}
    (ha : r.ofMembers false (ms.filter (·.1 ≠ tag)) = .ok a) :
    r.ofMembers false (ns.filter (·.1 ≠ tag)) = .ok a := by
  refine hr.ofMembers (Record.known_nodup hsub List.filter_sublist hd) (fun n hn => ?_) ha
  have hne : n ≠ tag := fun h => htag (h ▸ hn)
  rw [find_filter_tag ms hne, find_filter_tag ns hne]
  exact h n (hsub hn)

/-- **A message depends on the canonical forms of the values given for its fields only**, if none is given
twice. -/
theorem ofValue_congr (hm : ofValue (.obj ms) = .ok m)
    (hd : (Record.known m.kind.fields ns).Nodup)
    (h : ∀ n ∈ m.kind.fields, SameForm n (Record.find ms n) (Record.find ns n)) :
    ofValue (.obj ns) = .ok m := by
  obtain ⟨k, hk, hparts⟩ := ofValue_obj.mp hm
  obtain rfl := kind_ofParts hparts
  have htag : tag ∈ m.kind.fields := by
    cases m.kind <;> exact List.mem_cons_self ..
  refine ofValue_obj.mpr ⟨m.kind, ?_, ?_⟩
  · have hsub : kindRecord.names ⊆ m.kind.fields := fun n hn => List.mem_singleton.mp hn ▸ htag
    exact keeps_kind.ofMembers (Record.known_nodup hsub (.refl ns) hd) (fun n hn => h n (hsub hn)) hk
  · generalize m.kind = k at hd h hparts
    cases k with
    | request =>
      obtain ⟨r, hr, rfl⟩ := map_eq_ok.mp hparts
      exact map_eq_ok.mpr
        ⟨r, keeps_parts keeps_request (List.subset_cons_self ..) (by decide) hd h hr, rfl⟩
    | response =>
      obtain ⟨r, hr, rfl⟩ := map_eq_ok.mp hparts
      exact map_eq_ok.mpr
        ⟨r, keeps_parts keeps_response (List.subset_cons_self ..) (by decide) hd h hr, rfl⟩
    | event =>
      obtain ⟨r, hr, rfl⟩ := map_eq_ok.mp hparts
      exact map_eq_ok.mpr
        ⟨r, keeps_parts keeps_event (List.subset_cons_self ..) (by decide) hd h hr, rfl⟩

/-! ### Order, layout and further members -/

/-- The canonical form of the value given for a name is the value of this name in the canonical form. -/
theorem find_canonical (hd : (ms.map (·.1)).Nodup) (n : String) (w : Value) :
    (Record.find ms n).map Value.canonical = some w ↔ (n, w) ∈ Value.canonicalMembers ms [] := by
  have hknown : (Record.known [n] ms).Nodup := hd.filter _
  rw [Option.map_eq_some_iff, Value.mem_canonicalMembers_iff hd]
  simp only [Record.find_eq_some_iff hknown (List.mem_singleton_self n)]

/-- Rearranged members give values of the same canonical form. -/
theorem sameForm_rearranged {ms' : List (String × Value)} (hd : (Value.obj ms).Distinct)
    (h : Value.Rearranged (.obj ms) (.obj ms')) (n : String) :
    SameForm n (Record.find ms n) (Record.find ms' n) := by
  have hcanonical := Value.obj.inj (h.canonical hd)
  have hms := (Value.distinct_obj.mp hd).1
  have hms' := (Value.distinct_obj.mp (h.distinct hd)).1
  refine Option.ext fun w => ?_
  rw [find_canonical hms, find_canonical hms', hcanonical]

/-- **Decoding ignores the order of members, blanks and further members.** A text that is decoded and
begins as an object is the document of an object. If no object in it names a member twice, the same is
decoded from every document of an object of the same members, in it and in all objects in it in any order,
and with further members anywhere, of names that are no field of the kind. -/
theorem decodeBody_rearranged {bs : List UInt8} {m : Message} (hobj : (skipBlanks bs).head? = some 123)
    (h : decodeBody bs = .ok m) :
    ∃ ms, Document (.obj ms) bs ∧ ((Value.obj ms).Distinct → ∀ ms' extra ns bs',
      Value.Rearranged (.obj ms) (.obj ms') → ns.Perm (ms' ++ extra) →
        (∀ x ∈ extra, x.1 ∉ m.kind.fields) → Document (.obj ns) bs' → decodeBody bs' = .ok m) := by
  obtain ⟨ms, hdoc, hm⟩ := exists_document hobj (mapError_eq_ok.mp h)
  refine ⟨ms, hdoc, fun hd ms' extra ns bs' hre hp hextra hdoc' => ?_⟩
  have hms' : (Record.known m.kind.fields ms').Nodup := (Value.distinct_obj.mp (hre.distinct hd)).1.filter _
  have hns : (Record.known m.kind.fields ns).Nodup := (Record.known_further hextra hp).nodup_iff.mpr hms'
  refine mapError_eq_ok.mpr (read_document hdoc' (ofValue_congr hm hns fun n hn => ?_))
  rw [Record.find_further hextra hp hms' hn]
  exact sameForm_rearranged hd hre n

end

/-- The members of an event that the program stopped. -/
def stoppedMembers (body : List (String × Value)) : List (String × Value) :=
  [("type", .str "event"), ("seq", .int 7), ("event", .str "stopped"), ("body", .obj body)]

/-- The text of the event. -/
def stoppedText : List UInt8 :=
  octets "\x7b\"type\":\"event\",\"seq\":7,\"event\":\"stopped\",".toList ++
    octets "\"body\":\x7b\"threadId\":1,\"hitIds\":[2]\x7d\x7d".toList

/-- The same event with its members in another order, blanks between them and a further member. -/
def rearrangedText : List UInt8 :=
  octets "\x7b \"trace\" : [null], \"body\": \x7b\"hitIds\": [2], \"threadId\": 1\x7d,\n".toList ++
    octets " \"event\": \"stopped\",\t\"seq\": 7, \"type\": \"event\"\x7d\r\n".toList

/-- The event. -/
def stopped : Message := .event ⟨7, "stopped", some (.obj [("hitIds", .arr [.int 2]), ("threadId", .int 1)])⟩

theorem decodeBody_stopped : (skipBlanks stoppedText).head? = some 123 ∧
    decodeBody stoppedText = .ok stopped ∧ decodeBody rearrangedText = .ok stopped := by
  have hobj : (skipBlanks stoppedText).head? = some 123 := by cbv
  have hdoc : Document (.obj (stoppedMembers [("threadId", .int 1), ("hitIds", .arr [.int 2])]))
      stoppedText := readDocument_eq_ok.mp (by cbv)
  have hdoc' : Document (.obj (("trace", .arr [.null]) ::
      (stoppedMembers [("hitIds", .arr [.int 2]), ("threadId", .int 1)]).reverse)) rearrangedText :=
    readDocument_eq_ok.mp (by cbv)
  have hm : decodeBody stoppedText = .ok stopped := mapError_eq_ok.mpr (read_document hdoc (by rfl))
  have hscalars : (Value.str "event").Distinct ∧ (Value.int 7).Distinct ∧ (Value.str "stopped").Distinct ∧
      (Value.int 1).Distinct ∧ (Value.int 2).Distinct :=
    ⟨.scalar rfl, .scalar rfl, .scalar rfl, .scalar rfl, .scalar rfl⟩
  have hdistinct :
      (Value.obj (stoppedMembers [("threadId", .int 1), ("hitIds", .arr [.int 2])])).Distinct := by
    simpa [stoppedMembers, Value.distinct_obj, Value.distinct_arr] using hscalars
  have hre : Value.Rearranged (.obj (stoppedMembers [("threadId", .int 1), ("hitIds", .arr [.int 2])]))
      (.obj (stoppedMembers [("hitIds", .arr [.int 2]), ("threadId", .int 1)]).reverse) :=
    .trans (.member [("type", .str "event"), ("seq", .int 7), ("event", .str "stopped")] [] "body"
      (.perm (.swap ..))) (.perm (List.reverse_perm _).symm)
  refine ⟨hobj, hm, ?_⟩
  obtain ⟨ms, hms, hsame⟩ := decodeBody_rearranged hobj hm
  cases hms.unique hdoc
  exact hsame hdistinct _ [("trace", .arr [.null])] _ _ hre (List.perm_append_singleton ..).symm
    (by decide) hdoc'

end DebugHost.Message
