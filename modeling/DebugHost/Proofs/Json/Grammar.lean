import DebugHost.Proofs.Json.Lexemes
import DebugHost.Proofs.Json.Values
import Mathlib.Data.List.TakeWhile

/-! # The grammar of documents

Which octets spell a value: those of its parts with blanks between them (`Spells`), and as a whole
document with blanks around it (`Document`). The reader follows this grammar: it reads a value from a text
if and only if the text spells it (`readDocument_eq_ok`). So what is read depends on no blank, and no
value is spelled by the octets of another. -/

namespace DebugHost.Json

/-! ### Blanks and separators -/

/-- Blanks, any number of them. -/
def Blanks (w : List UInt8) : Prop := ∀ b ∈ w, isBlankOctet b = true

/-- What stands in front of a part of an array or object: blanks, and among them a comma unless the part
is the first. -/
inductive Gap : Bool → List UInt8 → Prop where
  | first {w : List UInt8} (h : Blanks w) : Gap true w
  | further {w w' : List UInt8} (h : Blanks w) (h' : Blanks w') : Gap false (w ++ 44 :: w')

/-- A colon between blanks. -/
inductive Colon : List UInt8 → Prop where
  | mk {w w' : List UInt8} (h : Blanks w) (h' : Blanks w') : Colon (w ++ 58 :: w')

theorem blanks_nil : Blanks [] := List.forall_mem_nil _

theorem skipBlanks_blanks {w : List UInt8} (h : Blanks w) (bs : List UInt8) :
    skipBlanks (w ++ bs) = skipBlanks bs := by
  unfold skipBlanks
  exact List.dropWhile_append_of_pos h

/-- What is skipped at the front of a text are blanks. -/
theorem exists_blanks (bs : List UInt8) : ∃ w, Blanks w ∧ bs = w ++ skipBlanks bs :=
  ⟨bs.takeWhile isBlankOctet, fun _ => List.mem_takeWhile_imp,
    (List.takeWhile_append_dropWhile).symm⟩

theorem skipBlanks_eq_cons {bs rest : List UInt8} {b : UInt8} (h : skipBlanks bs = b :: rest) :
    isBlankOctet b = false ∧ ∃ w, Blanks w ∧ bs = w ++ b :: rest := by
  refine ⟨?_, h ▸ exists_blanks bs⟩
  have hhead := List.head?_dropWhile_not isBlankOctet bs
  rw [show bs.dropWhile isBlankOctet = b :: rest from h] at hhead
  exact Bool.eq_false_iff.mpr (by simpa using hhead)

/-- Blanks end a number, and so does what ends one behind them. -/
theorem Blanks.numberEnds {w : List UInt8} (h : Blanks w) {rest : List UInt8} (hrest : NumberEnds rest) :
    NumberEnds (w ++ rest) := by
  cases w with
  | nil => exact hrest
  | cons b w =>
    rcases of_decide_eq_true (h b (List.mem_cons_self ..)) with rfl | rfl | rfl | rfl <;>
      exact ⟨rfl, by decide, rfl⟩

theorem Gap.numberEnds {g : List UInt8} (h : Gap false g) (rest : List UInt8) :
    NumberEnds (g ++ rest) := by
  cases h with
  | further h h' =>
    rw [List.append_assoc]
    exact h.numberEnds ⟨rfl, by decide, rfl⟩

theorem Blanks.append {w w' : List UInt8} (h : Blanks w) (h' : Blanks w') : Blanks (w ++ w') :=
  List.forall_mem_append.mpr ⟨h, h'⟩

/-- Blanks behind a separator belong to it. -/
theorem Gap.append {first : Bool} {g w : List UInt8} (h : Gap first g) (hw : Blanks w) :
    Gap first (g ++ w) := by
  cases h with
  | first h => exact .first (h.append hw)
  | further h h' =>
    rw [List.append_assoc]
    exact .further h (h'.append hw)

theorem Colon.append {c w : List UInt8} (h : Colon c) (hw : Blanks w) : Colon (c ++ w) := by
  cases h with
  | mk h h' =>
    rw [List.append_assoc]
    exact .mk h (h'.append hw)

/-! ### Arrays and objects -/

section

variable (Item : Value → List UInt8 → Prop)

/-- The octets of the items of an array, from the first or a further one on, and of its end. `Item` tells
the octets of an item. -/
inductive Items : Bool → List Value → List UInt8 → Prop where
  | close {first : Bool} {w : List UInt8} (hw : Blanks w) : Items first [] (w ++ [93])
  | item {first : Bool} {v : Value} {vs : List Value} {g l ls : List UInt8} (hg : Gap first g)
    (hv : Item v l) (hvs : Items false vs ls) : Items first (v :: vs) (g ++ (l ++ ls))

/-- The octets of a name. -/
def Name (n : String) (l : List UInt8) : Prop := ∃ bs, l = 34 :: bs ∧ readString bs = .ok (n, [])

/-- The octets of the members of an object, from the first or a further one on, and of its end. -/
inductive Members : Bool → List (String × Value) → List UInt8 → Prop where
  | close {first : Bool} {w : List UInt8} (hw : Blanks w) : Members first [] (w ++ [125])
  | member {first : Bool} {n : String} {v : Value} {ms : List (String × Value)} {g k c l ls : List UInt8}
    (hg : Gap first g) (hn : Name n k) (hc : Colon c) (hv : Item v l) (hms : Members false ms ls) :
    Members first ((n, v) :: ms) (g ++ (k ++ (c ++ (l ++ ls))))

end

/-- The octets of a scalar. -/
def Lexeme (v : Value) (l : List UInt8) : Prop := ∃ b bs, l = b :: bs ∧ readScalar b bs = .ok (v, [])

/-- The octets of a value in which arrays and objects are nested at most `depth` levels deep. -/
def Spells : Nat → Value → List UInt8 → Prop
  | depth + 1, .arr vs, l => ∃ ls, l = 91 :: ls ∧ Items (Spells depth) true vs ls
  | depth + 1, .obj ms, l => ∃ ls, l = 123 :: ls ∧ Members (Spells depth) true ms ls
  | _, v, l => Lexeme v l

/-- The octets of a document: those of a value, and blanks around them. -/
def Document (v : Value) (bs : List UInt8) : Prop :=
  ∃ w l w', Blanks w ∧ Spells maxDepth v l ∧ Blanks w' ∧ bs = w ++ (l ++ w')

/-! ### Following the grammar -/

/-- A reader reads a value from a text if and only if the text begins with blanks and the octets of this
value, where what stands behind does not go on with a number. -/
structure Follows (item : List UInt8 → Reading Value) (Item : Value → List UInt8 → Prop) : Prop where
  front : ∀ {v l}, Item v l → ∃ b ls, l = b :: ls ∧ isBlankOctet b = false ∧ b ≠ 93
  sound : ∀ {w v l rest}, Blanks w → Item v l → NumberEnds rest →
    item (w ++ (l ++ rest)) = .ok (v, rest)
  complete : ∀ {bs v rest}, item bs = .ok (v, rest) → ∃ w l, Blanks w ∧ Item v l ∧ bs = w ++ (l ++ rest)

variable {item : List UInt8 → Reading Value} {Item : Value → List UInt8 → Prop}

theorem skipBlanks_front {w : List UInt8} (hw : Blanks w) {b : UInt8} (hb : isBlankOctet b = false)
    (bs : List UInt8) : skipBlanks (w ++ b :: bs) = b :: bs := by
  rw [skipBlanks_blanks hw, skipBlanks_cons hb]

theorem nextItem_close {first : Bool} {w : List UInt8} (hw : Blanks w) (rest : List UInt8) :
    nextItem first (w ++ 93 :: rest) = .ok (false, 93 :: rest) := by
  unfold nextItem
  rw [skipBlanks_front hw (by decide)]
  rfl

theorem nextItem_item {first : Bool} {g : List UInt8} (hg : Gap first g) {b : UInt8}
    (hb : isBlankOctet b = false) (hend : b ≠ 93) (bs : List UInt8) :
    nextItem first (g ++ b :: bs) = .ok (true, b :: bs) := by
  unfold nextItem
  cases hg with
  | first hw =>
    rw [skipBlanks_front hw hb]
    simp only
    rw [if_neg hend, if_pos trivial]
  | further hw hw' =>
    rw [List.append_assoc, List.cons_append, skipBlanks_front hw (by decide)]
    simp only
    rw [if_neg (by decide), if_neg Bool.false_ne_true, if_pos trivial, skipBlanks_front hw' hb]
    simp only
    rw [if_neg hend]

/-- A step finds either the end of an array, or a further item behind its separator. -/
theorem nextItem_eq_ok {first more : Bool} {bs rest : List UInt8} (h : nextItem first bs = .ok (more, rest)) :
    (more = false ∧ ∃ w behind, Blanks w ∧ rest = 93 :: behind ∧ bs = w ++ rest) ∨
      more = true ∧ ∃ g, Gap first g ∧ bs = g ++ rest := by
  unfold nextItem at h
  split at h
  · cases h
  · next b bs' hskip =>
    obtain ⟨-, w, hw, hbs⟩ := skipBlanks_eq_cons hskip
    split at h
    · next hend =>
      cases h
      exact Or.inl ⟨rfl, w, bs', hw, hend ▸ rfl, hbs⟩
    · split at h
      · next hfirst =>
        cases h
        exact Or.inr ⟨rfl, w, hfirst ▸ .first hw, hbs⟩
      · next hfirst =>
        split at h
        · next hcomma =>
          split at h
          · cases h
          · next c rest' hskip' =>
            obtain ⟨-, w', hw', hbs'⟩ := skipBlanks_eq_cons hskip'
            split at h
            · cases h
            · cases h
              refine Or.inr ⟨rfl, w ++ 44 :: w', ?_, ?_⟩
              · rw [Bool.eq_false_iff.mpr hfirst]
                exact .further hw hw'
              · rw [hbs, hbs', hcomma, List.append_assoc, List.cons_append]
        · cases h

theorem readClose_self (b : UInt8) (hb : isBlankOctet b = false) (rest : List UInt8) :
    readClose b (b :: rest) = rest := by
  rw [readClose, skipBlanks_cons hb]
  exact if_pos rfl

theorem length_items {first : Bool} {vs : List Value} {ls : List UInt8} (hi : Follows item Item)
    (h : Items Item first vs ls) : vs.length < ls.length := by
  induction h with
  | close => simp
  | item hg hv hvs ih =>
    obtain ⟨b, l, rfl, -⟩ := hi.front hv
    simp only [List.length_append, List.length_cons]
    omega

theorem Items.numberEnds {vs : List Value} {ls : List UInt8} (h : Items Item false vs ls)
    (rest : List UInt8) : NumberEnds (ls ++ rest) := by
  cases h with
  | close hw =>
    rw [List.append_assoc]
    exact hw.numberEnds ⟨rfl, by decide, rfl⟩
  | item hg hv hvs =>
    rw [List.append_assoc]
    exact hg.numberEnds _

/-- The items of an array are read from their octets. -/
theorem readItems_items (hi : Follows item Item) {first : Bool} {vs : List Value} {ls : List UInt8}
    (h : Items Item first vs ls) {fuel : Nat} (hf : vs.length < fuel) (acc : List Value)
    (rest : List UInt8) :
    readItems item fuel first acc (ls ++ rest) = .ok (acc.reverse ++ vs, rest) := by
  induction h generalizing fuel acc with
  | close hw =>
    obtain ⟨fuel, rfl⟩ := Nat.exists_eq_succ_of_ne_zero (Nat.ne_of_gt hf)
    rw [List.append_assoc, List.singleton_append, readItems, nextItem_close hw, List.append_nil]
    simp only [readClose_self 93 (by decide)]
  | @item first v vs g l ls hg hv hvs ih =>
    obtain ⟨fuel, rfl⟩ := Nat.exists_eq_succ_of_ne_zero (Nat.ne_zero_of_lt hf)
    obtain ⟨b, l', rfl, hb, hend⟩ := hi.front hv
    have hitem := hi.sound blanks_nil hv (hvs.numberEnds rest)
    simp only [List.append_assoc, List.cons_append, List.nil_append] at hitem ⊢
    rw [readItems, nextItem_item hg hb hend]
    simp only [hitem]
    rw [ih (Nat.lt_of_succ_lt_succ hf), List.reverse_cons, List.append_assoc]
    rfl

/-- What is read as the items of an array are their octets. -/
theorem readItems_eq_ok (hi : Follows item Item) {fuel : Nat} {first : Bool} {acc vs : List Value}
    {bs rest : List UInt8} (h : readItems item fuel first acc bs = .ok (vs, rest)) :
    ∃ ws ls, vs = acc.reverse ++ ws ∧ Items Item first ws ls ∧ bs = ls ++ rest := by
  induction fuel generalizing first acc bs with
  | zero => cases h
  | succ fuel ih =>
    rw [readItems] at h
    split at h
    · cases h
    · next behind hnext =>
      cases h
      rcases nextItem_eq_ok hnext with ⟨-, w, rest, hw, rfl, rfl⟩ | ⟨⟨⟩, -⟩
      refine ⟨[], w ++ [93], (List.append_nil _).symm, .close hw, ?_⟩
      rw [readClose_self 93 (by decide), List.append_assoc]
      rfl
    · next behind hnext =>
      rcases nextItem_eq_ok hnext with ⟨⟨⟩, -⟩ | ⟨-, g, hg, rfl⟩
      split at h
      · cases h
      · next v rest' hv =>
        obtain ⟨w, l, hw, hl, rfl⟩ := hi.complete hv
        obtain ⟨ws, ls, rfl, hls, rfl⟩ := ih h
        refine ⟨v :: ws, (g ++ w) ++ (l ++ ls), ?_, .item (hg.append hw) hl hls, ?_⟩
        · rw [List.reverse_cons, List.append_assoc]
          rfl
        · simp only [List.append_assoc]

theorem nextName_close {first : Bool} {w : List UInt8} (hw : Blanks w) (rest : List UInt8) :
    nextName first (w ++ 125 :: rest) = .ok (none, 125 :: rest) := by
  unfold nextName
  rw [skipBlanks_front hw (by decide)]
  rfl

theorem nextName_name {first : Bool} {g k : List UInt8} {n : String} (hg : Gap first g) (hn : Name n k)
    (rest : List UInt8) : nextName first (g ++ (k ++ rest)) = .ok (some n, rest) := by
  obtain ⟨bs, rfl, hread⟩ := hn
  obtain ⟨l, hl, hlocal⟩ := readString_local hread
  rw [List.append_nil] at hl
  have hname := hlocal rest
  rw [← hl] at hname
  unfold nextName
  cases hg with
  | first hw =>
    rw [List.cons_append, skipBlanks_front hw (by decide)]
    simp only [hname]
    rfl
  | further hw hw' =>
    simp only [List.append_assoc, List.cons_append]
    rw [skipBlanks_front hw (by decide)]
    simp only
    rw [if_neg (by decide), if_neg Bool.false_ne_true, if_pos trivial, skipBlanks_front hw' (by decide)]
    simp only [hname]
    rfl

theorem name_of_readString {bs rest : List UInt8} {n : String} (h : readString bs = .ok (n, rest)) :
    ∃ k, Name n k ∧ 34 :: bs = k ++ rest := by
  obtain ⟨l, hl, hlocal⟩ := readString_local h
  have hown := hlocal []
  rw [List.append_nil] at hown
  exact ⟨34 :: l, ⟨l, rfl, hown⟩, by rw [hl, List.cons_append]⟩

/-- A step finds either the end of an object, or the name of a further member behind its separator. -/
theorem nextName_eq_ok {first : Bool} {name : Option String} {bs rest : List UInt8}
    (h : nextName first bs = .ok (name, rest)) :
    (name = none ∧ ∃ w behind, Blanks w ∧ rest = 125 :: behind ∧ bs = w ++ rest) ∨
      ∃ n g k, name = some n ∧ Gap first g ∧ Name n k ∧ bs = g ++ (k ++ rest) := by
  have hname : ∀ {bs' g : List UInt8}, Gap first g → bs = g ++ 34 :: bs' →
      (readString bs').map (fun r => (some r.1, r.2)) = .ok (name, rest) →
      ∃ n g k, name = some n ∧ Gap first g ∧ Name n k ∧ bs = g ++ (k ++ rest) := by
    intro bs' g hg hbs h
    obtain ⟨⟨n, _⟩, hread, heq⟩ := map_eq_ok.mp h
    obtain ⟨rfl, rfl⟩ := Prod.mk.inj heq
    obtain ⟨k, hk, hbs'⟩ := name_of_readString hread
    exact ⟨n, g, k, rfl, hg, hk, by rw [hbs, hbs']⟩
  unfold nextName at h
  simp only at h
  split at h
  · cases h
  · next b bs' hskip =>
    obtain ⟨-, w, hw, hbs⟩ := skipBlanks_eq_cons hskip
    split at h
    · next hend =>
      cases h
      exact Or.inl ⟨rfl, w, bs', hw, hend ▸ rfl, hbs⟩
    · split at h
      · next hfirst =>
        split at h
        · next hquote => exact Or.inr (hname (hfirst ▸ .first hw) (hquote ▸ hbs) h)
        · cases h
      · next hfirst =>
        split at h
        · next hcomma =>
          split at h
          · cases h
          · next c rest' hskip' =>
            obtain ⟨-, w', hw', hbs'⟩ := skipBlanks_eq_cons hskip'
            split at h
            · next hquote =>
              refine Or.inr (hname (g := w ++ 44 :: w') ?_ ?_ h)
              · rw [Bool.eq_false_iff.mpr hfirst]
                exact .further hw hw'
              · rw [hbs, hbs', hcomma, hquote, List.append_assoc, List.cons_append]
            · split at h <;> cases h
        · cases h

theorem Colon.read {c : List UInt8} (hc : Colon c) :
    ∃ w, Blanks w ∧ ∀ rest, readColon (c ++ rest) = .ok (w ++ rest) := by
  cases hc with
  | @mk w w' hw hw' =>
    refine ⟨w', hw', fun rest => ?_⟩
    rw [List.append_assoc, List.cons_append, readColon, skipBlanks_front hw (by decide)]
    exact if_pos rfl

theorem readColon_eq_ok {bs rest : List UInt8} (h : readColon bs = .ok rest) :
    ∃ c, Colon c ∧ bs = c ++ rest := by
  unfold readColon at h
  split at h
  · cases h
  · next b bs' hskip =>
    obtain ⟨-, w, hw, hbs⟩ := skipBlanks_eq_cons hskip
    split at h
    · next hcolon =>
      cases h
      exact ⟨w ++ [58], .mk hw blanks_nil, by rw [hbs, hcolon, List.append_assoc]; rfl⟩
    · cases h

theorem length_members {first : Bool} {ms : List (String × Value)} {ls : List UInt8}
    (h : Members Item first ms ls) : ms.length < ls.length := by
  induction h with
  | close => simp
  | member hg hn hc hv hms ih =>
    obtain ⟨bs, rfl, -⟩ := hn
    simp only [List.length_append, List.length_cons]
    omega

theorem Members.numberEnds {ms : List (String × Value)} {ls : List UInt8} (h : Members Item false ms ls)
    (rest : List UInt8) : NumberEnds (ls ++ rest) := by
  cases h with
  | close hw =>
    rw [List.append_assoc]
    exact hw.numberEnds ⟨rfl, by decide, rfl⟩
  | member hg hn hc hv hms =>
    rw [List.append_assoc]
    exact hg.numberEnds _

/-- The members of an object are read from their octets. -/
theorem readMembers_members (hi : Follows item Item) {first : Bool} {ms : List (String × Value)}
    {ls : List UInt8} (h : Members Item first ms ls) {fuel : Nat} (hf : ms.length < fuel)
    (acc : List (String × Value)) (rest : List UInt8) :
    readMembers item fuel first acc (ls ++ rest) = .ok (acc.reverse ++ ms, rest) := by
  induction h generalizing fuel acc with
  | close hw =>
    obtain ⟨fuel, rfl⟩ := Nat.exists_eq_succ_of_ne_zero (Nat.ne_of_gt hf)
    rw [List.append_assoc, List.singleton_append, readMembers, nextName_close hw, List.append_nil]
    simp only [readClose_self 125 (by decide)]
  | member hg hn hc hv hms ih =>
    obtain ⟨fuel, rfl⟩ := Nat.exists_eq_succ_of_ne_zero (Nat.ne_zero_of_lt hf)
    obtain ⟨w, hw, hcolon⟩ := hc.read
    simp only [List.append_assoc]
    rw [readMembers, nextName_name hg hn]
    simp only [hcolon, hi.sound hw hv (hms.numberEnds rest)]
    rw [ih (Nat.lt_of_succ_lt_succ hf), List.reverse_cons, List.append_assoc]
    rfl

/-- What is read as the members of an object are their octets. -/
theorem readMembers_eq_ok (hi : Follows item Item) {fuel : Nat} {first : Bool}
    {acc ms : List (String × Value)} {bs rest : List UInt8}
    (h : readMembers item fuel first acc bs = .ok (ms, rest)) :
    ∃ ns ls, ms = acc.reverse ++ ns ∧ Members Item first ns ls ∧ bs = ls ++ rest := by
  induction fuel generalizing first acc bs with
  | zero => cases h
  | succ fuel ih =>
    rw [readMembers] at h
    split at h
    · cases h
    · next behind hnext =>
      cases h
      rcases nextName_eq_ok hnext with ⟨-, w, rest, hw, rfl, rfl⟩ | ⟨_, _, _, ⟨⟩, -⟩
      refine ⟨[], w ++ [125], (List.append_nil _).symm, .close hw, ?_⟩
      rw [readClose_self 125 (by decide), List.append_assoc]
      rfl
    · next n behind hnext =>
      rcases nextName_eq_ok hnext with ⟨⟨⟩, -⟩ | ⟨_, g, k, ⟨⟩, hg, hk, rfl⟩
      split at h
      · cases h
      · next hcolon =>
        obtain ⟨c, hc, rfl⟩ := readColon_eq_ok hcolon
        split at h
        · cases h
        · next v rest' hv =>
          obtain ⟨w, l, hw, hl, rfl⟩ := hi.complete hv
          obtain ⟨ns, ls, rfl, hls, rfl⟩ := ih h
          refine ⟨(n, v) :: ns, g ++ (k ++ ((c ++ w) ++ (l ++ ls))), ?_,
            .member hg hk (hc.append hw) hl hls, ?_⟩
          · rw [List.reverse_cons, List.append_assoc]
            rfl
          · simp only [List.append_assoc]

/-! ### Values -/

theorem Lexeme.scalar {v : Value} {l : List UInt8} (h : Lexeme v l) : v.depth = 0 := by
  obtain ⟨b, bs, -, hread⟩ := h
  exact (readScalar_fits hread).1

/-- A scalar is not read from octets that begin with a blank or a bracket. -/
theorem readScalar_front {b : UInt8} {bs rest : List UInt8} {v : Value}
    (h : readScalar b bs = .ok (v, rest)) : isBlankOctet b = false ∧ b ∉ [91, 93, 123] := by
  constructor
  · cases hb : isBlankOctet b with
    | false => rfl
    | true =>
      rcases of_decide_eq_true hb with rfl | rfl | rfl | rfl <;> cases h
  · intro hb
    simp only [List.mem_cons, List.not_mem_nil, or_false] at hb
    rcases hb with rfl | rfl | rfl <;> cases h

theorem readScalar_lexeme {b : UInt8} {bs rest : List UInt8} {v : Value}
    (h : readScalar b bs = .ok (v, rest)) : ∃ l, Lexeme v l ∧ b :: bs = l ++ rest := by
  obtain ⟨l, hl, hlocal⟩ := local_readScalar b bs v rest h
  have hown := hlocal [] trivial
  rw [List.append_nil] at hown
  exact ⟨b :: l, ⟨b, l, rfl, hown⟩, by rw [hl, List.cons_append]⟩

theorem Lexeme.read {v : Value} {l : List UInt8} (h : Lexeme v l) {rest : List UInt8}
    (hrest : NumberEnds rest) : ∃ b bs, l = b :: bs ∧ readScalar b (bs ++ rest) = .ok (v, rest) := by
  obtain ⟨b, bs, rfl, hread⟩ := h
  obtain ⟨l, hl, hlocal⟩ := local_readScalar b bs v [] hread
  rw [List.append_nil] at hl
  exact ⟨b, bs, rfl, hl ▸ hlocal rest hrest⟩

/-- A value is spelled as a scalar, an array or an object. -/
theorem spells_cases {depth : Nat} {v : Value} {l : List UInt8} (h : Spells depth v l) :
    Lexeme v l ∨ ∃ d ls, depth = d + 1 ∧
      ((∃ vs, v = .arr vs ∧ l = 91 :: ls ∧ Items (Spells d) true vs ls) ∨
        ∃ ms, v = .obj ms ∧ l = 123 :: ls ∧ Members (Spells d) true ms ls) := by
  unfold Spells at h
  split at h
  · next d vs =>
    obtain ⟨ls, hl, hls⟩ := h
    exact Or.inr ⟨d, ls, rfl, Or.inl ⟨vs, rfl, hl, hls⟩⟩
  · next d ms =>
    obtain ⟨ls, hl, hls⟩ := h
    exact Or.inr ⟨d, ls, rfl, Or.inr ⟨ms, rfl, hl, hls⟩⟩
  · exact Or.inl h

theorem spells_lexeme {v : Value} {l : List UInt8} (h : Lexeme v l) (depth : Nat) : Spells depth v l := by
  have hv := h.scalar
  cases v with
  | arr vs => exact absurd hv (Nat.succ_ne_zero _)
  | obj ms => exact absurd hv (Nat.succ_ne_zero _)
  | _ => cases depth <;> exact h

theorem lexeme_of_spells {depth : Nat} {v : Value} {l : List UInt8} (h : Spells depth v l)
    (hv : v.depth = 0) : Lexeme v l := by
  rcases spells_cases h with h | ⟨d, ls, -, ⟨vs, rfl, -⟩ | ⟨ms, rfl, -⟩⟩
  · exact h
  · exact absurd hv (Nat.succ_ne_zero _)
  · exact absurd hv (Nat.succ_ne_zero _)

theorem spells_front {depth : Nat} {v : Value} {l : List UInt8} (h : Spells depth v l) :
    ∃ b ls, l = b :: ls ∧ isBlankOctet b = false ∧ b ≠ 93 := by
  rcases spells_cases h with ⟨b, bs, rfl, hread⟩ | ⟨d, ls, -, ⟨vs, -, rfl, -⟩ | ⟨ms, -, rfl, -⟩⟩
  · obtain ⟨hb, hne⟩ := readScalar_front hread
    exact ⟨b, bs, rfl, hb, fun h => hne (by simp [h])⟩
  · exact ⟨91, ls, rfl, by decide, by decide⟩
  · exact ⟨123, ls, rfl, by decide, by decide⟩

/-- A value is read from its octets, if those of its parts are. -/
theorem readValue_spells {depth : Nat} (ih : ∀ d, depth = d + 1 → Follows (readValue d) (Spells d))
    {w l rest : List UInt8} {v : Value} (hw : Blanks w) (h : Spells depth v l) (hrest : NumberEnds rest) :
    readValue depth (w ++ (l ++ rest)) = .ok (v, rest) := by
  rcases spells_cases h with h | ⟨d, ls, rfl, ⟨vs, rfl, rfl, hls⟩ | ⟨ms, rfl, rfl, hls⟩⟩
  · obtain ⟨b, bs, rfl, hread⟩ := h.read hrest
    obtain ⟨hb, hne⟩ := readScalar_front hread
    rw [List.cons_append, readValue, skipBlanks_front hw hb]
    simp only
    rw [if_neg fun h => hne (by simp [h]), if_neg fun h => hne (by simp [h]), hread]
  · have hfuel : vs.length < (ls ++ rest).length + 1 := by
      have hlength := length_items (ih d rfl) hls
      rw [List.length_append]
      omega
    rw [List.cons_append, readValue, skipBlanks_front hw (by decide)]
    simp only
    rw [if_pos trivial, readItems_items (ih d rfl) hls hfuel]
    rfl
  · have hfuel : ms.length < (ls ++ rest).length + 1 := by
      have hlength := length_members hls
      rw [List.length_append]
      omega
    rw [List.cons_append, readValue, skipBlanks_front hw (by decide)]
    simp only
    rw [if_neg (by decide), if_pos trivial, readMembers_members (ih d rfl) hls hfuel]
    rfl

/-- What is read as a value are its octets, if that holds of its parts. -/
theorem readValue_eq_ok {depth : Nat} (ih : ∀ d, depth = d + 1 → Follows (readValue d) (Spells d))
    {bs rest : List UInt8} {v : Value} (h : readValue depth bs = .ok (v, rest)) :
    ∃ w l, Blanks w ∧ Spells depth v l ∧ bs = w ++ (l ++ rest) := by
  rw [readValue] at h
  split at h
  · cases h
  · next b bs' hskip =>
    obtain ⟨-, w, hw, hbs⟩ := skipBlanks_eq_cons hskip
    split at h
    · next harr =>
      cases depth with
      | zero => cases h
      | succ depth =>
        obtain ⟨⟨vs, _⟩, hvs, heq⟩ := map_eq_ok.mp h
        obtain ⟨rfl, rfl⟩ := Prod.mk.inj heq
        obtain ⟨_, ls, rfl, hls, rfl⟩ := readItems_eq_ok (ih depth rfl) hvs
        exact ⟨w, 91 :: ls, hw, ⟨ls, rfl, hls⟩, by rw [hbs, harr, List.cons_append]⟩
    · split at h
      · next hobj =>
        cases depth with
        | zero => cases h
        | succ depth =>
          obtain ⟨⟨ms, _⟩, hms, heq⟩ := map_eq_ok.mp h
          obtain ⟨rfl, rfl⟩ := Prod.mk.inj heq
          obtain ⟨_, ls, rfl, hls, rfl⟩ := readMembers_eq_ok (ih depth rfl) hms
          exact ⟨w, 123 :: ls, hw, ⟨ls, rfl, hls⟩, by rw [hbs, hobj, List.cons_append]⟩
      · obtain ⟨l, hl, hl'⟩ := readScalar_lexeme h
        exact ⟨w, l, hw, spells_lexeme hl depth, by rw [hbs, hl']⟩

/-- **The reader follows the grammar**, at every depth. -/
theorem follows_readValue (depth : Nat) : Follows (readValue depth) (Spells depth) := by
  induction depth using Nat.strongRecOn with
  | ind depth ih =>
    have hparts : ∀ d, depth = d + 1 → Follows (readValue d) (Spells d) := fun d hd =>
      ih d (hd ▸ Nat.lt_succ_self d)
    exact ⟨spells_front, readValue_spells hparts, readValue_eq_ok hparts⟩

theorem readEnd_eq_ok {bs : List UInt8} : readEnd bs = .ok () ↔ Blanks bs := by
  unfold readEnd
  split
  · next hskip => exact iff_of_true rfl (List.dropWhile_eq_nil_iff.mp hskip)
  · next b rest hskip =>
    refine iff_of_false (by simp) fun h => ?_
    have hnil : skipBlanks bs = [] := List.dropWhile_eq_nil_iff.mpr h
    rw [hnil] at hskip
    cases hskip

/-- **A document is read as a value if and only if it spells this value.** -/
theorem readDocument_eq_ok {bs : List UInt8} {v : Value} :
    readDocument bs = .ok v ↔ Document v bs := by
  constructor
  · intro h
    unfold readDocument at h
    split at h
    · cases h
    · next v' rest hread =>
      obtain ⟨_, hend, rfl⟩ := map_eq_ok.mp h
      obtain ⟨w, l, hw, hl, hbs⟩ := (follows_readValue maxDepth).complete hread
      exact ⟨w, l, rest, hw, hl, readEnd_eq_ok.mp hend, hbs⟩
  · rintro ⟨w, l, w', hw, hl, hw', rfl⟩
    have hends : NumberEnds w' := by
      have hnil : NumberEnds [] := trivial
      simpa using hw'.numberEnds hnil
    rw [readDocument, (follows_readValue maxDepth).sound hw hl hends]
    simp only [readEnd_eq_ok.mpr hw']
    rfl

/-- A text spells one value at most. -/
theorem Document.unique {bs : List UInt8} {v v' : Value} (h : Document v bs) (h' : Document v' bs) :
    v = v' :=
  Except.ok.inj ((readDocument_eq_ok.mpr h).symm.trans (readDocument_eq_ok.mpr h'))

end DebugHost.Json
