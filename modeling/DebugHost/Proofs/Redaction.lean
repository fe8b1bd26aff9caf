import DebugHost.Record
import DebugHost.Redaction
import DebugHost.Text.Quoted

/-! # What redaction leaves

A text without double quotes and grave accents passes redaction as it is, and so do such texts in front
of a redacted text and behind it (`redact_between`). Of a quoted text nothing is left but the mark if and
only if it has no double quote (`shown_eq_masked`), since a double quote within a text is a double quote
behind a backslash and looks like the end of the text. Of a text between grave accents nothing is left
if and only if its double quotes come in pairs and no grave accent stands outside of them
(`shownTicked_eq_masked`). -/

namespace DebugHost.Redaction

open DebugHost.Text

/-! ### Cutting -/

variable {c : Char} {a b cs : List Char}

theorem cut_none (h : c ∉ cs) : cut c cs = none := by
  induction cs with
  | nil => rfl
  | cons x cs ih =>
    have hx : x ≠ c := fun hx => h (hx ▸ List.mem_cons_self ..)
    rw [cut, if_neg hx, ih fun hc => h (List.mem_cons_of_mem x hc)]
    rfl

theorem cut_at (h : c ∉ a) : cut c (a ++ c :: b) = some (a, b) := by
  induction a with
  | nil => exact if_pos rfl
  | cons x a ih =>
    have hx : x ≠ c := fun hx => h (hx ▸ List.mem_cons_self ..)
    rw [List.cons_append, cut, if_neg hx, ih fun hc => h (List.mem_cons_of_mem x hc)]
    rfl

/-! ### Double quotes -/

theorem quotes_none (h : '"' ∉ cs) : quotes cs = (cs, false) := by
  unfold quotes
  split
  · rfl
  · next hcut =>
    rw [cut_none h] at hcut
    cases hcut

theorem quotes_one (ha : '"' ∉ a) (hb : '"' ∉ b) :
    quotes (a ++ '"' :: b) = (a ++ '"' :: b, true) := by
  unfold quotes
  split
  · next hcut =>
    rw [cut_at ha] at hcut
    cases hcut
  · next hcut =>
    rw [cut_at ha] at hcut
    cases hcut
    split
    · rfl
    · next hcut' =>
      rw [cut_none hb] at hcut'
      cases hcut'

theorem quotes_pair (ha : '"' ∉ a) (hb : '"' ∉ b) (cs : List Char) :
    quotes (a ++ '"' :: (b ++ '"' :: cs)) =
      (a ++ '"' :: (mark ++ '"' :: (quotes cs).1), (quotes cs).2) := by
  rw [quotes]
  split
  · next hcut =>
    rw [cut_at ha] at hcut
    cases hcut
  · next hcut =>
    rw [cut_at ha] at hcut
    cases hcut
    split
    · next hcut' =>
      rw [cut_at hb] at hcut'
      cases hcut'
    · next hcut' =>
      rw [cut_at hb] at hcut'
      cases hcut'
      rfl

/-- Induction over a text by its pairs of double quotes. -/
@[elab_as_elim]
theorem pairs {P : List Char → Prop} (none : ∀ cs, '"' ∉ cs → P cs)
    (one : ∀ a b, '"' ∉ a → '"' ∉ b → P (a ++ '"' :: b))
    (pair : ∀ a b cs, '"' ∉ a → '"' ∉ b → P cs → P (a ++ '"' :: (b ++ '"' :: cs)))
    (cs : List Char) : P cs := by
  induction hn : cs.length using Nat.strongRecOn generalizing cs with
  | ind n ih =>
    subst hn
    by_cases h : '"' ∈ cs
    · obtain ⟨a, rest, rfl, ha⟩ := List.eq_append_cons_of_mem h
      by_cases h' : '"' ∈ rest
      · obtain ⟨b, rest', rfl, hb⟩ := List.eq_append_cons_of_mem h'
        refine pair a b rest' ha hb (ih rest'.length ?_ rest' rfl)
        simp only [List.length_append, List.length_cons]
        omega
      · exact one a rest ha h'
    · exact none cs h

theorem quotes_append (cs : List Char) (hb : '"' ∉ b) :
    quotes (cs ++ b) = ((quotes cs).1 ++ b, (quotes cs).2) := by
  induction cs using pairs with
  | none cs h => rw [quotes_none h, quotes_none (by simp [h, hb])]
  | one a a' ha ha' =>
    rw [List.append_assoc, List.cons_append, quotes_one ha (by simp [ha', hb]), quotes_one ha ha',
      List.append_assoc, List.cons_append]
  | pair a a' cs ha ha' ih =>
    rw [List.append_assoc, List.cons_append, List.append_assoc, List.cons_append, quotes_pair ha ha',
      ih, quotes_pair ha ha']
    simp only [List.append_assoc, List.cons_append]

theorem append_quotes (ha : '"' ∉ a) (cs : List Char) :
    quotes (a ++ cs) = (a ++ (quotes cs).1, (quotes cs).2) := by
  induction cs using pairs with
  | none cs h => rw [quotes_none h, quotes_none (by simp [ha, h])]
  | one b b' hb hb' =>
    rw [← List.append_assoc, quotes_one (by simp [ha, hb]) hb', quotes_one hb hb', List.append_assoc]
  | pair b b' cs hb hb' _ =>
    rw [← List.append_assoc, quotes_pair (by simp [ha, hb]) hb', quotes_pair hb hb',
      List.append_assoc]

/-- A quote that is left without a partner stays in the text. -/
theorem mem_quotes_of_open (h : (quotes cs).2 = true) : '"' ∈ (quotes cs).1 := by
  induction cs using pairs with
  | none cs hcs =>
    rw [quotes_none hcs] at h
    cases h
  | one a b ha hb => simp [quotes_one ha hb]
  | pair a b cs ha hb _ => simp [quotes_pair ha hb]

theorem quotes_ne_nil (h : cs ≠ []) : (quotes cs).1 ≠ [] := by
  cases cs using pairs with
  | none cs hcs => rwa [quotes_none hcs]
  | one a b ha hb => simp [quotes_one ha hb]
  | pair a b cs ha hb _ => simp [quotes_pair ha hb]

/-! ### Grave accents -/

theorem accents_none (h : '`' ∉ cs) : accents cs = cs := by
  rw [accents, cut_none h]

theorem accents_one (ha : '`' ∉ a) (hb : '`' ∉ b) : accents (a ++ '`' :: b) = a ++ '`' :: b := by
  rw [accents, cut_at ha]
  simp only [cut_none hb]

theorem accents_pair (ha : '`' ∉ a) (hb : '`' ∉ b) (cs : List Char) :
    accents (a ++ '`' :: (b ++ '`' :: cs)) = a ++ '`' :: (mark ++ '`' :: cs) := by
  rw [accents, cut_at ha]
  simp only [cut_at hb]

theorem accents_pair_front (hb : '`' ∉ b) (cs : List Char) :
    accents ('`' :: (b ++ '`' :: cs)) = '`' :: (mark ++ '`' :: cs) :=
  accents_pair List.not_mem_nil hb cs

theorem append_accents (ha : '`' ∉ a) (cs : List Char) : accents (a ++ cs) = a ++ accents cs := by
  by_cases h : '`' ∈ cs
  · obtain ⟨b, rest, rfl, hb⟩ := List.eq_append_cons_of_mem h
    have hab : '`' ∉ a ++ b := by simp [ha, hb]
    by_cases h' : '`' ∈ rest
    · obtain ⟨b', rest', rfl, hb'⟩ := List.eq_append_cons_of_mem h'
      rw [accents_pair hb hb', ← List.append_assoc, accents_pair hab hb', List.append_assoc]
    · rw [accents_one hb h', ← List.append_assoc, accents_one hab h', List.append_assoc]
  · rw [accents_none h, accents_none (by simp [ha, h])]

theorem accents_append (hb : '`' ∉ b) (cs : List Char) : accents (cs ++ b) = accents cs ++ b := by
  by_cases h : '`' ∈ cs
  · obtain ⟨a, rest, rfl, ha⟩ := List.eq_append_cons_of_mem h
    by_cases h' : '`' ∈ rest
    · obtain ⟨a', rest', rfl, ha'⟩ := List.eq_append_cons_of_mem h'
      rw [accents_pair ha ha']
      simp only [List.append_assoc, List.cons_append]
      rw [accents_pair ha ha']
    · rw [accents_one ha h']
      simp only [List.append_assoc, List.cons_append]
      rw [accents_one ha (by simp [h', hb])]
  · rw [accents_none h, accents_none (by simp [h, hb])]

/-- Once two grave accents have been seen, what comes behind does not matter. -/
theorem accents_ticked_append (q b : List Char) :
    accents ('`' :: (q ++ '`' :: b)) = accents ('`' :: (q ++ ['`'])) ++ b := by
  by_cases h : '`' ∈ q
  · obtain ⟨a, rest, rfl, ha⟩ := List.eq_append_cons_of_mem h
    simp only [List.append_assoc, List.cons_append, accents_pair_front ha, List.nil_append]
  · simp only [List.append_assoc, List.cons_append, accents_pair_front h, List.nil_append]

theorem accents_ne_nil (h : cs ≠ []) : accents cs ≠ [] := by
  unfold accents
  split
  · exact h
  · split
    · exact h
    · simp

/-! ### Redacting a message -/

/-- A text that redaction neither changes nor takes for a part of another: it has no double quote and no
grave accent. -/
def Plain (cs : List Char) : Prop := '"' ∉ cs ∧ '`' ∉ cs

instance (cs : List Char) : Decidable (Plain cs) := inferInstanceAs (Decidable (_ ∧ _))

theorem plain_nil : Plain [] := ⟨List.not_mem_nil, List.not_mem_nil⟩

theorem plain_mark : Plain mark := by decide

theorem Plain.append (ha : Plain a) (hb : Plain b) : Plain (a ++ b) :=
  ⟨fun h => (List.mem_append.mp h).elim ha.1 hb.1, fun h => (List.mem_append.mp h).elim ha.2 hb.2⟩

theorem append_redactChars (ha : Plain a) (cs : List Char) :
    redactChars (a ++ cs) = a ++ redactChars cs := by
  rw [redactChars, append_quotes ha.1, redactChars]
  rcases h : quotes cs with ⟨q, _ | _⟩
  · exact append_accents ha.2 q
  · rfl

theorem redactChars_append (hb : Plain b) (cs : List Char) :
    redactChars (cs ++ b) = redactChars cs ++ b := by
  rw [redactChars, quotes_append cs hb.1, redactChars]
  rcases h : quotes cs with ⟨q, _ | _⟩
  · exact accents_append hb.2 q
  · rfl

theorem redactChars_pair (ha : Plain a) (hb : '"' ∉ b) (cs : List Char) :
    redactChars (a ++ '"' :: (b ++ '"' :: cs)) = a ++ '"' :: (mark ++ '"' :: redactChars cs) := by
  have hmark : '`' ∉ a ++ '"' :: (mark ++ ['"']) := by
    simp [plain_mark.2, ha.2]
  rw [redactChars, quotes_pair ha.1 hb, redactChars]
  rcases h : quotes cs with ⟨q, _ | _⟩
  · have happend := append_accents hmark q
    simpa only [List.append_assoc, List.cons_append, List.nil_append] using happend
  · rfl

theorem redactChars_pair_front (hb : '"' ∉ b) (cs : List Char) :
    redactChars ('"' :: (b ++ '"' :: cs)) = '"' :: (mark ++ '"' :: redactChars cs) :=
  redactChars_pair plain_nil hb cs

theorem redactChars_ne_nil (h : cs ≠ []) : redactChars cs ≠ [] := by
  have hq := quotes_ne_nil h
  unfold redactChars
  rcases hqs : quotes cs with ⟨q, _ | _⟩ <;> rw [hqs] at hq
  · exact accents_ne_nil hq
  · exact hq

/-- **A plain text in front of a text and one behind it pass redaction.** -/
theorem redact_between {p q : String} (hp : Plain p.toList) (hq : Plain q.toList) (s : String) :
    redact (p ++ s ++ q) = p ++ redact s ++ q := by
  apply String.toList_inj.mp
  simp only [redact, String.toList_append, String.toList_ofList, redactChars_append hq,
    append_redactChars hp]

/-! ### Quoted texts -/

/-- What stands for a redacted text between double quotes. -/
def masked : String := "\"<redacted>\""

theorem toList_masked : masked.toList = '"' :: (mark ++ ['"']) := rfl

/-- What redaction leaves of a quoted text. -/
def shown (s : String) : String := redact (Quoted.quote s)

theorem digitChar_ne_quote : ∀ n < 16, Nat.digitChar n ≠ '"' := by
  decide

theorem toDigitsCore_ne_quote {base : Nat} (hpos : 0 < base) (hle : base ≤ 16) (fuel n : Nat)
    {ds : List Char} (h : '"' ∉ ds) : '"' ∉ Nat.toDigitsCore base fuel n ds := by
  induction fuel generalizing n ds with
  | zero => exact h
  | succ fuel ih =>
    have hcons : '"' ∉ Nat.digitChar (n % base) :: ds := by
      intro hmem
      rcases List.mem_cons.mp hmem with hd | hd
      · exact digitChar_ne_quote _ (Nat.lt_of_lt_of_le (Nat.mod_lt n hpos) hle) hd.symm
      · exact h hd
    rw [Nat.toDigitsCore]
    split
    · exact hcons
    · exact ih _ hcons

theorem toString_ne_quote (n : Nat) : '"' ∉ (toString n).toList := by
  show '"' ∉ (String.ofList (Nat.toDigits 10 n)).toList
  rw [String.toList_ofList]
  exact toDigitsCore_ne_quote (by decide) (by decide) _ _ List.not_mem_nil

/-- An escape has a double quote only if it stands for one. -/
theorem quote_mem_escape {c : Char} (h : '"' ∈ (Quoted.escape c).toList) : c = '"' := by
  unfold Quoted.escape at h
  split at h
  · rfl
  iterate 5 exact absurd h (by decide)
  split at h
  · simp only [String.toList_append, List.mem_append, Quoted.hex, String.toList_ofList] at h
    rcases h with (h | h) | h
    · exact absurd h (by decide)
    · exact absurd h (toDigitsCore_ne_quote (by decide) (by decide) _ _ List.not_mem_nil)
    · exact absurd h (by decide)
  · rw [Char.toString, String.toList_singleton, List.mem_singleton] at h
    exact h.symm

/-- What stands between the double quotes of a quoted text. -/
def escapes (s : String) : List Char := s.toList.flatMap fun c => (Quoted.escape c).toList

theorem toList_quote (s : String) : (Quoted.quote s).toList = '"' :: (escapes s ++ ['"']) := by
  rw [Quoted.quote, String.toList_append, String.toList_append, String.toList_join, List.flatMap_map]
  rfl

theorem quote_mem_escapes {s : String} : '"' ∈ escapes s ↔ '"' ∈ s.toList := by
  rw [escapes, List.mem_flatMap]
  constructor
  · rintro ⟨c, hc, h⟩
    exact quote_mem_escape h ▸ hc
  · exact fun h => ⟨'"', h, by decide⟩

/-- **A quoted text is hidden just when it has no double quote.** -/
theorem shown_eq_masked {s : String} : shown s = masked ↔ '"' ∉ s.toList := by
  rw [← quote_mem_escapes, ← String.toList_inj, shown, redact, String.toList_ofList, toList_quote]
  constructor
  · intro h hmem
    obtain ⟨a, b, hab, ha⟩ := List.eq_append_cons_of_mem hmem
    rw [hab, List.append_assoc, List.cons_append, redactChars_pair_front ha] at h
    -- what stands behind the second double quote is redacted by itself, and is not empty
    have hrest : redactChars (b ++ ['"']) = [] := by
      rw [toList_masked, List.cons.injEq, List.append_cancel_left_eq, List.cons.injEq] at h
      exact h.2.2
    exact redactChars_ne_nil (by simp) hrest
  · intro hmem
    rw [redactChars_pair_front hmem, redactChars, quotes_none List.not_mem_nil, toList_masked]
    rfl

/-! ### Texts between grave accents -/

/-- What stands for a redacted text between grave accents. -/
def maskedTicked : String := "`<redacted>`"

theorem toList_maskedTicked : maskedTicked.toList = '`' :: (mark ++ ['`']) := rfl

/-- What redaction leaves of a text between grave accents. -/
def shownTicked (s : String) : String := redact (ticked s)

theorem toList_ticked (s : String) : (ticked s).toList = '`' :: (s.toList ++ ['`']) := by
  rw [ticked, String.toList_append, String.toList_append]
  rfl

theorem quotes_ticked (cs b : List Char) (hb : '"' ∉ b) :
    quotes ('`' :: (cs ++ '`' :: b)) = ('`' :: ((quotes cs).1 ++ '`' :: b), (quotes cs).2) := by
  have hfront : '"' ∉ ['`'] := by decide
  have hback : '"' ∉ '`' :: b := by simp [hb]
  have h := append_quotes hfront (cs ++ '`' :: b)
  rw [quotes_append cs hback] at h
  exact h

theorem redactChars_ticked_append (cs : List Char) (hb : '"' ∉ b) :
    redactChars ('`' :: (cs ++ '`' :: b)) = redactChars ('`' :: (cs ++ ['`'])) ++ b := by
  rw [redactChars, quotes_ticked cs b hb, redactChars, quotes_ticked cs [] (by decide)]
  rcases h : quotes cs with ⟨q, _ | _⟩
  · exact accents_ticked_append q b
  · simp only [List.cons_append, List.append_assoc, List.nil_append]

/-- **A plain text in front of a text between grave accents passes redaction, and so does whatever stands
behind and has no double quote.** -/
theorem redact_ticked {p q : String} (hp : Plain p.toList) (hq : '"' ∉ q.toList) (s : String) :
    redact (p ++ ticked s ++ q) = p ++ shownTicked s ++ q := by
  apply String.toList_inj.mp
  simp only [shownTicked, redact, String.toList_append, String.toList_ofList, toList_ticked,
    List.append_assoc, append_redactChars hp, List.cons_append, List.nil_append,
    redactChars_ticked_append _ hq]

/-- **A text between grave accents is hidden just when its double quotes come in pairs, with no grave
accent outside of them.** -/
theorem shownTicked_eq_masked {s : String} :
    shownTicked s = maskedTicked ↔
      (quotes s.toList).2 = false ∧ '`' ∉ (quotes s.toList).1 := by
  rw [← String.toList_inj, shownTicked, redact, String.toList_ofList, toList_ticked, redactChars,
    quotes_ticked s.toList [] (by decide)]
  rcases hqs : quotes s.toList with ⟨q, _ | _⟩
  · simp only [true_and]
    by_cases h : '`' ∈ q
    · obtain ⟨a, b, rfl, ha⟩ := List.eq_append_cons_of_mem h
      simp only [List.append_assoc, List.cons_append, accents_pair_front ha, h, not_true_eq_false,
        iff_false]
      intro heq
      rw [toList_maskedTicked, List.cons.injEq, List.append_cancel_left_eq, List.cons.injEq] at heq
      exact absurd heq.2.2 (by simp)
    · simp only [accents_pair_front h, h, not_false_eq_true, toList_maskedTicked]
  · simp only [Bool.true_eq_false, false_and, iff_false]
    intro heq
    have hopen := mem_quotes_of_open (congrArg Prod.snd hqs)
    rw [hqs] at hopen
    have hmem : '"' ∈ maskedTicked.toList := by
      rw [← heq]
      simp [hopen]
    exact absurd hmem (by decide)

/-- A plain text between grave accents is hidden. -/
theorem shownTicked_of_plain {s : String} (h : Plain s.toList) : shownTicked s = maskedTicked := by
  rw [shownTicked_eq_masked, quotes_none h.1]
  exact ⟨rfl, h.2⟩

end DebugHost.Redaction
