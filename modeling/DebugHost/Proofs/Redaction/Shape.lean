import DebugHost.Proofs.Redaction
import Mathlib.Algebra.Ring.Parity

/-! # The shape of a redacted message

The double quotes of a text are paired from left to right: `BetweenQuotes x cs` if `x` stands between the
two of a pair, `BetweenAccents x cs` if it stands between the first two grave accents.

* `redactChars_eq_self_iff`: a text is the redaction of some text, and then of itself, if and only if all
  its pairs enclose the mark and, where every double quote has a partner, its first two grave accents do
  so too. With `redactChars_redactChars` this says which texts redaction can leave.
* `even_front`: where all pairs enclose the mark and no quote is left over, a grave accent stands outside
  of the pairs, since the mark has none. So the text between two of them holds whole pairs only, and
  putting the mark in its place breaks no pair.
* `redaction_shape`: what the result of redacting a message looks like. A double quote without a partner
  ends redaction before the grave accents are looked at, and then all that stands outside of the pairs is
  shown. -/

namespace DebugHost.Redaction

variable {x a b c d cs : List Char}

/-- What stands in front of the first `q` and what stands behind are determined. -/
theorem first_inj {q : Char} (ha : q ∉ a) (hb : q ∉ b) (h : a ++ q :: c = b ++ q :: d) :
    a = b ∧ c = d := by
  have hcut := cut_at (b := c) ha
  rw [h, cut_at hb, Option.some.injEq, Prod.mk.injEq] at hcut
  exact ⟨hcut.1.symm, hcut.2.symm⟩

/-! ### Counting double quotes -/

theorem count_one (ha : '"' ∉ a) (hb : '"' ∉ b) : (a ++ '"' :: b).count '"' = 1 := by
  rw [List.count_append, List.count_cons_self, List.count_eq_zero.mpr ha, List.count_eq_zero.mpr hb]

theorem count_pair (ha : '"' ∉ a) (hb : '"' ∉ b) :
    (a ++ '"' :: (b ++ '"' :: cs)).count '"' = cs.count '"' + 1 + 1 := by
  rw [List.count_append, List.count_cons_self, List.count_append, List.count_cons_self,
    List.count_eq_zero.mpr ha, List.count_eq_zero.mpr hb, Nat.zero_add, Nat.zero_add]

theorem count_quotes (cs : List Char) : (quotes cs).1.count '"' = cs.count '"' := by
  induction cs using pairs with
  | none cs h => rw [quotes_none h]
  | one a b ha hb => rw [quotes_one ha hb]
  | pair a b cs ha hb ih =>
    rw [quotes_pair ha hb, count_pair ha plain_mark.1, count_pair ha hb, ih]

/-- A quote is left without a partner just when their number is odd. -/
theorem quotes_open_iff : (quotes cs).2 = true ↔ Odd (cs.count '"') := by
  induction cs using pairs with
  | none cs h => simp [quotes_none h, List.count_eq_zero.mpr h]
  | one a b ha hb => simp [quotes_one ha hb, count_one ha hb]
  | pair a b cs ha hb ih =>
    simp only [quotes_pair ha hb, ih, count_pair ha hb, Nat.odd_add_one, not_not]

/-- Behind whole pairs the double quotes are redacted anew. -/
theorem quotes_append_of_even (ha : Even (a.count '"')) (cs : List Char) :
    quotes (a ++ cs) = ((quotes a).1 ++ (quotes cs).1, (quotes cs).2) := by
  induction a using pairs with
  | none a h => rw [append_quotes h, quotes_none h]
  | one a b h h' =>
    rw [count_one h h'] at ha
    exact absurd ha (by decide)
  | pair a b a' h h' ih =>
    simp only [count_pair h h', Nat.even_add_one, not_not] at ha
    rw [List.append_assoc, List.cons_append, List.append_assoc, List.cons_append, quotes_pair h h',
      ih ha, quotes_pair h h']
    simp only [List.append_assoc, List.cons_append]

/-! ### Between a pair of double quotes -/

/-- `x` stands between a pair of double quotes: an even number of them is in front of the first. -/
def BetweenQuotes (x cs : List Char) : Prop :=
  ∃ a c, cs = a ++ '"' :: (x ++ '"' :: c) ∧ Even (a.count '"') ∧ '"' ∉ x

theorem BetweenQuotes.two_le_count (h : BetweenQuotes x cs) : 2 ≤ cs.count '"' := by
  obtain ⟨a, c, rfl, -, -⟩ := h
  simp only [List.count_append, List.count_cons_self]
  omega

/-- Behind whole pairs the pairs are counted anew. -/
theorem betweenQuotes_append (ha : Even (a.count '"')) :
    BetweenQuotes x (a ++ cs) ↔ BetweenQuotes x a ∨ BetweenQuotes x cs := by
  constructor
  · rintro ⟨u, c, heq, hu, hx⟩
    rcases List.append_eq_append_iff.mp heq with ⟨w, rfl, hcs⟩ | ⟨w, rfl, hw⟩
    · rw [List.count_append, Nat.even_add] at hu
      exact .inr ⟨w, c, hcs, hu.mp ha, hx⟩
    · cases w with
      | nil => exact .inr ⟨[], c, hw.symm, Even.zero, hx⟩
      | cons q w =>
        rw [List.cons_append, List.cons.injEq] at hw
        obtain ⟨rfl, hw⟩ := hw
        -- the pair begins within `a`, so it ends there: else `a` has an odd number of quotes
        by_cases hclose : '"' ∈ w
        · obtain ⟨y, v, rfl, hy⟩ := List.eq_append_cons_of_mem hclose
          rw [List.append_assoc, List.cons_append] at hw
          obtain ⟨rfl, -⟩ := first_inj hx hy hw
          exact .inl ⟨u, v, rfl, hu, hx⟩
        · rw [List.count_append, List.count_cons_self, List.count_eq_zero.mpr hclose, Nat.even_add,
            iff_true_left hu] at ha
          exact absurd ha (by decide)
  · rintro (⟨u, c, rfl, hu, hx⟩ | ⟨u, c, rfl, hu, hx⟩)
    · exact ⟨u, c ++ cs, by simp only [List.append_assoc, List.cons_append], hu, hx⟩
    · refine ⟨a ++ u, c, by simp only [List.append_assoc], ?_, hx⟩
      rw [List.count_append]
      exact ha.add hu

theorem betweenQuotes_quoted (hb : '"' ∉ b) : BetweenQuotes x ('"' :: (b ++ ['"'])) ↔ x = b := by
  constructor
  · rintro ⟨u, c, heq, hu, hx⟩
    cases u with
    | nil => exact (first_inj hb hx (List.cons.inj heq).2).1.symm
    | cons q u =>
      -- two more quotes would follow, but only one does
      rw [List.cons_append, List.cons.injEq] at heq
      have hcount := congrArg (List.count '"') heq.2
      rw [count_one hb List.not_mem_nil, List.count_append, List.count_cons_self, List.count_append,
        List.count_cons_self] at hcount
      omega
  · rintro rfl
    exact ⟨[], [], rfl, Even.zero, hb⟩

theorem betweenQuotes_pair (ha : '"' ∉ a) (hb : '"' ∉ b) :
    BetweenQuotes x (a ++ '"' :: (b ++ '"' :: cs)) ↔ x = b ∨ BetweenQuotes x cs := by
  have hfront : a.count '"' = 0 := List.count_eq_zero.mpr ha
  have hnone : ¬ BetweenQuotes x a := fun h => absurd h.two_le_count (by omega)
  have hsplit : '"' :: (b ++ '"' :: cs) = ('"' :: (b ++ ['"'])) ++ cs := by simp
  have hquoted : Even (('"' :: (b ++ ['"'])).count '"') := by
    have htwo : ('"' :: (b ++ ['"'])).count '"' = 2 := count_pair (a := []) List.not_mem_nil hb
    exact htwo ▸ even_two
  rw [betweenQuotes_append (hfront ▸ Even.zero), hsplit, betweenQuotes_append hquoted,
    betweenQuotes_quoted hb]
  simp only [hnone, false_or]

theorem betweenQuotes_quotes (h : BetweenQuotes x (quotes cs).1) : x = mark := by
  induction cs using pairs with
  | none cs hcs =>
    rw [quotes_none hcs] at h
    exact absurd h.two_le_count (by rw [List.count_eq_zero.mpr hcs]; decide)
  | one a b ha hb =>
    rw [quotes_one ha hb] at h
    exact absurd h.two_le_count (by rw [count_one ha hb]; decide)
  | pair a b cs ha hb ih =>
    rw [quotes_pair ha hb, betweenQuotes_pair ha plain_mark.1] at h
    exact h.elim id ih

theorem quotes_eq_self_iff : (quotes cs).1 = cs ↔ ∀ x, BetweenQuotes x cs → x = mark := by
  constructor
  · intro h x hx
    rw [← h] at hx
    exact betweenQuotes_quotes hx
  · intro h
    induction cs using pairs with
    | none cs hcs => rw [quotes_none hcs]
    | one a b ha hb => rw [quotes_one ha hb]
    | pair a b cs ha hb ih =>
      simp only [betweenQuotes_pair ha hb] at h
      rw [quotes_pair ha hb, ih fun x hx => h x (.inr hx), h b (.inl rfl)]

/-! ### Between the first two grave accents -/

/-- `x` stands between the first two grave accents. -/
def BetweenAccents (x cs : List Char) : Prop :=
  ∃ a c, cs = a ++ '`' :: (x ++ '`' :: c) ∧ '`' ∉ a ∧ '`' ∉ x

theorem betweenAccents_pair (ha : '`' ∉ a) (hb : '`' ∉ b) :
    BetweenAccents x (a ++ '`' :: (b ++ '`' :: cs)) ↔ x = b := by
  constructor
  · rintro ⟨u, c, heq, hu, hx⟩
    exact (first_inj hb hx (first_inj ha hu heq).2).1.symm
  · rintro rfl
    exact ⟨a, cs, rfl, ha, hb⟩

theorem exists_betweenAccents_iff : (∃ x, BetweenAccents x cs) ↔ 2 ≤ cs.count '`' := by
  constructor
  · rintro ⟨x, a, c, rfl, -, -⟩
    simp only [List.count_append, List.count_cons_self]
    omega
  · intro h
    have hmem : '`' ∈ cs := List.count_pos_iff.mp (by omega)
    obtain ⟨a, rest, rfl, ha⟩ := List.eq_append_cons_of_mem hmem
    rw [List.count_append, List.count_cons_self, List.count_eq_zero.mpr ha] at h
    have hrest : '`' ∈ rest := List.count_pos_iff.mp (by omega)
    obtain ⟨b, c, rfl, hb⟩ := List.eq_append_cons_of_mem hrest
    exact ⟨b, a, c, rfl, ha, hb⟩

theorem accents_of_not_two (h : ¬ ∃ x, BetweenAccents x cs) : accents cs = cs := by
  by_cases hcs : '`' ∈ cs
  · obtain ⟨a, rest, rfl, ha⟩ := List.eq_append_cons_of_mem hcs
    refine accents_one ha fun hrest => h ?_
    obtain ⟨b, c, rfl, hb⟩ := List.eq_append_cons_of_mem hrest
    exact ⟨b, a, c, rfl, ha, hb⟩
  · exact accents_none hcs

theorem betweenAccents_accents (h : BetweenAccents x (accents cs)) : x = mark := by
  by_cases hcs : ∃ y, BetweenAccents y cs
  · obtain ⟨y, a, c, rfl, ha, hy⟩ := hcs
    rwa [accents_pair ha hy, betweenAccents_pair ha plain_mark.2] at h
  · rw [accents_of_not_two hcs] at h
    exact absurd ⟨x, h⟩ hcs

theorem accents_eq_self_iff : accents cs = cs ↔ ∀ x, BetweenAccents x cs → x = mark := by
  constructor
  · intro h x hx
    rw [← h] at hx
    exact betweenAccents_accents hx
  · intro h
    by_cases hcs : ∃ y, BetweenAccents y cs
    · obtain ⟨y, hy⟩ := hcs
      have hmark := h y hy
      obtain ⟨a, c, rfl, ha, hy⟩ := hy
      rw [accents_pair ha hy, hmark]
    · exact accents_of_not_two hcs

/-! ### Pairs and grave accents together -/

/-- Where all pairs enclose the mark and no quote is left over, a grave accent stands outside of the
pairs. -/
theorem even_front (h : ∀ x, BetweenQuotes x (a ++ '`' :: b) → x = mark)
    (heven : Even ((a ++ '`' :: b).count '"')) : Even (a.count '"') := by
  induction a using pairs with
  | none a ha => simp [List.count_eq_zero.mpr ha]
  | one u v hu hv =>
    have hb : '"' ∈ b := by
      by_contra hb
      simp [List.count_eq_zero.mpr hu, List.count_eq_zero.mpr hv, List.count_eq_zero.mpr hb] at heven
    obtain ⟨b', c, rfl, hb'⟩ := List.eq_append_cons_of_mem hb
    have hmark := h (v ++ '`' :: b')
      ⟨u, c, by simp only [List.append_assoc, List.cons_append], by simp [List.count_eq_zero.mpr hu],
        by simp [hv, hb']⟩
    exact absurd (hmark ▸ by simp) plain_mark.2
  | pair u v a hu hv ih =>
    simp only [List.append_assoc, List.cons_append, betweenQuotes_pair hu hv] at h
    simp only [List.append_assoc, List.cons_append, count_pair hu hv, Nat.even_add_one, not_not]
      at heven ⊢
    exact ih (fun x hx => h x (.inr hx)) heven

/-- Putting the mark between two grave accents breaks no pair. -/
theorem accents_keeps_pairs (h : ∀ x, BetweenQuotes x cs → x = mark) (heven : Even (cs.count '"')) :
    (∀ x, BetweenQuotes x (accents cs) → x = mark) ∧ Even ((accents cs).count '"') := by
  by_cases hcs : ∃ y, BetweenAccents y cs
  · obtain ⟨y, a, c, rfl, ha, hy⟩ := hcs
    have hfront : Even (a.count '"') := even_front h heven
    have hwhole : a ++ '`' :: (y ++ '`' :: c) = (a ++ '`' :: y) ++ '`' :: c := by simp
    have hsecond : Even ((a ++ '`' :: y).count '"') := even_front (hwhole ▸ h) (hwhole ▸ heven)
    have hticked : Even (('`' :: (mark ++ ['`'])).count '"') := by decide
    have hsplit : a ++ '`' :: (mark ++ '`' :: c) = a ++ ('`' :: (mark ++ ['`']) ++ c) := by simp
    rw [accents_pair ha hy, hsplit]
    constructor
    · intro x hx
      rw [betweenQuotes_append hfront, betweenQuotes_append hticked] at hx
      rcases hx with hx | hx | hx
      · exact h x ((betweenQuotes_append hfront).mpr (.inl hx))
      · exact absurd hx.two_le_count (by decide)
      · refine h x (hwhole ▸ (betweenQuotes_append hsecond).mpr (.inr ?_))
        exact (betweenQuotes_append (a := ['`']) (by decide)).mpr (.inr hx)
    · rw [hwhole, List.count_append, Nat.even_add] at heven
      have hback : Even (c.count '"') := by simpa using heven.mp hsecond
      rw [List.count_append, List.count_append]
      exact hfront.add (hticked.add hback)
  · rw [accents_of_not_two hcs]
    exact ⟨h, heven⟩

/-! ### Redacted texts -/

theorem redactChars_of_odd (h : Odd (cs.count '"')) : redactChars cs = (quotes cs).1 := by
  rw [redactChars, show quotes cs = ((quotes cs).1, true) from
    Prod.ext rfl (quotes_open_iff.mpr h)]

theorem redactChars_of_even (h : Even (cs.count '"')) : redactChars cs = accents (quotes cs).1 := by
  have hclosed : (quotes cs).2 = false := by
    rw [← Bool.not_eq_true, quotes_open_iff, Nat.not_odd_iff_even]
    exact h
  rw [redactChars, show quotes cs = ((quotes cs).1, false) from Prod.ext rfl hclosed]

theorem betweenQuotes_redactChars (h : BetweenQuotes x (redactChars cs)) : x = mark := by
  rcases Nat.even_or_odd (cs.count '"') with heven | hodd
  · rw [redactChars_of_even heven] at h
    exact (accents_keeps_pairs (fun _ => betweenQuotes_quotes) (count_quotes cs ▸ heven)).1 x h
  · rw [redactChars_of_odd hodd] at h
    exact betweenQuotes_quotes h

theorem even_count_redactChars : Even ((redactChars cs).count '"') ↔ Even (cs.count '"') := by
  rcases Nat.even_or_odd (cs.count '"') with heven | hodd
  · rw [redactChars_of_even heven]
    exact iff_of_true
      (accents_keeps_pairs (fun _ => betweenQuotes_quotes) (count_quotes cs ▸ heven)).2 heven
  · rw [redactChars_of_odd hodd, count_quotes]

theorem betweenAccents_redactChars (heven : Even (cs.count '"'))
    (h : BetweenAccents x (redactChars cs)) : x = mark := by
  rw [redactChars_of_even heven] at h
  exact betweenAccents_accents h

/-- **A text stays as it is just when its pairs enclose the mark and, where no quote is left over, so do its
first two grave accents.** -/
theorem redactChars_eq_self_iff :
    redactChars cs = cs ↔ (∀ x, BetweenQuotes x cs → x = mark) ∧
      (Even (cs.count '"') → ∀ x, BetweenAccents x cs → x = mark) := by
  constructor
  · intro h
    exact ⟨fun x hx => betweenQuotes_redactChars (h.symm ▸ hx),
      fun heven x hx => betweenAccents_redactChars heven (h.symm ▸ hx)⟩
  · rintro ⟨hquotes, haccents⟩
    have hsame := quotes_eq_self_iff.mpr hquotes
    rcases Nat.even_or_odd (cs.count '"') with heven | hodd
    · rw [redactChars_of_even heven, hsame, accents_eq_self_iff.mpr (haccents heven)]
    · rw [redactChars_of_odd hodd, hsame]

theorem redactChars_redactChars (cs : List Char) : redactChars (redactChars cs) = redactChars cs :=
  redactChars_eq_self_iff.mpr ⟨fun _ => betweenQuotes_redactChars,
    fun heven _ => betweenAccents_redactChars (even_count_redactChars.mp heven)⟩

/-! ### What a quote without a partner lets through -/

/-- `x` stands outside of the pairs of double quotes: between two pairs, or behind the last quote. -/
def Outside (x cs : List Char) : Prop :=
  ∃ a c, cs = a ++ (x ++ c) ∧ '"' ∉ x ∧ (Even (a.count '"') ∨ '"' ∉ c)

theorem Outside.infix_quotes (h : Outside x cs) : x <:+: (quotes cs).1 := by
  obtain ⟨a, c, rfl, hx, ha | hc⟩ := h
  · rw [quotes_append_of_even ha, append_quotes hx]
    exact ⟨(quotes a).1, (quotes c).1, by simp only [List.append_assoc]⟩
  · rw [quotes_append a (by simp [hx, hc])]
    exact ⟨(quotes a).1, c, by simp only [List.append_assoc]⟩

/-- What redaction leaves of a message. -/
structure Shape (s : String) : Prop where
  /-- Every pair of double quotes encloses the mark. -/
  paired : ∀ x, BetweenQuotes x (redact s).toList → x = mark
  /-- The first two grave accents enclose it if every quote of the message has a partner, and else only if
  they enclose it once the pairs are redacted. -/
  ticked : 2 ≤ (redact s).toList.count '`' →
    (BetweenAccents mark (redact s).toList ↔
      Even (s.toList.count '"') ∨ BetweenAccents mark (quotes s.toList).1)
  /-- If a quote has no partner, all that stands outside of the pairs is shown. -/
  shown : Odd (s.toList.count '"') → ∀ x, Outside x s.toList → x <:+: (redact s).toList
  /-- The messages that redaction leaves as they are. -/
  stays : redact s = s ↔ (∀ x, BetweenQuotes x s.toList → x = mark) ∧
    (Even (s.toList.count '"') → ∀ x, BetweenAccents x s.toList → x = mark)
  /-- Redacting once more changes nothing. -/
  again : redact (redact s) = redact s

/-- **What redaction leaves of any message:** its pairs of double quotes enclose nothing but the mark, and
a second redaction changes nothing, but the first two grave accents may enclose any text if a quote has no
partner. -/
theorem redaction_shape (s : String) : Shape s := by
  have hchars : (redact s).toList = redactChars s.toList := String.toList_ofList ..
  refine ⟨?paired, ?ticked, ?shown, ?stays, ?again⟩
  case paired =>
    rw [hchars]
    exact fun _ => betweenQuotes_redactChars
  case ticked =>
    rw [hchars]
    intro htwo
    rcases Nat.even_or_odd (s.toList.count '"') with heven | hodd
    · obtain ⟨x, hx⟩ := exists_betweenAccents_iff.mpr htwo
      exact iff_of_true (betweenAccents_redactChars heven hx ▸ hx) (.inl heven)
    · rw [redactChars_of_odd hodd]
      simp only [Nat.not_even_iff_odd.mpr hodd, false_or]
  case shown =>
    intro hodd x hx
    rw [hchars, redactChars_of_odd hodd]
    exact hx.infix_quotes
  case stays => rw [← String.toList_inj, hchars, redactChars_eq_self_iff]
  case again =>
    rw [← String.toList_inj, hchars, redact, String.toList_ofList, hchars, redactChars_redactChars]

/-- A double quote in an unknown word keeps the word in sight. -/
theorem redaction_shape_openQuote :
    BetweenAccents "a\"secret".toList
      (redact "unknown variant `a\"secret`, expected one of `request`, `response`").toList ∧
    "a\"secret".toList ≠ mark := by
  have hsame : redact "unknown variant `a\"secret`, expected one of `request`, `response`" =
      "unknown variant `a\"secret`, expected one of `request`, `response`" := by decide +kernel
  rw [hsame]
  refine ⟨⟨"unknown variant ".toList, ", expected one of `request`, `response`".toList, ?_, ?_, ?_⟩, ?_⟩
  all_goals decide

end DebugHost.Redaction
