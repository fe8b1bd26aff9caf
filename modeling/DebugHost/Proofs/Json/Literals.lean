import DebugHost.Json.Reader
import Mathlib.Tactic.SplitIfs

/-! # The octets of a string

What a reader of a string takes from a text is a part at its front without a line feed
(`passes_readString`), since a string has no control characters but by their escapes. A string thus
stands in one line, and moves what stands behind it by as many columns as it has octets
(`place_literal`). -/

namespace DebugHost.Json

open DebugHost.Text

/-! ### Parts without a line feed -/

/-- What is left behind a part at the front of a text that has no line feed. -/
def Passes (bs rest : List UInt8) : Prop := ∃ l, bs = l ++ rest ∧ 10 ∉ l

namespace Passes

variable {b : UInt8} {bs cs ds : List UInt8}

theorem refl (bs : List UInt8) : Passes bs bs := ⟨[], rfl, List.not_mem_nil⟩

theorem cons (hb : b ≠ 10) (h : Passes bs cs) : Passes (b :: bs) cs := by
  obtain ⟨l, rfl, hl⟩ := h
  refine ⟨b :: l, rfl, ?_⟩
  intro hmem
  rcases List.mem_cons.mp hmem with h | h
  · exact hb h.symm
  · exact hl h

theorem trans (h : Passes bs cs) (h' : Passes cs ds) : Passes bs ds := by
  obtain ⟨l, rfl, hl⟩ := h
  obtain ⟨l', rfl, hl'⟩ := h'
  refine ⟨l ++ l', (List.append_assoc ..).symm, ?_⟩
  intro hmem
  rcases List.mem_append.mp hmem with h | h
  · exact hl h
  · exact hl' h

end Passes

/-! ### Escapes -/

theorem hexDigit_ne {b : UInt8} {n : Nat} (h : hexDigit? b = some n) : b ≠ 10 := by
  rintro rfl
  cases h

theorem passes_readHex {bs : List UInt8} {n : Nat} {rest : Tail bs} (h : readHex bs = .ok (n, rest)) :
    Passes bs rest.1 := by
  unfold readHex at h
  split at h
  · split at h
    · next ha hb hc hd =>
      cases h
      exact ((((Passes.refl _).cons (hexDigit_ne hd)).cons (hexDigit_ne hc)).cons
        (hexDigit_ne hb)).cons (hexDigit_ne ha)
    · cases h
  · cases h

theorem passes_readTrailing {n : Nat} {bs : List UInt8} {c : Char} {rest : Tail bs}
    (h : readTrailing n bs = .ok (c, rest)) : Passes bs rest.1 := by
  unfold readTrailing at h
  split at h
  · cases h
  · cases h
  · split at h
    · cases h
    · next hhex =>
      split at h
      · obtain ⟨-, rfl⟩ := Prod.mk.inj (Except.ok.inj h)
        exact ((passes_readHex hhex).cons (by decide)).cons (by decide)
      · cases h
  · cases h
  · cases h

theorem passes_readCodePoint {bs : List UInt8} {c : Char} {rest : Tail bs}
    (h : readCodePoint bs = .ok (c, rest)) : Passes bs rest.1 := by
  unfold readCodePoint at h
  split at h
  · cases h
  · next hhex =>
    have hfirst := passes_readHex hhex
    split at h
    · cases h
    · split at h
      · split at h
        · cases h
        · next htrail =>
          cases h
          exact hfirst.trans (passes_readTrailing htrail)
      · cases h
        exact hfirst

theorem passes_readEscape {bs : List UInt8} {c : Char} {rest : Tail bs}
    (h : readEscape bs = .ok (c, rest)) : Passes bs rest.1 := by
  unfold readEscape at h
  split at h
  · cases h
  · next b bs =>
    by_cases hb : b = 10
    · subst hb
      cases h
    · simp only at h
      split_ifs at h
      iterate 8
        · obtain ⟨-, rfl⟩ := Prod.mk.inj (Except.ok.inj h)
          exact (Passes.refl bs).cons hb
      split at h
      · cases h
      · next hpoint =>
        cases h
        exact (passes_readCodePoint hpoint).cons hb

/-! ### Characters -/

theorem passes_follow {more : Nat} {low high : UInt8} (hlow : 10 < low) (acc : Nat) (bs : List UInt8) :
    Passes bs (Utf8.follow more low high acc bs).2 := by
  induction more generalizing low high acc bs with
  | zero => exact Passes.refl bs
  | succ more ih =>
    cases bs with
    | nil => exact Passes.refl []
    | cons b bs =>
      rw [Utf8.follow]
      split
      · next h =>
        have hb : b ≠ 10 := by
          rintro rfl
          exact absurd (UInt8.lt_of_lt_of_le hlow h.1) (UInt8.lt_irrefl 10)
        exact (ih (by decide) _ bs).cons hb
      · exact Passes.refl (b :: bs)

theorem low_of_lead {b : UInt8} {l : Utf8.Lead} (h : Utf8.Lead.of? b = some l) : 10 < l.low := by
  unfold Utf8.Lead.of? at h
  simp only at h
  split_ifs at h <;> cases h <;> dsimp only <;> decide

theorem passes_next {b : UInt8} (hb : b ≠ 10) (bs : List UInt8) :
    Passes (b :: bs) (Utf8.next b bs).2 := by
  unfold Utf8.next
  split
  · exact (Passes.refl bs).cons hb
  · split
    · exact (Passes.refl bs).cons hb
    · next l hl => exact (passes_follow (low_of_lead hl) l.bits bs).cons hb

/-! ### Strings -/

theorem passes_readChars {acc cs : List Char} {bad : Option (List UInt8)} {bs rest : List UInt8}
    (h : readChars acc bad bs = .ok (cs, rest)) : Passes bs rest := by
  induction hn : bs.length using Nat.strongRecOn generalizing acc bad bs with
  | ind n ih =>
    subst hn
    cases bs with
    | nil =>
      unfold readChars at h
      cases h
    | cons b bs =>
      unfold readChars at h
      simp only at h
      split at h
      · next hquote =>
        split at h
        · cases h
          exact (Passes.refl _).cons (by rw [hquote]; decide)
        · cases h
      · split at h
        · next hslash =>
          have hb : b ≠ 10 := by rw [hslash]; decide
          split at h
          · cases h
          · next c tail hescape =>
            have hrest := ih tail.1.length (Nat.lt_succ_of_le tail.2) h rfl
            exact ((passes_readEscape hescape).trans hrest).cons hb
        · split at h
          · cases h
          · next hcontrol =>
            have hb : b ≠ 10 := by
              rintro rfl
              exact hcontrol (by decide)
            have hle := Nat.lt_succ_of_le (Utf8.length_next_le b bs)
            split at h
            · exact (passes_next hb bs).trans (ih _ hle h rfl)
            · exact (passes_next hb bs).trans (ih _ hle h rfl)

/-- **A string is read from a part without a line feed.** -/
theorem passes_readString {bs rest : List UInt8} {s : String} (h : readString bs = .ok (s, rest)) :
    Passes bs rest := by
  unfold readString at h
  rcases hchars : readChars [] none bs with e | ⟨cs, r⟩ <;> rw [hchars] at h <;> cases h
  exact passes_readChars hchars

/-- Octets that spell the string `s` in front of `post`. -/
def Literal (ls : List UInt8) (s : String) (post : List UInt8) : Prop :=
  ∃ l, ls = 34 :: l ∧ readString (l ++ post) = .ok (s, post)

theorem Literal.no_line {ls post : List UInt8} {s : String} (h : Literal ls s post) : 10 ∉ ls := by
  obtain ⟨l, rfl, hread⟩ := h
  obtain ⟨l', heq, hl'⟩ := passes_readString hread
  rw [List.append_cancel_right heq]
  intro hmem
  rcases List.mem_cons.mp hmem with h | h
  · exact absurd h (by decide)
  · exact hl' h

/-! ### Places -/

/-- The place behind a text at whose end there is a part without a line feed. -/
theorem place_after {pre ls : List UInt8} (h : 10 ∉ ls) :
    Place.after (pre ++ ls) = ⟨(Place.after pre).line, (Place.after pre).column + ls.length⟩ := by
  have hcount : ls.count 10 = 0 := List.count_eq_zero.mpr h
  have htake : (ls.reverse ++ pre.reverse).takeWhile (· != 10) =
      ls.reverse ++ pre.reverse.takeWhile (· != 10) := by
    apply List.takeWhile_append_of_pos
    intro b hb
    have hmem : b ∈ ls := List.mem_reverse.mp hb
    exact bne_iff_ne.mpr fun hb10 => h (hb10 ▸ hmem)
  unfold Place.after
  rw [List.count_append, hcount, List.reverse_append, htake, List.length_append, List.length_reverse,
    Nat.add_zero, Nat.add_comm ls.length]

/-- **The place behind a string depends on its length only.** -/
theorem place_literal {pre ls lt post : List UInt8} {s t : String} (hs : Literal ls s post)
    (ht : Literal lt t post) (h : ls.length = lt.length) :
    Place.before (pre ++ ls ++ post) post = Place.before (pre ++ lt ++ post) post := by
  have hbefore : ∀ text : List UInt8, Place.before (text ++ post) post = Place.after text := by
    intro text
    rw [Place.before, List.length_append, Nat.add_sub_cancel, List.take_left]
  rw [hbefore, hbefore, place_after hs.no_line, place_after ht.no_line, h]

end DebugHost.Json
