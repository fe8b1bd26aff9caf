import DebugHost.Process.Lines
import Mathlib.Data.List.Forall2
import Mathlib.Data.List.TakeWhile

/-! # Lines of octets

The lines of octets are what stands between their line feeds, and what stands behind the last one, unless
that is empty. A line buffer that has been given octets holds what stands behind their last line feed
(`Holds`), and it gives out the complete lines in between: those of all octets so far, whatever chunks they
came in (`Holds.push`), and the rest at the end (`Holds.finish`). So chunks may be cut anywhere, also within
a character or between a carriage return and its line feed (`lines_of_chunks`). -/

namespace DebugHost.LineBuffer

open DebugHost.Text

/-- What stands between the line feeds of octets. -/
def parts (octets : List UInt8) : List (List UInt8) := octets.splitOn 10

/-- The lines of octets that have their line feed. -/
def completeLines (octets : List UInt8) : List String := (parts octets).dropLast.map lineText

/-- What stands behind the last line feed. -/
def rest (octets : List UInt8) : List UInt8 := (parts octets).getLastD []

/-- The lines of octets. -/
def allLines (octets : List UInt8) : List String :=
  completeLines octets ++ if rest octets = [] then [] else [lineText (rest octets)]

theorem completeLines_prefix (octets : List UInt8) : completeLines octets <+: allLines octets :=
  List.prefix_append ..

/-! ### Cutting -/

theorem split_cons (b : UInt8) (bs : List UInt8) : split (b :: bs) =
    if b = 10 then ([] :: (split bs).1, (split bs).2)
    else
      match (split bs).1 with
      | [] => ([], b :: (split bs).2)
      | l :: ls => ((b :: l) :: ls, (split bs).2) := rfl

/-- Cutting finds the parts. -/
theorem parts_eq (octets : List UInt8) : parts octets = (split octets).1 ++ [(split octets).2] := by
  unfold parts List.splitOn
  induction octets with
  | nil => rfl
  | cons b bs ih =>
    rw [List.splitOnP_cons_eq_if_modifyHead, ih, split_cons]
    by_cases h : b = 10
    · simp [h]
    · cases hs : (split bs).1 with
      | nil => simp [h]
      | cons l ls => simp [h]

theorem split_lines (octets : List UInt8) : (split octets).1.map lineText = completeLines octets := by
  unfold completeLines
  rw [parts_eq, List.dropLast_concat]

theorem split_rest (octets : List UInt8) : (split octets).2 = rest octets := by
  unfold rest
  rw [parts_eq, List.getLastD_concat]

/-- Octets behind others are cut together with what is behind the last line feed of these. -/
theorem split_append (bs cs : List UInt8) : split (bs ++ cs) =
    ((split bs).1 ++ (split ((split bs).2 ++ cs)).1, (split ((split bs).2 ++ cs)).2) := by
  induction bs with
  | nil => rfl
  | cons b bs ih =>
    rw [List.cons_append, split_cons, split_cons, ih]
    by_cases h : b = 10
    · simp [h]
    · cases hs : (split bs).1 with
      | nil => simp [h, split_cons]
      | cons l ls => simp [h]

/-! ### What stands behind the last line feed -/

theorem parts_free {line : List UInt8} (h : 10 ∉ line) : parts line = [line] :=
  List.splitOn_eq_singleton h

theorem parts_append (front behind : List UInt8) :
    parts (front ++ 10 :: behind) = parts front ++ parts behind :=
  List.splitOn_append_cons_self ..

/-- The rest is what stands at the end up to a line feed. -/
theorem reverse_rest (octets : List UInt8) :
    (rest octets).reverse = octets.reverse.takeWhile (· != 10) := by
  unfold rest
  by_cases h : 10 ∈ octets
  · obtain ⟨back, front, hback, hfree⟩ := List.eq_append_cons_of_mem (List.mem_reverse.mpr h)
    have hoctets : octets = front.reverse ++ 10 :: back.reverse := by
      rw [← List.reverse_reverse octets, hback]
      simp
    have hfree' : 10 ∉ back.reverse := fun hmem => hfree (List.mem_reverse.mp hmem)
    have hwhile : ∀ b ∈ back, (b != 10) = true := fun b hb =>
      bne_iff_ne.mpr fun hb10 => hfree (hb10 ▸ hb)
    rw [hback, List.takeWhile_append_of_pos hwhile, hoctets, parts_append, parts_free hfree',
      List.getLastD_concat]
    simp
  · have hwhile : ∀ b ∈ octets.reverse, (b != 10) = true := fun b hb =>
      bne_iff_ne.mpr fun hb10 => h (hb10 ▸ List.mem_reverse.mp hb)
    rw [parts_free h, List.takeWhile_eq_self_iff.mpr hwhile]
    rfl

theorem length_rest (octets : List UInt8) :
    (rest octets).length = (octets.reverse.takeWhile (· != 10)).length := by
  rw [← reverse_rest, List.length_reverse]

theorem not_mem_rest (octets : List UInt8) : 10 ∉ rest octets := by
  rw [← List.mem_reverse, reverse_rest]
  intro hmem
  have hprefix := List.all_takeWhile (p := (· != (10 : UInt8))) (l := octets.reverse)
  exact absurd (List.all_eq_true.mp hprefix 10 hmem) (by decide)

/-! ### Texts -/

/-- The octets of a line and its text: a carriage return at the end does not belong to the text, and what
is left is decoded as a whole. -/
inductive Shows : List UInt8 → String → Prop where
  | plain (line : List UInt8) (h : ¬ [13] <:+ line) : Shows line (Utf8.decodeLossy line)
  | returned (line : List UInt8) : Shows (line ++ [13]) (Utf8.decodeLossy line)

theorem shows_lineText (line : List UInt8) : Shows line (lineText line) := by
  unfold lineText dropReturn
  split
  · next h =>
    obtain ⟨front, rfl⟩ := List.getLast?_eq_some_iff.mp h
    rw [List.dropLast_concat]
    exact .returned front
  · next h =>
    refine .plain line fun hsuffix => h ?_
    obtain ⟨front, rfl⟩ := hsuffix
    exact List.getLast?_concat ..

/-- What stands between the line feeds of octets and behind the last one, unless that is empty. -/
def segments (octets : List UInt8) : List (List UInt8) :=
  (parts octets).dropLast ++ if rest octets = [] then [] else [rest octets]

theorem allLines_eq (octets : List UInt8) : allLines octets = (segments octets).map lineText := by
  unfold allLines segments completeLines
  rw [List.map_append]
  split <;> rfl

/-! ### Buffers -/

/-- A buffer holds what stands behind the last line feed of octets. -/
def Holds (b : LineBuffer) (octets : List UInt8) : Prop := b.pending = rest octets

theorem holds_new : Holds {} [] := rfl

variable {b : LineBuffer} {octets : List UInt8}

/-- **A buffer gives out the lines that a chunk completes.** -/
theorem Holds.push (h : Holds b octets) (chunk : List UInt8) :
    completeLines (octets ++ chunk) = completeLines octets ++ (b.push chunk).1 ∧
      Holds (b.push chunk).2 (octets ++ chunk) := by
  have hcut : split (b.pending ++ chunk) = split ((split octets).2 ++ chunk) := by
    rw [h, split_rest]
  have hall := split_append octets chunk
  constructor
  · rw [← split_lines, hall, List.map_append, split_lines]
    show _ = _ ++ ((split (b.pending ++ chunk)).1.map lineText)
    rw [hcut]
  · show (split (b.pending ++ chunk)).2 = _
    rw [hcut, ← split_rest, hall]

/-- **At the end a buffer gives out what is left.** -/
theorem Holds.finish (h : Holds b octets) :
    allLines octets = completeLines octets ++ b.finish.1.toList := by
  unfold allLines LineBuffer.finish
  rw [← h]
  cases b.pending with
  | nil => rfl
  | cons o os => rfl

/-! ### One chunk

A chunk is gone through once, from one line feed to the next. Only its own octets are looked at: what is
pending has no line feed. -/

theorem Holds.free (h : Holds b octets) : 10 ∉ b.pending := h ▸ not_mem_rest octets

theorem split_line {line : List UInt8} (h : 10 ∉ line) (behind : List UInt8) :
    split (line ++ 10 :: behind) = (line :: (split behind).1, (split behind).2) := by
  induction line with
  | nil => rfl
  | cons b line ih =>
    obtain ⟨hb, hline⟩ := not_or.mp (mt List.mem_cons.mpr h)
    rw [List.cons_append, split_cons, ih hline, if_neg (Ne.symm hb)]

theorem split_free {line : List UInt8} (h : 10 ∉ line) : split line = ([], line) := by
  induction line with
  | nil => rfl
  | cons b line ih =>
    obtain ⟨hb, hline⟩ := not_or.mp (mt List.mem_cons.mpr h)
    rw [split_cons, ih hline, if_neg (Ne.symm hb)]

/-- A chunk without a line feed completes no line. -/
theorem push_open {chunk : List UInt8} (hb : 10 ∉ b.pending) (hc : 10 ∉ chunk) :
    b.push chunk = ([], ⟨b.pending ++ chunk⟩) := by
  have hfree : 10 ∉ b.pending ++ chunk := fun hmem => (List.mem_append.mp hmem).elim hb hc
  simp only [push, split_free hfree, List.map_nil]

/-- The first line feed of a chunk completes what is pending; what stands behind it comes to an empty
buffer. -/
theorem push_line {front : List UInt8} (hb : 10 ∉ b.pending) (hf : 10 ∉ front)
    (behind : List UInt8) : b.push (front ++ 10 :: behind) =
      (lineText (b.pending ++ front) :: (push {} behind).1, (push {} behind).2) := by
  have hfree : 10 ∉ b.pending ++ front := fun hmem => (List.mem_append.mp hmem).elim hb hf
  simp only [push, ← List.append_assoc, split_line hfree, List.map_cons, List.nil_append]

/-! ### Chunks -/

/-- What a buffer gives out for chunks, one after the other, and the buffer behind the last of them. -/
def feed (b : LineBuffer) : List (List UInt8) → List String × LineBuffer
  | [] => ([], b)
  | chunk :: chunks => ((b.push chunk).1 ++ (feed (b.push chunk).2 chunks).1,
      (feed (b.push chunk).2 chunks).2)

theorem Holds.feed (h : Holds b octets) (chunks : List (List UInt8)) :
    completeLines (octets ++ chunks.flatten) = completeLines octets ++ (b.feed chunks).1 ∧
      Holds (b.feed chunks).2 (octets ++ chunks.flatten) := by
  induction chunks generalizing b octets with
  | nil => simpa [LineBuffer.feed] using h
  | cons chunk chunks ih =>
    obtain ⟨hlines, hpush⟩ := h.push chunk
    obtain ⟨hlines', hfeed⟩ := ih hpush
    rw [List.flatten_cons, ← List.append_assoc]
    refine ⟨?_, hfeed⟩
    rw [hlines', hlines, List.append_assoc]
    rfl

/-- There is one end of a stream. -/
theorem finish_finish (b : LineBuffer) : b.finish.2.finish = (none, {}) := by
  obtain ⟨pending⟩ := b
  cases pending <;> rfl

/-- **The lines of a stream do not depend on its chunks.** What a buffer gives out for the chunks, and for
the end behind them, are the texts of what stands between the line feeds of all octets and of what stands
behind the last one. That many octets are pending then; and at a second end there is nothing left. -/
theorem lines_of_chunks (chunks : List (List UInt8)) :
    List.Forall₂ Shows (segments chunks.flatten)
        ((feed {} chunks).1 ++ (feed {} chunks).2.finish.1.toList) ∧
      (feed {} chunks).2.pendingLength = (chunks.flatten.reverse.takeWhile (· != 10)).length ∧
      (feed {} chunks).2.finish.2.finish = (none, {}) := by
  obtain ⟨hlines, hholds⟩ := holds_new.feed chunks
  rw [List.nil_append] at hlines hholds
  have hgiven : (feed {} chunks).1 ++ (feed {} chunks).2.finish.1.toList =
      (segments chunks.flatten).map lineText := by
    rw [← allLines_eq, hholds.finish, hlines]
    rfl
  refine ⟨?_, ?_, ?_⟩
  · rw [hgiven, List.forall₂_map_right_iff]
    exact List.forall₂_same.mpr fun line _ => shows_lineText line
  · rw [← length_rest]
    exact congrArg List.length hholds
  · exact finish_finish _

end DebugHost.LineBuffer
