import DebugHost.Log.Tail
import DebugHost.Proofs.Text.Words

/-! # What the tail of the log holds

A tail that is full gives up its oldest line for a new one, so that it holds the last lines of all that were
ever added, as many as it has room for (`Tail.Keeps`). Records are written in pieces, several at a time, and
their lines are added one record after the other in the order in which they are completed; neither the pieces
nor what is written in between matter. So the tail is exact: its last lines are those of the whole history
(`tail_exact`), and a report lists them. -/

namespace DebugHost.Log

open DebugHost.Text

/-! ### The lines of a record -/

/-- The lines of a record: its octets, decoded as a whole, are cut at line feeds; carriage returns at the ends
are left out, and so are lines that are empty then. -/
def recordLines (octets : List UInt8) : List String :=
  (((Utf8.decodeLossy octets).toList.splitOn '\n').map fun l =>
    String.ofList (l.rdropWhile (· = '\r'))).filter (· ≠ "")

theorem textLines_decodeLossy (octets : List UInt8) :
    textLines (Utf8.decodeLossy octets) = recordLines octets := by
  rw [textLines, pieces_eq_splitOn]
  rfl

theorem free_of_mem_recordLines {octets : List UInt8} {line : String} (h : line ∈ recordLines octets) :
    '\n' ∉ line.toList := by
  obtain ⟨p, hp, rfl⟩ := List.mem_map.mp (List.mem_of_mem_filter h)
  rw [← pieces_eq_splitOn] at hp
  rw [String.toList_ofList]
  exact fun hmem => not_mem_of_mem_pieces hp ((List.rdropWhile_prefix _ _).subset hmem)

/-! ### Tails -/

variable {α : Type} {t : Tail} {c : Nat} {added : List String}

/-- With one element more, the last ones are those but for the first of them, if they are as many as they may
be. -/
theorem rtake_concat (l : List α) (x : α) (c : Nat) : (l ++ [x]).rtake (c + 1) =
    (if (l.rtake (c + 1)).length = c + 1 then (l.rtake (c + 1)).drop 1 else l.rtake (c + 1)) ++ [x] := by
  rw [List.rtake_concat_succ]
  simp only [List.rtake, List.length_drop, List.drop_drop]
  congr 1
  split
  · congr 1
    omega
  · congr 1
    omega

theorem rtake_rtake (l : List α) (m n : Nat) : (l.rtake m).rtake n = l.rtake (min n m) := by
  simp only [List.rtake_eq_reverse_take_reverse, List.reverse_reverse, List.take_take]

/-- A tail holds the last lines that were added. -/
structure Tail.Keeps (t : Tail) (c : Nat) (added : List String) : Prop where
  capacity : t.capacity = max c 1
  lines : t.lines = added.rtake (max c 1)

theorem Tail.keeps_empty (c : Nat) : Keeps (empty c) c [] := ⟨rfl, (List.rtake_nil _).symm⟩

theorem Tail.Keeps.push (h : t.Keeps c added) (line : String) :
    (t.push line).Keeps c (added ++ [line]) where
  capacity := h.capacity
  lines := by
    obtain ⟨k, hk⟩ : ∃ k, max c 1 = k + 1 := ⟨max c 1 - 1, by omega⟩
    rw [Tail.push, h.lines, h.capacity, hk]
    exact (rtake_concat added line k).symm

/-- **Any number of lines may be added.** -/
theorem Tail.Keeps.pushAll (h : t.Keeps c added) (lines : List String) :
    (lines.foldl Tail.push t).Keeps c (added ++ lines) := by
  induction lines generalizing t added with
  | nil => rwa [List.append_nil]
  | cons line lines ih =>
    rw [List.foldl_cons, ← List.singleton_append, ← List.append_assoc]
    exact ih (h.push line)

theorem Tail.Keeps.append (h : t.Keeps c added) (octets : List UInt8) :
    (t.append octets).Keeps c (added ++ recordLines octets) := by
  rw [Tail.append, textLines_decodeLossy]
  exact h.pushAll _

theorem Tail.Keeps.last (h : t.Keeps c added) (n : Nat) :
    t.last n = added.rtake (min n (max c 1)) := by
  rw [← rtake_rtake, ← h.lines]
  rfl

theorem Tail.Keeps.bounded (h : t.Keeps c added) : t.lines.length ≤ max c 1 := by
  rw [h.lines, List.rtake, List.length_drop]
  omega

/-! ### Reports -/

/-- The heading of a report of some lines. -/
def heading (count : Nat) : String := "--- last " ++ toString count ++ " log lines ---"

theorem free_heading (count : Nat) : '\n' ∉ (heading count).toList := by
  have hdigits : '\n' ∉ Nat.toDigits 10 count := fun hmem =>
    absurd (Nat.isDigit_of_mem_toDigits (by decide) (by decide) hmem) (by decide)
  simp [heading, Nat.repr, hdigits]

/-- Lines with their line feeds are cut into the lines again. -/
theorem splitOn_lines {lines : List String} (h : ∀ l ∈ lines, '\n' ∉ l.toList) :
    (String.join (lines.map (· ++ "\n"))).toList.splitOn '\n' = lines.map String.toList ++ [[]] := by
  induction lines with
  | nil => rfl
  | cons line lines ih =>
    obtain ⟨hline, hlines⟩ := List.forall_mem_cons.mp h
    have htext : (String.join ((line :: lines).map (· ++ "\n"))).toList =
        line.toList ++ '\n' :: (String.join (lines.map (· ++ "\n"))).toList := by
      simp [String.join_cons]
    rw [htext, List.splitOn_append_cons_self_of_not_mem hline, ih hlines]
    rfl

theorem Tail.report?_eq_none_iff (t : Tail) (n : Nat) : t.report? n = none ↔ t.last n = [] := by
  unfold report?
  split
  · next h => simp [h]
  · next h => simpa using h

/-- **A report is its heading and the lines**, each of them on a line of its own. -/
theorem Tail.splitOn_report {n : Nat} {text : String} (h : t.report? n = some text)
    (hfree : ∀ l ∈ t.last n, '\n' ∉ l.toList) : text.toList.splitOn '\n' =
      (heading (t.last n).length).toList :: ((t.last n).map String.toList ++ [[]]) := by
  unfold report? at h
  split at h
  · cases h
  · cases h
    have htext : ("--- last " ++ toString (t.last n).length ++ " log lines ---\n" ++
        String.join ((t.last n).map (· ++ "\n"))).toList = (heading (t.last n).length).toList ++
          '\n' :: (String.join ((t.last n).map (· ++ "\n"))).toList := by
      simp [heading]
    rw [htext, List.splitOn_append_cons_self_of_not_mem (free_heading _), splitOn_lines hfree]

/-! ### Writers -/

/-- What may happen to the records that are written, each of which is known by a number. -/
inductive Logging.Move where
  /-- A piece of a record is written. -/
  | write (record : Nat) (piece : List UInt8)
  /-- A record is complete. -/
  | finish (record : Nat)

/-- A tail with the writers of all records. -/
structure Logging where
  tail : Tail
  writers : Nat → Writer := fun _ => {}

namespace Logging

/-- The record that a move is about. -/
def Move.record : Move → Nat
  | .write i _ | .finish i => i

/-- The record that is complete with a move. -/
def Move.finished? : Move → Option Nat
  | .write _ _ => none
  | .finish i => some i

/-- The piece of a record that is written in a move. -/
def Move.piece? (i : Nat) : Move → Option (List UInt8)
  | .write j piece => if j = i then some piece else none
  | .finish _ => none

def move (x : Logging) : Move → Logging
  | .write i piece => { x with writers := Function.update x.writers i ((x.writers i).write piece) }
  | .finish i => { x with tail := (x.writers i).finish x.tail }

/-- What moves lead to, from a tail without lines on. -/
def after (c : Nat) (ms : List Move) : Logging := ms.foldl move { tail := .empty c }

theorem after_concat (c : Nat) (ms : List Move) (m : Move) : after c (ms ++ [m]) = (after c ms).move m :=
  List.foldl_concat ..

/-- Each record has a writer of its own: with a record that is complete nothing is done any more. -/
def Owned (ms : List Move) : Prop := ms.Pairwise fun m m' => m.finished? ≠ some m'.record

/-- The octets of a record: all pieces, one after the other. -/
def octets (ms : List Move) (i : Nat) : List UInt8 := (ms.filterMap (·.piece? i)).flatten

/-- The lines of the records in the order in which they were completed. -/
def history (ms : List Move) : List String :=
  (ms.filterMap Move.finished?).flatMap fun i => recordLines (octets ms i)

variable {ms : List Move} {m : Move} {i : Nat}

theorem octets_concat (ms : List Move) (m : Move) (i : Nat) :
    octets (ms ++ [m]) i = octets ms i ++ (m.piece? i).getD [] := by
  rw [octets, List.filterMap_append, List.flatten_append]
  cases hm : m.piece? i <;> simp [octets, hm]

/-- Every writer holds what was written to it. -/
theorem writers_after (c : Nat) (ms : List Move) (i : Nat) :
    ((after c ms).writers i).octets = octets ms i := by
  induction ms using List.reverseRecOn with
  | nil => rfl
  | append_singleton ms m ih =>
    rw [after_concat, octets_concat]
    cases m with
    | write j piece =>
      by_cases hj : j = i
      · subst hj
        simp [move, Writer.write, Move.piece?, ih]
      · simp [move, Move.piece?, Ne.symm hj, hj, ih]
    | finish j => simp [move, Move.piece?, ih]

/-- What is done with one record is no matter of those that are complete. -/
theorem octets_of_finished (h : Owned (ms ++ [m])) (hi : i ∈ ms.filterMap Move.finished?) :
    octets (ms ++ [m]) i = octets ms i := by
  obtain ⟨m', hm', hfinished⟩ := List.mem_filterMap.mp hi
  have hne : m.record ≠ i := by
    rintro rfl
    exact (List.pairwise_append.mp h).2.2 m' hm' m (List.mem_singleton_self m) hfinished
  have hpiece : m.piece? i = none := by
    cases m with
    | write j piece => exact if_neg hne
    | finish j => rfl
  rw [octets_concat, hpiece]
  exact List.append_nil _

theorem history_concat (h : Owned (ms ++ [m])) : history (ms ++ [m]) =
    history ms ++ (m.finished?.map fun i => recordLines (octets ms i)).getD [] := by
  rw [history, List.filterMap_append, List.flatMap_append]
  congr 1
  · exact List.flatMap_congr fun i hi => by rw [octets_of_finished h hi]
  · cases m with
    | write j piece => rfl
    | finish j => simp [Move.finished?, octets_concat, Move.piece?]

theorem finish_eq (w : Writer) (t : Tail) : w.finish t = t.append w.octets := by
  unfold Writer.finish
  split
  · next h =>
    have hnone : textLines (Utf8.decodeLossy []) = [] := by decide +kernel
    rw [List.isEmpty_iff.mp h, Tail.append, hnone, List.foldl_nil]
  · rfl

/-- **A tail holds the last lines of the records that are complete**, however they were written. -/
theorem keeps_after (c : Nat) (h : Owned ms) : (after c ms).tail.Keeps c (history ms) := by
  induction ms using List.reverseRecOn with
  | nil => exact Tail.keeps_empty c
  | append_singleton ms m ih =>
    have hkeeps := ih (List.pairwise_append.mp h).1
    rw [after_concat, history_concat h]
    cases m with
    | write j piece => simpa [move, Move.finished?] using hkeeps
    | finish j =>
      show (((after c ms).writers j).finish (after c ms).tail).Keeps c _
      rw [finish_eq, writers_after]
      exact hkeeps.append _

theorem free_of_mem_history {line : String} (h : line ∈ history ms) : '\n' ∉ line.toList := by
  obtain ⟨i, -, hline⟩ := List.mem_flatMap.mp h
  exact free_of_mem_recordLines hline

end Logging

/-! ### All together -/

/-- A tail of some capacity shows a history of lines exactly. -/
structure Tail.Exact (t : Tail) (c : Nat) (history : List String) : Prop where
  /-- The last lines are those of the history, as many as were asked for if there is room for them. -/
  last : ∀ n, t.last n = history.rtake (min n (max c 1))
  /-- No more lines are held than there is room for. -/
  bounded : t.lines.length ≤ max c 1
  /-- There is a report unless there is no line for it. -/
  unreported : ∀ n, t.report? n = none ↔ t.last n = []
  /-- A report is a heading with the number of lines, and these lines, the oldest first. -/
  reported : ∀ n text, t.report? n = some text → text.toList.splitOn '\n' =
    (heading (t.last n).length).toList :: ((t.last n).map String.toList ++ [[]])

/-- **The tail of the log is exact**, whatever records there are and in whatever pieces they are written. -/
theorem tail_exact (c : Nat) (ms : List Logging.Move) (h : Logging.Owned ms) :
    (Logging.after c ms).tail.Exact c (Logging.history ms) where
  last := (Logging.keeps_after c h).last
  bounded := (Logging.keeps_after c h).bounded
  unreported := Tail.report?_eq_none_iff _
  reported n text htext := by
    refine Tail.splitOn_report htext fun l hl => ?_
    rw [(Logging.keeps_after c h).last] at hl
    exact Logging.free_of_mem_history (List.mem_of_mem_drop hl)

/-- Two records that are written at the same time. One is cut within a character, and has a line feed of its
own behind a carriage return. -/
def interleaved : List Logging.Move :=
  [.write 0 [97, 13, 10, 195], .write 1 [120, 10, 10], .finish 1, .write 0 [169, 13, 13, 10, 98], .finish 0]

theorem tail_exact_interleaved : Logging.Owned interleaved ∧
    Logging.history interleaved = ["x", "a", "é", "b"] ∧
    (Logging.after 3 interleaved).tail.Exact 3 ["x", "a", "é", "b"] := by
  have howned : Logging.Owned interleaved := by
    unfold Logging.Owned
    decide
  have hhistory : Logging.history interleaved = ["x", "a", "é", "b"] := by decide +kernel
  exact ⟨howned, hhistory, hhistory ▸ tail_exact 3 interleaved howned⟩

end DebugHost.Log
