import DebugHost.Proofs.Breakpoints
import DebugHost.Proofs.Session.Serial
import Mathlib.Data.List.Induction

/-! # The record of breakpoints

Of a file the record of breakpoints says what the last commit for it says, however the file was spelled:
the lines that were asked for, and those that the adapter's answer verifies. An answer goes with the line
at its place, counted from the smallest line (`Lines.Nth`), or has a line of its own; which lines those
are is said by `Commit.Accepts` (`mem_acceptedLines`). A commit changes the record at its file only
(`find?_take`) and keeps it sound (`Sound.take`): in path order, with lines at every file. Both together
give what the record says after any commits (`committed`).

A commit reports the lines that the answer verifies. If lines were asked for, the record has just these
lines afterwards. If the file was cleared the record has none of it, while the report has the lines that
the adapter gives with verified entries of its answer; an adapter that answers the empty request with such
entries is believed in the report and not in the record. `Reported` says so, for a commit
(`reported_commit`) and for what a session tells its users in any order of moves (`Crowd.reported_turn`). -/

namespace DebugHost

/-! ### Sets of lines -/

namespace Lines

/-- The line `n` is the one at place `i` of the set: just `i` lines are smaller. -/
def Nth (l : Lines) (i : Nat) (n : Int) : Prop :=
  n ∈ l.toList ∧ (l.toList.filter (· < n)).length = i

theorem filter_lt_eq_nil {n : Int} {ns : List Int} (h : ∀ m ∈ ns, n < m) :
    ns.filter (· < n) = [] := by
  refine List.filter_eq_nil_iff.mpr fun m hm => ?_
  have hlt := h m hm
  simp only [decide_eq_true_eq]
  omega

/-- The places of a set are those of its list. -/
theorem Rising.getElem?_eq_some_iff {l : Lines} (h : l.Rising) {i : Nat} {n : Int} :
    l.toList[i]? = some n ↔ l.Nth i n := by
  obtain ⟨ns⟩ := l
  replace h : ns.Pairwise (· < ·) := h
  show ns[i]? = some n ↔ n ∈ ns ∧ (ns.filter (· < n)).length = i
  induction ns generalizing i with
  | nil => simp
  | cons m rest ih =>
    obtain ⟨hhead, hrest⟩ := List.pairwise_cons.mp h
    cases i with
    | zero =>
      rw [List.getElem?_cons_zero, Option.some_inj]
      constructor
      · rintro rfl
        have hnone : rest.filter (· < m) = [] := filter_lt_eq_nil hhead
        exact ⟨List.mem_cons_self .., by simp [hnone]⟩
      · rintro ⟨hmem, hlength⟩
        rcases List.mem_cons.mp hmem with rfl | hn
        · rfl
        · have hlt := hhead n hn
          simp [hlt] at hlength
    | succ i =>
      rw [List.getElem?_cons_succ, ih hrest]
      constructor
      · rintro ⟨hmem, hlength⟩
        have hlt := hhead n hmem
        exact ⟨List.mem_cons_of_mem _ hmem, by simp [hlt, hlength]⟩
      · rintro ⟨hmem, hlength⟩
        rcases List.mem_cons.mp hmem with rfl | hn
        · -- the smallest line is at the first place
          have hnone : rest.filter (· < n) = [] := filter_lt_eq_nil hhead
          simp [hnone] at hlength
        · have hlt := hhead n hn
          simp only [List.filter_cons, hlt, decide_true, if_true, List.length_cons,
            Nat.add_right_cancel_iff] at hlength
          exact ⟨hn, hlength⟩

theorem ofList_concat (ns : List Int) (n : Int) : ofList (ns ++ [n]) = (ofList ns).insert n := by
  simp only [ofList, insert, List.foldl_append, List.foldl_cons, List.foldl_nil]

theorem rising_ofList (ns : List Int) : (ofList ns).Rising := by
  induction ns using List.reverseRecOn with
  | nil => exact .nil
  | append_singleton ns n ih =>
    rw [ofList_concat]
    exact ih.insert n

theorem mem_ofList {m : Int} {ns : List Int} : m ∈ (ofList ns).toList ↔ m ∈ ns := by
  induction ns using List.reverseRecOn with
  | nil => exact Iff.rfl
  | append_singleton ns n ih =>
    have hinsert : m ∈ (ofList (ns ++ [n])).toList ↔ m = n ∨ m ∈ (ofList ns).toList := by
      rw [ofList_concat]
      exact mem_insertLine
    rw [hinsert, ih, List.mem_append, List.mem_singleton, or_comm]

/-- A set without lines is the empty one. -/
theorem eq_empty {l : Lines} (h : l.isEmpty = true) : l = .empty :=
  congrArg Lines.mk (List.isEmpty_iff.mp h)

end Lines

/-! ### What an answer verifies -/

/-- An answer to the request for some lines that stands at the place `i` verifies the line `n`: its own
line, or else the one that was asked for at this place. -/
def Breakpoint.Verifies (b : Breakpoint) (lines : Lines) (i : Nat) (n : Int) : Prop :=
  b.verified = true ∧ (b.line = some n ∨ b.line = none ∧ lines.Nth i n)

/-- An answer goes with the line at its place. -/
theorem mem_acceptedLines {n : Int} {requested : List Int} {answer : List Breakpoint} :
    n ∈ acceptedLines requested answer ↔
      ∃ (i : Nat) (b : Breakpoint), answer[i]? = some b ∧ b.verified = true ∧
        (b.line = some n ∨ b.line = none ∧ requested[i]? = some n) := by
  induction answer generalizing requested with
  | nil => simp [acceptedLines]
  | cons b rest ih =>
    -- the answers behind the first one go with the lines behind the first one
    have hlater : n ∈ acceptedLines (requested.drop 1) rest ↔
        ∃ (i : Nat) (c : Breakpoint), (b :: rest)[i + 1]? = some c ∧ c.verified = true ∧
          (c.line = some n ∨ c.line = none ∧ requested[i + 1]? = some n) := by
      rw [ih]
      simp only [List.getElem?_cons_succ, List.getElem?_drop, Nat.add_comm 1]
    have hfirst : n ∈ (b.line.or requested.head?).toList ↔
        b.line = some n ∨ b.line = none ∧ requested[0]? = some n := by
      rw [List.head?_eq_getElem?, Option.mem_toList]
      cases b.line <;> simp
    have hsplit : n ∈ acceptedLines requested (b :: rest) ↔
        (b.verified = true ∧ (b.line = some n ∨ b.line = none ∧ requested[0]? = some n)) ∨
          n ∈ acceptedLines (requested.drop 1) rest := by
      cases hb : b.verified with
      | true => simp only [acceptedLines, hb, if_true, List.mem_append, hfirst, true_and]
      | false => simp [acceptedLines, hb]
    rw [hsplit, hlater]
    constructor
    · rintro (h | ⟨i, c, h⟩)
      · exact ⟨0, b, rfl, h⟩
      · exact ⟨i + 1, c, h⟩
    · rintro ⟨i, c, hc, h⟩
      cases i with
      | zero =>
        cases Option.some.inj hc
        exact .inl h
      | succ i => exact .inr ⟨i, c, hc, h⟩

theorem rising_verifiedLines (lines : Lines) (answer : List Breakpoint) :
    (verifiedLines lines answer).Rising :=
  Lines.rising_ofList _

/-- The lines that an answer verifies, by the places of its entries. -/
theorem mem_verifiedLines {lines : Lines} (h : lines.Rising) {answer : List Breakpoint} {n : Int} :
    n ∈ (verifiedLines lines answer).toList ↔
      ∃ (i : Nat) (b : Breakpoint), answer[i]? = some b ∧ b.Verifies lines i n := by
  simp only [verifiedLines, Lines.mem_ofList, mem_acceptedLines, Breakpoint.Verifies,
    h.getElem?_eq_some_iff]

/-- Where no line was asked for, those are verified that the adapter reports. -/
theorem mem_verifiedLines_empty {answer : List Breakpoint} {n : Int} :
    n ∈ (verifiedLines .empty answer).toList ↔
      ∃ b ∈ answer, b.verified = true ∧ b.line = some n := by
  rw [verifiedLines, Lines.mem_ofList, mem_acceptedLines]
  constructor
  · rintro ⟨i, b, hb, hverified, hline | ⟨-, hnone⟩⟩
    · exact ⟨b, List.mem_of_getElem? hb, hverified, hline⟩
    · cases hnone
  · rintro ⟨b, hb, hverified, hline⟩
    obtain ⟨i, hi⟩ := List.mem_iff_getElem?.mp hb
    exact ⟨i, b, hi, hverified, .inl hline⟩

/-! ### Values by path -/

namespace Path

variable {α : Type} {p q : Path} {entries : List (Path × α)}

/-- Whether a path is the same as another is a matter of the components. -/
theorem same_congr (h : p.same q = true) (r : Path) : p.same r = q.same r := by
  simp only [same, of_decide_eq_true h]

/-- What is found once the value for a path has been taken away. -/
theorem find?_erase (p q : Path) (entries : List (Path × α)) :
    find? q (erase p entries) = if p.same q = true then none else find? q entries := by
  induction entries with
  | nil => split <;> rfl
  | cons e rest ih =>
    by_cases hep : e.1.same p = true
    · have herase : erase p (e :: rest) = erase p rest := by simp [erase, hep]
      rw [herase, ih, find?_cons, same_congr hep]
      split <;> rfl
    · have herase : erase p (e :: rest) = e :: erase p rest := by simp [erase, hep]
      rw [herase, find?_cons, find?_cons, ih]
      by_cases heq : e.1.same q = true
      · have hpq : ¬ p.same q = true := by
          intro hpq
          exact hep (decide_eq_true ((of_decide_eq_true heq).trans (of_decide_eq_true hpq).symm))
        rw [if_pos heq, if_neg hpq, if_pos heq]
      · simp only [if_neg heq]

theorem inOrder_erase (h : InOrder entries) (p : Path) : InOrder (erase p entries) :=
  h.filter _

/-- A value is found just for the paths of the entries. -/
theorem exists_mem_same_iff : (∃ e ∈ entries, e.1.same q = true) ↔ ∃ a, find? q entries = some a := by
  constructor
  · rintro ⟨e, he, hsame⟩
    have hfound : (entries.find? (·.1.same q)).isSome = true :=
      List.find?_isSome.mpr ⟨e, he, hsame⟩
    obtain ⟨f, hf⟩ := Option.isSome_iff_exists.mp hfound
    exact ⟨f.2, by rw [find?, hf]; rfl⟩
  · rintro ⟨a, ha⟩
    obtain ⟨e, he, -⟩ := Option.map_eq_some_iff.mp ha
    exact ⟨e, List.mem_of_find?_eq_some he, by simpa using List.find?_some he⟩

/-- What is found is the value of one of the entries. -/
theorem mem_of_find? {a : α} (h : find? q entries = some a) : ∃ e ∈ entries, e.2 = a := by
  obtain ⟨e, he, rfl⟩ := Option.map_eq_some_iff.mp h
  exact ⟨e, List.mem_of_find?_eq_some he, rfl⟩

end Path

/-! ### Commits -/

/-- A commit: the set of lines that was asked for in a file, and what the adapter answered. -/
structure Commit where
  file : Path
  lines : Lines
  rising : lines.Rising
  answer : List Breakpoint

/-- The line `n` is one of those that the answer verifies. -/
def Commit.Accepts (c : Commit) (n : Int) : Prop :=
  ∃ (i : Nat) (b : Breakpoint), c.answer[i]? = some b ∧ b.Verifies c.lines i n

/-- Of the commits `cs` the last one for the file `p` is `c`: those behind it are for other files. -/
def LastFor (p : Path) (cs : List Commit) (c : Commit) : Prop :=
  c.file.same p = true ∧ ∃ front back, cs = front ++ c :: back ∧ ∀ d ∈ back, d.file.same p = false

namespace BreakpointSet

/-- The record with one commit more. -/
def take (s : BreakpointSet) (c : Commit) : BreakpointSet := (s.commit c.file c.lines c.answer).2

/-- What a commit leaves of a file in the record. -/
def entry (c : Commit) : Option FileBreakpoints :=
  if c.lines.isEmpty then none else some ⟨c.lines, c.answer⟩

/-- **A commit changes what the record has of its file**, and nothing else. -/
theorem find?_take (s : BreakpointSet) (c : Commit) (p : Path) :
    Path.find? p (s.take c).entries =
      if c.file.same p = true then entry c else Path.find? p s.entries := by
  cases hl : c.lines.isEmpty with
  | true => simp only [take, commit, entry, hl, if_true, Path.find?_erase]
  | false => simp only [take, commit, entry, hl, Bool.false_eq_true, if_false, Path.find?_insert]

theorem find?_take_other (s : BreakpointSet) {c : Commit} {p : Path} (h : c.file.same p = false) :
    Path.find? p (s.take c).entries = Path.find? p s.entries := by
  rw [find?_take, h, if_neg Bool.false_ne_true]

/-- Commits for other files do not matter. -/
theorem find?_foldl_other {p : Path} {cs : List Commit} (h : ∀ c ∈ cs, c.file.same p = false)
    (s : BreakpointSet) : Path.find? p (cs.foldl take s).entries = Path.find? p s.entries := by
  induction cs generalizing s with
  | nil => rfl
  | cons c cs ih =>
    have hrest := ih (fun d hd => h d (List.mem_cons_of_mem _ hd)) (s.take c)
    exact hrest.trans (find?_take_other s (h c (List.mem_cons_self ..)))

/-- What the record has of a file, it has of the commits for that file. -/
theorem find?_foldl_own (p : Path) (cs : List Commit) {s s' : BreakpointSet}
    (h : Path.find? p s.entries = Path.find? p s'.entries) :
    Path.find? p (cs.foldl take s).entries =
      Path.find? p ((cs.filter fun c => c.file.same p).foldl take s').entries := by
  induction cs generalizing s s' with
  | nil => exact h
  | cons c cs ih =>
    by_cases hc : c.file.same p = true
    · rw [List.filter_cons_of_pos (p := fun c : Commit => c.file.same p) hc]
      refine ih ?_
      rw [find?_take, find?_take, if_pos hc, if_pos hc]
    · rw [List.filter_cons_of_neg (p := fun c : Commit => c.file.same p) hc]
      refine ih ?_
      rw [find?_take, if_neg hc, h]

/-- What the last commit for a file leaves. -/
theorem find?_foldl_last {p : Path} {cs : List Commit} {c : Commit} (h : LastFor p cs c)
    (s : BreakpointSet) : Path.find? p (cs.foldl take s).entries = entry c := by
  obtain ⟨hc, front, back, rfl, hback⟩ := h
  rw [List.foldl_append, List.foldl_cons, find?_foldl_other hback, find?_take, if_pos hc]

/-- Records have their files in path order, and lines at every file. -/
structure Sound (s : BreakpointSet) : Prop where
  inOrder : Path.InOrder s.entries
  lines : ∀ e ∈ s.entries, e.2.requested.isEmpty = false

/-- **A commit keeps a record sound.** -/
theorem Sound.take {s : BreakpointSet} (h : s.Sound) (c : Commit) : (s.take c).Sound := by
  cases hl : c.lines.isEmpty with
  | true =>
    have htake : s.take c = ⟨Path.erase c.file s.entries⟩ := by
      simp only [BreakpointSet.take, commit, hl, if_true]
    rw [htake]
    exact ⟨Path.inOrder_erase h.inOrder _, fun e he => h.lines e (List.mem_filter.mp he).1⟩
  | false =>
    have htake : s.take c = ⟨Path.insert c.file ⟨c.lines, c.answer⟩ s.entries⟩ := by
      simp only [BreakpointSet.take, commit, hl, Bool.false_eq_true, if_false]
    rw [htake]
    refine ⟨Path.inOrder_insert h.inOrder _ _, fun e he => ?_⟩
    rcases (Path.mem_insert he).2 with hnew | hold
    · rw [hnew]
      exact hl
    · exact h.lines e hold

theorem sound_foldl {s : BreakpointSet} (h : s.Sound) (cs : List Commit) : (cs.foldl take s).Sound := by
  induction cs generalizing s with
  | nil => exact h
  | cons c cs ih => exact ih (h.take c)

/-! ### What the record says -/

/-- The record after some commits, from the beginning on. -/
def after (cs : List Commit) : BreakpointSet := cs.foldl take {}

theorem sound_after (cs : List Commit) : (after cs).Sound :=
  sound_foldl ⟨.nil, fun _ he => by cases he⟩ cs

theorem requested_of_find? {s : BreakpointSet} {p : Path} {f : Option FileBreakpoints}
    (h : Path.find? p s.entries = f) : s.requested p = f.map (·.requested) := by
  rw [requested, h]

theorem verified_of_find? {s : BreakpointSet} {p : Path} {f : FileBreakpoints}
    (h : Path.find? p s.entries = some f) : s.verified p = verifiedLines f.requested f.answer := by
  simp only [verified, h]

theorem verified_of_find?_none {s : BreakpointSet} {p : Path}
    (h : Path.find? p s.entries = none) : s.verified p = .empty := by
  simp only [verified, h]

/-- A file has an entry just where lines were asked for. -/
theorem find?_eq_none_iff {s : BreakpointSet} {p : Path} :
    Path.find? p s.entries = none ↔ s.requested p = none := by
  rw [requested, Option.map_eq_none_iff]

/-- What the record `s` says of the file `p` after the commits `cs`. -/
structure Mirrors (s : BreakpointSet) (cs : List Commit) (p : Path) : Prop where
  /-- No lines are asked for where there was no commit for the file. -/
  unnamed : (∀ c ∈ cs, c.file.same p = false) → s.requested p = none
  /-- Those of the last commit for the file are, if there are any. -/
  asked : ∀ c, LastFor p cs c →
    s.requested p = if c.lines.isEmpty then none else some c.lines
  /-- Then those lines are verified that its answer verifies, -/
  verified : s.requested p ≠ none → (s.verified p).Rising ∧
    ∀ c, LastFor p cs c → ∀ n, n ∈ (s.verified p).toList ↔ c.Accepts n
  /-- and none otherwise. -/
  unverified : s.requested p = none → s.verified p = .empty
  /-- The commits for other files do not matter. -/
  own : s.requested p = (after (cs.filter fun c => c.file.same p)).requested p ∧
    s.verified p = (after (cs.filter fun c => c.file.same p)).verified p

theorem mirrors (cs : List Commit) (p : Path) : (after cs).Mirrors cs p := by
  refine ⟨fun h => ?_, fun c hc => ?_, fun h => ?_, fun h => ?_, ?_⟩
  · have hfind : Path.find? p (after cs).entries = none := find?_foldl_other h {}
    rw [requested_of_find? hfind]
    rfl
  · have hfind : Path.find? p (after cs).entries = entry c := find?_foldl_last hc {}
    rw [requested_of_find? hfind, entry]
    split <;> rfl
  · obtain ⟨f, hf⟩ := Option.ne_none_iff_exists'.mp (mt find?_eq_none_iff.mp h)
    rw [verified_of_find? hf]
    refine ⟨rising_verifiedLines _ _, fun c hc n => ?_⟩
    have hentry : entry c = some f := (find?_foldl_last hc {}).symm.trans hf
    have hfields : f = ⟨c.lines, c.answer⟩ := by
      unfold entry at hentry
      split at hentry
      · cases hentry
      · exact (Option.some.inj hentry).symm
    rw [hfields]
    exact mem_verifiedLines c.rising
  · exact verified_of_find?_none (find?_eq_none_iff.mpr h)
  · have hown : Path.find? p (after cs).entries =
        Path.find? p (after (cs.filter fun c => c.file.same p)).entries := find?_foldl_own p cs rfl
    simp only [requested, BreakpointSet.verified, hown, and_self]

/-- What a record says of all files after the commits `cs`. -/
structure Recorded (s : BreakpointSet) (cs : List Commit) : Prop where
  /-- Of each file it says what the last commit for it says. -/
  files : ∀ p, s.Mirrors cs p
  /-- The files are listed in path order, each once, -/
  ordered : s.sources.Pairwise fun p q => p.compare q = .lt
  /-- and those are listed that have lines. -/
  named : ∀ p, (∃ q ∈ s.sources, q.same p = true) ↔
    ∃ lines, s.requested p = some lines ∧ lines.isEmpty = false
  /-- A record is empty if there are none. -/
  empty : s.isEmpty = true ↔ ∀ p, s.requested p = none

/-- **The record is a map of the last commits**: after any commits it says of every file what the last
commit for this file says. -/
theorem committed (cs : List Commit) : (after cs).Recorded cs := by
  have hsound := sound_after cs
  have hnamed (p : Path) : (∃ q ∈ (after cs).sources, q.same p = true) ↔
      ∃ lines, (after cs).requested p = some lines ∧ lines.isEmpty = false := by
    have hmem : (∃ q ∈ (after cs).sources, q.same p = true) ↔
        ∃ e ∈ (after cs).entries, e.1.same p = true := by
      simp only [sources, List.mem_map, exists_exists_and_eq_and]
    rw [hmem, Path.exists_mem_same_iff]
    constructor
    · rintro ⟨f, hf⟩
      obtain ⟨e, he, rfl⟩ := Path.mem_of_find? hf
      exact ⟨e.2.requested, by rw [requested_of_find? hf]; rfl, hsound.lines e he⟩
    · rintro ⟨lines, hlines, -⟩
      obtain ⟨f, hf, -⟩ := Option.map_eq_some_iff.mp hlines
      exact ⟨f, hf⟩
  refine ⟨mirrors cs, ?_, hnamed, ?_⟩
  · exact List.pairwise_map.mpr hsound.inOrder
  · constructor
    · intro h p
      have hnil : (after cs).entries = [] := List.isEmpty_iff.mp h
      rw [requested, hnil]
      rfl
    · intro h
      refine List.isEmpty_iff.mpr (List.eq_nil_iff_forall_not_mem.mpr fun e he => ?_)
      have hself : e.1.same e.1 = true := decide_eq_true rfl
      have hin : e.1 ∈ (after cs).sources := List.mem_map.mpr ⟨e, he, rfl⟩
      obtain ⟨lines, hlines, -⟩ := (hnamed e.1).mp ⟨e.1, hin, hself⟩
      rw [h e.1] at hlines
      cases hlines

end BreakpointSet
end DebugHost

/-! ### Reports of breakpoints -/

namespace DebugHost

/-! ### A commit -/

/-- How the lines `told` of a commit stand to those that the record has of the file afterwards. -/
structure Reported (lines : Lines) (answer : List Breakpoint) (told recorded : Lines) : Prop where
  /-- If lines were asked for, they are the same. -/
  kept : lines.isEmpty = false → told = recorded
  /-- If not, none is recorded, and those are told that the adapter gives with verified entries. -/
  cleared : lines.isEmpty = true → recorded = .empty ∧ told.Rising ∧
    ∀ n, n ∈ told.toList ↔ ∃ b ∈ answer, b.verified = true ∧ b.line = some n
  /-- So what is told is recorded, unless nothing was asked for and the adapter gives a line. -/
  same_iff : told = recorded ↔
    lines.isEmpty = false ∨ ∀ b ∈ answer, b.verified = true → b.line = none

namespace BreakpointSet

theorem verified_commit (s : BreakpointSet) (p : Path) {lines : Lines} (h : lines.isEmpty = false)
    (answer : List Breakpoint) :
    (s.commit p lines answer).2.verified p = verifiedLines lines answer := by
  have hself : p.same p = true := decide_eq_true rfl
  refine verified_of_find? (f := ⟨lines, answer⟩) ?_
  simp only [commit, h, Bool.false_eq_true, if_false, Path.find?_insert, hself, if_true]

theorem verified_cleared (s : BreakpointSet) (p : Path) {lines : Lines} (h : lines.isEmpty = true)
    (answer : List Breakpoint) : (s.commit p lines answer).2.verified p = .empty := by
  have hself : p.same p = true := decide_eq_true rfl
  refine verified_of_find?_none ?_
  simp only [commit, h, if_true, Path.find?_erase, hself]

/-- Nothing is verified of an empty request if the adapter gives no line with a verified entry. -/
theorem verifiedLines_eq_empty_iff {answer : List Breakpoint} :
    verifiedLines .empty answer = .empty ↔ ∀ b ∈ answer, b.verified = true → b.line = none := by
  constructor
  · intro h b hb hverified
    by_contra hline
    obtain ⟨n, hn⟩ := Option.ne_none_iff_exists'.mp hline
    have hmem : n ∈ (verifiedLines .empty answer).toList :=
      mem_verifiedLines_empty.mpr ⟨b, hb, hverified, hn⟩
    rw [h] at hmem
    cases hmem
  · intro h
    have hnone : ∀ n, n ∉ (verifiedLines .empty answer).toList := by
      intro n hn
      obtain ⟨b, hb, hverified, hline⟩ := mem_verifiedLines_empty.mp hn
      rw [h b hb hverified] at hline
      cases hline
    exact congrArg Lines.mk (List.eq_nil_iff_forall_not_mem.mpr hnone)

/-- **What a commit reports** is what it records, but for the lines that come with the answer to an empty
request. -/
theorem reported_commit (s : BreakpointSet) (p : Path) (lines : Lines) (answer : List Breakpoint) :
    Reported lines answer (s.commit p lines answer).1 ((s.commit p lines answer).2.verified p) := by
  have htold : (s.commit p lines answer).1 = verifiedLines lines answer := rfl
  rw [htold]
  cases h : lines.isEmpty with
  | false =>
    rw [verified_commit s p h]
    refine ⟨fun _ => rfl, fun he => ?_, ?_⟩
    · rw [h] at he
      cases he
    · simp only [h, true_or]
  | true =>
    rw [verified_cleared s p h, Lines.eq_empty h]
    refine ⟨fun he => (by cases he), fun _ => ⟨rfl, ?_, ?_⟩, ?_⟩
    · exact rising_verifiedLines _ _
    · exact fun n => mem_verifiedLines_empty
    · rw [verifiedLines_eq_empty_iff]
      exact ⟨.inr, fun hor => hor.resolve_left (by decide)⟩

end BreakpointSet

/-! ### What a session tells -/

namespace Crowd

open Debugger DebugHost.Session Replacement

variable {ρ : Type} {timeout : Duration} {id : SessionId}
  {σ : Nat → Happening (Replacement.Fit (ρ := ρ))} {n : Nat}

/-- A turn that ends commits its answer to the record as it was. -/
theorem record_turn {me : Nat} {t : Replacement}
    (h : (ledger (opened timeout id) σ (n + 1)).turns =
      (ledger (opened timeout id) σ n).turns ++ [(me, some t)]) :
    (after (opened timeout id) σ (n + 1)).room.breakpoints =
      commit (after (opened timeout id) σ n).room.breakpoints t := by
  have hbefore : (after (opened timeout id) σ n).room.breakpoints =
      ((ledger (opened timeout id) σ n).turns.filterMap (·.2)).foldl commit {} :=
    (fair timeout id σ n).record
  have hafter : (after (opened timeout id) σ (n + 1)).room.breakpoints =
      ((ledger (opened timeout id) σ (n + 1)).turns.filterMap (·.2)).foldl commit {} :=
    (fair timeout id σ (n + 1)).record
  rw [hafter, hbefore, h, List.filterMap_append, List.foldl_append]
  rfl

/-- A turn of which a success is told reports as its commit does. -/
theorem reported_turn {me : Nat} {t : Replacement} {told : Lines}
    (h : (ledger (opened timeout id) σ (n + 1)).turns =
      (ledger (opened timeout id) σ n).turns ++ [(me, some t)]) (ht : t.result = .ok told) :
    ∃ answer, t.answer = .ok answer ∧ Reported t.lines answer.breakpoints told
      ((after (opened timeout id) σ (n + 1)).room.breakpoints.verified t.file) := by
  obtain ⟨answer, hanswer, hcommit⟩ := commit_of_ok ht
  refine ⟨answer, hanswer, ?_⟩
  have hreported := BreakpointSet.reported_commit (after (opened timeout id) σ n).room.breakpoints
    t.file t.lines answer.breakpoints
  rw [hcommit, ← record_turn h] at hreported
  exact hreported

end Crowd

open Crowd Debugger in
/-- **What is told of breakpoints is what is recorded**, unless a file was cleared and the adapter gives
lines with verified entries of its answer: this holds for every commit, and in every order of moves for
every turn of which a success is told, with the record as it is when the turn is over. -/
theorem breakpoints_reported {ρ : Type} (s : BreakpointSet) (p : Path) (lines : Lines)
    (answer : List Breakpoint) (timeout : Duration) (id : SessionId)
    (σ : Nat → Happening (Replacement.Fit (ρ := ρ))) (n : Nat) :
    Reported lines answer (s.commit p lines answer).1 ((s.commit p lines answer).2.verified p) ∧
    ∀ (me : Nat) (t : Replacement) (told : Lines),
      (ledger (opened timeout id) σ (n + 1)).turns =
          (ledger (opened timeout id) σ n).turns ++ [(me, some t)] →
        t.result = .ok told →
          ∃ answer, t.answer = .ok answer ∧ Reported t.lines answer.breakpoints told
            ((after (opened timeout id) σ (n + 1)).room.breakpoints.verified t.file) :=
  ⟨BreakpointSet.reported_commit s p lines answer, fun _ _ _ => reported_turn⟩

/-- An adapter that answers the clearing of a file with a verified breakpoint has its line reported, and
the record has none. -/
theorem breakpoints_reported_cleared : ¬ ∀ (s : BreakpointSet) (p : Path) (lines : Lines)
    (answer : List Breakpoint),
    (s.commit p lines answer).1 = (s.commit p lines answer).2.verified p := by
  intro h
  have hsame := h {} ⟨"/work/app.py"⟩ .empty [⟨none, true, some 5, none⟩]
  revert hsame
  decide +kernel

end DebugHost
