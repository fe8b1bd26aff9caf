import DebugHost.Launch
import DebugHost.Proofs.Json.Shape
import DebugHost.Script

/-! # Maps of breakpoints

The lines that a program is to stop at are given by file: a list of files in path order, each once, with
its lines in rising order (`Sources`). Adding breakpoints one after the other makes such maps
(`Sources.withBreakpoint`), since the order of paths is a total one. A record into which the files of a
map are taken one after the other, each behind those before it, holds just the files that have lines
(`asked_commit`). -/

namespace DebugHost

namespace Path

/-! ### The order of paths -/

/-- The name in a component. -/
def Component.text : Component → String
  | .name s => s
  | _ => ""

theorem Component.compare_eq (a b : Component) :
    a.compare b = compareLex (compareOn rank) (compareOn text) a b := by
  cases a <;> cases b <;> rfl

instance : Std.TransCmp Component.compare := by
  rw [show Component.compare = _ from funext fun a => funext (Component.compare_eq a)]
  infer_instance

theorem compareComponents_eq (as bs : List Component) :
    compareComponents as bs = List.compareLex Component.compare as bs := by
  induction as generalizing bs with
  | nil => cases bs <;> rfl
  | cons a as ih =>
    cases bs with
    | nil => rfl
    | cons b bs => rw [compareComponents, ih, List.compareLex_cons_cons]

instance : Std.TransCmp compareComponents := by
  rw [show compareComponents = _ from funext fun as => funext (compareComponents_eq as)]
  infer_instance

/-- **The order of paths is a total order** of their components. -/
instance : Std.TransCmp Path.compare where
  eq_swap {p q} := @Std.OrientedCmp.eq_swap _ compareComponents _ p.components q.components
  isLE_trans {p q r} :=
    @Std.TransCmp.isLE_trans _ compareComponents _ p.components q.components r.components

theorem Component.eq_of_compare {a b : Component} (h : a.compare b = .eq) : a = b := by
  rw [compare_eq] at h
  obtain ⟨hrank, htext⟩ := Ordering.then_eq_eq.mp h
  replace hrank : a.rank = b.rank := Std.LawfulEqCmp.eq_of_compare hrank
  replace htext : a.text = b.text := Std.LawfulEqCmp.eq_of_compare htext
  cases a <;> cases b <;> first | exact congrArg name htext | rfl | cases hrank

theorem eq_of_compareComponents {as bs : List Component} (h : compareComponents as bs = .eq) :
    as = bs := by
  induction as generalizing bs with
  | nil =>
    cases bs with
    | nil => rfl
    | cons b bs => cases h
  | cons a as ih =>
    cases bs with
    | nil => cases h
    | cons b bs =>
      obtain ⟨hhead, hrest⟩ := Ordering.then_eq_eq.mp h
      rw [Component.eq_of_compare hhead, ih hrest]

/-- The same paths are those at one place in the order. -/
theorem same_iff_compare {p q : Path} : p.same q = true ↔ p.compare q = .eq := by
  rw [same, decide_eq_true_iff]
  refine ⟨fun h => ?_, eq_of_compareComponents⟩
  rw [compare, h]
  exact Std.ReflCmp.compare_self

/-- A path that stands in front of another is not the same. -/
theorem not_same_of_lt {p q : Path} (h : p.compare q = .lt) : p.same q = false := by
  refine Bool.eq_false_iff.mpr fun hsame => ?_
  rw [same_iff_compare.mp hsame] at h
  cases h

/-! ### Values by path -/

variable {α : Type} {p : Path} {a : α} {entries : List (Path × α)}

theorem find?_cons (q : Path) (e : Path × α) (rest : List (Path × α)) :
    find? q (e :: rest) = if e.1.same q = true then some e.2 else find? q rest := by
  simp only [find?, List.find?_cons]
  cases e.1.same q <;> rfl

theorem insert_cons (p : Path) (a : α) (e : Path × α) (rest : List (Path × α)) :
    insert p a (e :: rest) =
      match p.compare e.1 with
      | .lt => (p, a) :: e :: rest
      | .eq => (e.1, a) :: rest
      | .gt => e :: insert p a rest := rfl

/-- What is found once a value has been put in. -/
theorem find?_insert (p q : Path) (a : α) (entries : List (Path × α)) :
    find? q (insert p a entries) = if p.same q = true then some a else find? q entries := by
  induction entries with
  | nil => exact find?_cons q (p, a) []
  | cons e rest ih =>
    rw [insert_cons]
    split
    · rw [find?_cons]
    · next heq =>
      have hsame : e.1.same q = p.same q := by
        simp only [same, of_decide_eq_true (same_iff_compare.mpr heq)]
      rw [find?_cons, find?_cons, hsame]
      split <;> rfl
    · next hgt =>
      rw [find?_cons, find?_cons, ih]
      split
      · next heq =>
        rw [if_neg fun hp => ?_]
        have hpe : p.same e.1 = true :=
          decide_eq_true ((of_decide_eq_true hp).trans (of_decide_eq_true heq).symm)
        rw [same_iff_compare.mp hpe] at hgt
        cases hgt
      · rfl

/-- A value for a path behind all others is put at the end. -/
theorem insert_last (h : ∀ e ∈ entries, e.1.compare p = .lt) :
    insert p a entries = entries ++ [(p, a)] := by
  induction entries with
  | nil => rfl
  | cons e rest ih =>
    have hgt : p.compare e.1 = .gt := Std.OrientedCmp.gt_iff_lt.mpr (h e (List.mem_cons_self ..))
    simp only [insert_cons, hgt, ih fun e he => h e (List.mem_cons_of_mem _ he), List.cons_append]

/-- There is nothing to take away for a path behind all others. -/
theorem erase_last (h : ∀ e ∈ entries, e.1.compare p = .lt) : erase p entries = entries :=
  List.filter_eq_self.mpr fun e he => by rw [not_same_of_lt (h e he)]; rfl

/-- What stands where a value has been put in: that value, and beside it what stood there before. -/
theorem mem_insert {e : Path × α} (h : e ∈ insert p a entries) :
    (e.1 = p ∨ ∃ b, (e.1, b) ∈ entries) ∧ (e.2 = a ∨ e ∈ entries) := by
  induction entries with
  | nil => cases List.mem_singleton.mp h; exact ⟨.inl rfl, .inl rfl⟩
  | cons f rest ih =>
    obtain ⟨q, b⟩ := f
    have hold : e ∈ (q, b) :: rest →
        (e.1 = p ∨ ∃ c, (e.1, c) ∈ (q, b) :: rest) ∧ (e.2 = a ∨ e ∈ (q, b) :: rest) :=
      fun he => ⟨.inr ⟨e.2, he⟩, .inr he⟩
    rw [insert_cons] at h
    split at h
    · rcases List.mem_cons.mp h with rfl | he
      · exact ⟨.inl rfl, .inl rfl⟩
      · exact hold he
    · rcases List.mem_cons.mp h with rfl | he
      · exact ⟨.inr ⟨b, List.mem_cons_self ..⟩, .inl rfl⟩
      · exact hold (List.mem_cons_of_mem _ he)
    · rcases List.mem_cons.mp h with rfl | he
      · exact hold (List.mem_cons_self ..)
      · obtain ⟨hpath, hvalue⟩ := ih he
        exact ⟨hpath.imp_right fun ⟨c, hc⟩ => ⟨c, List.mem_cons_of_mem _ hc⟩,
          hvalue.imp_right (List.mem_cons_of_mem _)⟩

/-- Entries in path order, each path once. -/
def InOrder (entries : List (Path × α)) : Prop :=
  entries.Pairwise fun e f => e.1.compare f.1 = .lt

theorem inOrder_insert (h : InOrder entries) (p : Path) (a : α) : InOrder (insert p a entries) := by
  induction entries with
  | nil => exact List.pairwise_singleton _ _
  | cons e rest ih =>
    obtain ⟨hhead, hrest⟩ := List.pairwise_cons.mp h
    rw [insert_cons]
    split
    · next hlt =>
      refine List.pairwise_cons.mpr ⟨fun f hf => ?_, h⟩
      rcases List.mem_cons.mp hf with rfl | hf
      · exact hlt
      · exact Std.TransCmp.lt_trans hlt (hhead f hf)
    · exact List.pairwise_cons.mpr ⟨hhead, hrest⟩
    · next hgt =>
      refine List.pairwise_cons.mpr ⟨fun f hf => ?_, ih hrest⟩
      rcases (mem_insert hf).1 with hp | ⟨b, hb⟩
      · rw [hp]
        exact Std.OrientedCmp.gt_iff_lt.mp hgt
      · exact hhead (f.1, b) hb

end Path

/-! ### Lines -/

/-- Lines in rising order, each once. -/
def Lines.Rising (l : Lines) : Prop := l.toList.Pairwise (· < ·)

theorem mem_insertLine {n m : Int} {l : List Int} : m ∈ insertLine n l ↔ m = n ∨ m ∈ l := by
  induction l with
  | nil => simp [insertLine]
  | cons k rest ih =>
    simp only [insertLine]
    split
    · exact List.mem_cons
    · split
      · next hnk => simp [hnk]
      · rw [List.mem_cons, ih, List.mem_cons, or_left_comm]

theorem Lines.Rising.insert {l : Lines} (h : l.Rising) (n : Int) : (l.insert n).Rising := by
  obtain ⟨ns⟩ := l
  show (insertLine n ns).Pairwise (· < ·)
  replace h : ns.Pairwise (· < ·) := h
  induction ns with
  | nil => exact List.pairwise_singleton _ _
  | cons k rest ih =>
    obtain ⟨hhead, hrest⟩ := List.pairwise_cons.mp h
    simp only [insertLine]
    split
    · next hlt =>
      refine List.pairwise_cons.mpr ⟨fun m hm => ?_, h⟩
      rcases List.mem_cons.mp hm with rfl | hm
      · exact hlt
      · exact Int.lt_trans hlt (hhead m hm)
    · split
      · exact h
      · next hnot hne =>
        refine List.pairwise_cons.mpr ⟨fun m hm => ?_, ih hrest⟩
        rcases mem_insertLine.mp hm with rfl | hm
        · omega
        · exact hhead m hm

/-! ### Maps -/

/-- The lines of breakpoints by file. -/
structure Sources where
  /-- The files with their lines. -/
  files : List (Path × Lines)
  inOrder : Path.InOrder files
  rising : ∀ f ∈ files, f.2.Rising

namespace Sources

/-- No breakpoints. -/
def none : Sources := ⟨[], .nil, fun _ h => by cases h⟩

theorem rising_find (s : Sources) (file : Path) : ((Path.find? file s.files).getD .empty).Rising := by
  cases h : Path.find? file s.files with
  | none => exact .nil
  | some lines =>
    obtain ⟨f, hf, rfl⟩ := Option.map_eq_some_iff.mp h
    exact s.rising f (List.mem_of_find?_eq_some hf)

/-- Adds a breakpoint. -/
def withBreakpoint (s : Sources) (file : Path) (line : Int) : Sources where
  files := Path.insert file (((Path.find? file s.files).getD .empty).insert line) s.files
  inOrder := Path.inOrder_insert s.inOrder file _
  rising f hf := by
    rcases (Path.mem_insert hf).2 with h | h
    · rw [h]
      exact (s.rising_find file).insert line
    · exact s.rising f h

/-- The breakpoints of a request to debug a script are a map, however many are added. -/
theorem files_withBreakpoint {s : Sources} {r : LaunchRequest} (h : r.breakpoints = s.files)
    (file : Path) (line : Int) :
    (r.withBreakpoint file line).breakpoints = (s.withBreakpoint file line).files := by
  simp only [LaunchRequest.withBreakpoint, withBreakpoint, h]

end Sources

/-! ### The record -/

/-- The files that have lines. -/
def withLines (files : List (Path × Lines)) : List (Path × Lines) := files.filter fun f => !f.2.isEmpty

/-- The files of a record, with the lines that were asked for. -/
def BreakpointSet.asked (s : BreakpointSet) : List (Path × Lines) :=
  s.entries.map fun e => (e.1, e.2.requested)

/-- **A file behind those of the record is taken into it** if it has lines. -/
theorem BreakpointSet.asked_commit {s : BreakpointSet} {p : Path}
    (h : ∀ f ∈ s.asked, f.1.compare p = .lt) (lines : Lines) (answer : List Breakpoint) :
    (s.commit p lines answer).2.asked = s.asked ++ withLines [(p, lines)] := by
  have hentries : ∀ e ∈ s.entries, e.1.compare p = .lt := by
    intro e he
    have hasked : (e.1, e.2.requested) ∈ s.asked := List.mem_map.mpr ⟨e, he, rfl⟩
    exact h (e.1, e.2.requested) hasked
  cases hl : lines.isEmpty with
  | true =>
    simp only [commit, hl, if_true, asked, Path.erase_last hentries, withLines, List.filter_cons,
      Bool.not_true, Bool.false_eq_true, if_false, List.filter_nil, List.append_nil]
  | false =>
    simp only [commit, hl, Bool.false_eq_true, if_false, asked, Path.insert_last hentries,
      List.map_append, List.map_cons, List.map_nil, withLines, List.filter_cons, Bool.not_false,
      if_true, List.filter_nil]

/-! ### The request -/

section Request

open Json Json.Value

/-- What the request for a file says: its name and path, and all its lines in order. -/
def replacing (p : Path) (lines : Lines) : Value :=
  .obj [("breakpoints", .arr (lines.toList.map fun n => .obj [("line", .int n)])),
    ("source", .obj (optionalMember "name" .str p.fileName? ++ [("path", .str p.text)])),
    ("sourceModified", .bool false)]

theorem written_setBreakpoints (p : Path) (lines : Lines) :
    Script.written (setBreakpointsArguments p lines) = replacing p lines := by
  have hlines : canonicalItems ((lines.toList.map SourceBreakpoint.mk).map Typed.write) =
      lines.toList.map fun n => .obj [("line", .int n)] := by
    rw [canonicalItems_eq, List.map_map, List.map_map]
    rfl
  have hsource : (Typed.write (Source.mk p.fileName? (some p.text))).canonical =
      .obj (optionalMember "name" .str p.fileName? ++ [("path", .str p.text)]) := by
    cases p.fileName? <;> rfl
  have hwrite : Script.written (setBreakpointsArguments p lines) =
      .obj (canonicalMembers [("source", Typed.write (Source.mk p.fileName? (some p.text))),
        ("breakpoints", .arr ((lines.toList.map SourceBreakpoint.mk).map Typed.write)),
        ("sourceModified", .bool false)] []) := rfl
  rw [hwrite]
  simp only [canonicalMembers, hsource, canonical, hlines]
  rfl

end Request

end DebugHost
