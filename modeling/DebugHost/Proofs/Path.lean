import DebugHost.Path
import Mathlib.Data.List.Basic

/-! # Joining paths

The steps of a path are its components behind the place where it starts. Seen from a directory, a path
that is not absolute leads through the steps of the directory and then through its own (`steps_join`),
and an absolute path is nothing but the root directory and its steps. A path that is seen from a
directory twice therefore stays the same file only if there is nothing to go through a second time
(`same_join_join_iff`). -/

namespace DebugHost
namespace Path

/-! ### Pieces -/

theorem pieces_ne_nil (cs : List Char) : pieces cs ≠ [] := by
  fun_cases pieces cs <;> simp

theorem pieces_append (xs ys : List Char) : pieces (xs ++ '/' :: ys) = pieces xs ++ pieces ys := by
  induction xs with
  | nil => rfl
  | cons x xs ih =>
    rw [List.cons_append, pieces, pieces, ih]
    split
    · rfl
    · cases h : pieces xs with
      | nil => exact absurd h (pieces_ne_nil xs)
      | cons p ps => rfl

/-- What stands behind a slash at the end of a text is pieces of its own. -/
theorem pieces_behind_slash {xs : List Char} (h : xs.getLast? = some '/') (ys : List Char) :
    ∃ ps, pieces xs = ps ++ [[]] ∧ pieces (xs ++ ys) = ps ++ pieces ys := by
  obtain ⟨zs, rfl⟩ := List.getLast?_eq_some_iff.mp h
  refine ⟨pieces zs, pieces_append zs [], ?_⟩
  rw [List.append_assoc, List.singleton_append, pieces_append]

/-! ### Steps -/

/-- The components of a path behind the place where it starts. -/
def steps (p : Path) : List Component := (pieces p.text.toList).filterMap pieceComponent

/-- Whether a component can stand behind another. -/
def Component.isStep : Component → Bool
  | .root | .here => false
  | .parent | .name _ => true

theorem isStep_of_pieceComponent {p : List Char} {c : Component} (h : pieceComponent p = some c) :
    c.isStep = true := by
  unfold pieceComponent at h
  split at h
  · cases h
  · split at h <;> cases h <;> rfl

theorem isStep_of_mem_steps {p : Path} {c : Component} (h : c ∈ p.steps) : c.isStep = true := by
  obtain ⟨q, -, hq⟩ := List.mem_filterMap.mp h
  exact isStep_of_pieceComponent hq

theorem components_of_isAbsolute {p : Path} (h : p.isAbsolute = true) :
    p.components = .root :: p.steps := by
  obtain ⟨cs, hcs⟩ : ∃ cs, p.text.toList = '/' :: cs :=
    List.head?_eq_some_iff.mp (of_decide_eq_true h)
  have hpieces : pieces p.text.toList = [] :: pieces cs := by rw [hcs]; rfl
  rw [components, steps, hpieces]
  cases h : pieces cs with
  | nil => exact absurd h (pieces_ne_nil cs)
  | cons q qs => rfl

/-- A path that is not absolute starts where one is; only a dot in front shows. -/
theorem components_of_not_isAbsolute {p : Path} (h : p.isAbsolute = false) :
    p.components = p.steps ∨ p.components = .here :: p.steps := by
  have hhead : p.text.toList.head? ≠ some '/' := of_decide_eq_false h
  simp only [components, steps]
  split
  · next q qs hpieces =>
    exfalso
    cases htext : p.text.toList with
    | nil => rw [htext] at hpieces; cases hpieces
    | cons c cs =>
      have hc : c ≠ '/' := fun hc => hhead (by rw [htext, hc]; rfl)
      rw [htext, pieces, if_neg hc] at hpieces
      split at hpieces <;> cases hpieces
  · exact .inr rfl
  · exact .inl rfl

/-- The components tell the steps, and whether the path is absolute. -/
theorem components_inj {p q : Path} (h : p.components = q.components) :
    p.steps = q.steps ∧ p.isAbsolute = q.isAbsolute := by
  have hsteps : ∀ p : Path, p.components.filter Component.isStep = p.steps := by
    intro p
    have hself : p.steps.filter Component.isStep = p.steps :=
      List.filter_eq_self.mpr fun c hc => isStep_of_mem_steps hc
    cases hp : p.isAbsolute with
    | true => rw [components_of_isAbsolute hp]; exact hself
    | false => rcases components_of_not_isAbsolute hp with h | h <;> rw [h] <;> exact hself
  have hroot : ∀ p : Path, p.isAbsolute = true ↔ Component.root ∈ p.components := by
    intro p
    have hno : Component.root ∉ p.steps := fun h => by cases isStep_of_mem_steps h
    cases hp : p.isAbsolute with
    | true => simp [components_of_isAbsolute hp]
    | false => rcases components_of_not_isAbsolute hp with h | h <;> simp [h, hno]
  refine ⟨by rw [← hsteps p, h, hsteps q], ?_⟩
  rw [Bool.eq_iff_iff, hroot, hroot, h]

/-! ### Joining -/

theorem join_of_isAbsolute (p : Path) {q : Path} (h : q.isAbsolute = true) : p.join q = q :=
  if_pos h

theorem join_of_not_isAbsolute (p : Path) {q : Path} (h : q.isAbsolute = false) :
    p.join q =
      if p.text = "" ∨ p.text.toList.getLast? = some '/' then ⟨p.text ++ q.text⟩
      else ⟨p.text ++ "/" ++ q.text⟩ :=
  if_neg (by simp [h])

theorem isAbsolute_join (p q : Path) : (p.join q).isAbsolute = (p.isAbsolute || q.isAbsolute) := by
  cases hq : q.isAbsolute with
  | true => rw [join_of_isAbsolute p hq, hq, Bool.or_true]
  | false =>
    rw [Bool.or_false, join_of_not_isAbsolute p hq]
    by_cases hp : p.text = ""
    · have hempty : p.isAbsolute = false := by rw [isAbsolute, hp]; rfl
      rw [if_pos (.inl hp), hp, String.empty_append, hempty]
      exact hq
    · have hne : p.text.toList ≠ [] := fun h => hp (by simpa using h)
      split <;> simp [isAbsolute, List.head?_append_of_ne_nil _ hne]

/-- What is put between a path and another that is seen from it. -/
def separator (p : Path) : String :=
  if p.text = "" ∨ p.text.toList.getLast? = some '/' then "" else "/"

theorem text_join (p : Path) {q : Path} (h : q.isAbsolute = false) :
    (p.join q).text = p.text ++ p.separator ++ q.text := by
  rw [join_of_not_isAbsolute p h, separator]
  split
  · rw [String.append_empty]
  · rfl

theorem separator_join (p : Path) {q : Path} (h : q.isAbsolute = false) :
    (p.join q).separator = q.separator := by
  rw [separator, text_join p h]
  by_cases hq : q.text = ""
  · have hempty : q.separator = "" := if_pos (.inl hq)
    rw [hempty, hq, String.append_empty]
    refine if_pos ?_
    rw [separator]
    split
    · next hp => rwa [String.append_empty]
    · exact .inr (by simp)
  · have hlast : (p.text ++ p.separator ++ q.text).toList.getLast? = q.text.toList.getLast? := by
      rw [String.toList_append]
      exact List.getLast?_append_of_ne_nil _ fun h => hq (by simpa using h)
    have hne : p.text ++ p.separator ++ q.text ≠ "" := by simp [hq]
    have hseparator : q.separator = if q.text.toList.getLast? = some '/' then "" else "/" := by
      simp only [separator, hq, false_or]
    rw [hlast, hseparator]
    simp only [hne, false_or]

theorem join_assoc (p q r : Path) : (p.join q).join r = p.join (q.join r) := by
  cases hr : r.isAbsolute with
  | true => rw [join_of_isAbsolute _ hr, join_of_isAbsolute _ hr, join_of_isAbsolute _ hr]
  | false =>
    cases hq : q.isAbsolute with
    | true =>
      have hqr : (q.join r).isAbsolute = true := by rw [isAbsolute_join, hq, Bool.true_or]
      rw [join_of_isAbsolute p hq, join_of_isAbsolute p hqr]
    | false =>
      have hqr : (q.join r).isAbsolute = false := by rw [isAbsolute_join, hq, hr, Bool.or_false]
      have htext : ((p.join q).join r).text = (p.join (q.join r)).text := by
        rw [text_join _ hr, text_join _ hq, text_join _ hqr, text_join _ hr, separator_join p hq]
        simp only [String.append_assoc]
      exact congrArg Path.mk htext

/-- **A path seen from a directory** leads through the steps of the directory first. -/
theorem steps_join (p : Path) {q : Path} (h : q.isAbsolute = false) :
    (p.join q).steps = p.steps ++ q.steps := by
  rw [join_of_not_isAbsolute p h]
  split
  · next hp =>
    rcases hp with hp | hp
    · simp [steps, hp, pieces, pieceComponent]
    · obtain ⟨ps, hpieces, happend⟩ := pieces_behind_slash hp q.text.toList
      simp [steps, hpieces, happend, pieceComponent]
  · simp [steps, pieces_append]

theorem components_join {p : Path} (hp : p.isAbsolute = true) (q : Path) :
    (p.join q).components =
      if q.isAbsolute = true then q.components else p.components ++ q.steps := by
  split
  · next hq => rw [join_of_isAbsolute p hq]
  · next hq =>
    have hjoin : (p.join q).isAbsolute = true := by rw [isAbsolute_join, hp, Bool.true_or]
    rw [components_of_isAbsolute hjoin, components_of_isAbsolute hp,
      steps_join p (Bool.eq_false_iff.mpr hq), List.cons_append]

/-- From an absolute directory, two spellings of one path lead to the same file. -/
theorem components_join_congr {p q q' : Path} (hp : p.isAbsolute = true)
    (h : q.components = q'.components) : (p.join q).components = (p.join q').components := by
  obtain ⟨hsteps, habsolute⟩ := components_inj h
  rw [components_join hp, components_join hp, h, hsteps, habsolute]

/-- **A file that is seen from a directory twice**: the steps of the directory stand there twice. -/
theorem components_join_join {b c f : Path} (hb : b.isAbsolute = true) (hc : c.isAbsolute = false)
    (hf : f.isAbsolute = false) :
    ((b.join c).join (c.join f)).components = (b.join c).components ++ (c.steps ++ f.steps) := by
  have hhome : (b.join c).isAbsolute = true := by rw [isAbsolute_join, hb, Bool.true_or]
  have hcf : (c.join f).isAbsolute = false := by rw [isAbsolute_join, hc, hf, Bool.or_false]
  rw [components_join hhome, if_neg (by simp [hcf]), steps_join c hf]

/-- **It stays the same file** only where there is nothing to go through again. -/
theorem same_join_join_iff {b : Path} (hb : b.isAbsolute = true) (c f : Path) :
    ((b.join c).join (c.join f)).same ((b.join c).join f) = true ↔
      f.isAbsolute = true ∨ c.isAbsolute = true ∨ c.steps = [] := by
  have hhome : (b.join c).isAbsolute = true := by rw [isAbsolute_join, hb, Bool.true_or]
  rw [same, decide_eq_true_iff]
  cases hf : f.isAbsolute with
  | true => simp [join_of_isAbsolute c hf]
  | false =>
    cases hc : c.isAbsolute with
    | true =>
      have hcf : (c.join f).isAbsolute = true := by rw [isAbsolute_join, hc, Bool.true_or]
      simp [join_of_isAbsolute _ hc, join_of_isAbsolute _ hcf]
    | false =>
      rw [components_join_join hb hc hf, components_join hhome, if_neg (by simp [hf]),
        List.append_cancel_left_eq]
      simp

end Path
end DebugHost
