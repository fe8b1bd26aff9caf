import DebugHost.FileSystem
import DebugHost.Proofs.Path

/-! # Places of paths

The place of a path is found by walking through its pieces, so a path that is joined to a directory is
walked from the place of the directory (`locate_join`). Where no piece means the directory above, a walk
goes down the names that the path has (`eq_append_of_walk`). -/

namespace DebugHost
namespace FileSystem

variable (fs : FileSystem) {names out : List String} {ps : List (List Char)}

/-! ### Walks -/

theorem walk_append (ps qs : List (List Char)) (names : List String) :
    fs.walk (ps ++ qs) names = (fs.walk ps names).bind (fs.walk qs) := by
  induction ps generalizing names with
  | nil => rfl
  | cons p ps ih =>
    simp only [List.cons_append, walk]
    cases fs.enter names with
    | error e => rfl
    | ok =>
      show (if _ then _ else _) = Except.bind (if _ then _ else _) _
      split
      · exact ih names
      · split
        · exact ih names.dropLast
        · split
          · rfl
          · exact ih _

theorem walk_slash (names : List String) :
    fs.walk [[]] names = (fs.enter names).map fun _ => names := by
  rw [walk]
  cases fs.enter names <;> rfl

/-- A slash at the end asks for a directory, which is what one goes on from anyway. -/
theorem walk_behind_slash {qs : List (List Char)} (h : qs ≠ []) (ps : List (List Char))
    (names : List String) :
    fs.walk (ps ++ qs) names = (fs.walk (ps ++ [[]]) names).bind (fs.walk qs) := by
  rw [walk_append, walk_append]
  cases fs.walk ps names with
  | error e => rfl
  | ok d =>
    show fs.walk qs d = (fs.walk [[]] d).bind (fs.walk qs)
    cases qs with
    | nil => exact absurd rfl h
    | cons q qs =>
      rw [walk_slash]
      cases henter : fs.enter d with
      | error e => rw [walk, henter]; rfl
      | ok => rfl

/-- The names among components. -/
def namesOf (cs : List Path.Component) : List String := cs.filterMap fun
  | .name s => some s
  | _ => none

variable {fs}

/-- **Without pieces that mean the directory above** a walk goes down the names. -/
theorem eq_append_of_walk (h : .parent ∉ ps.filterMap Path.pieceComponent)
    (hwalk : fs.walk ps names = .ok out) :
    out = names ++ namesOf (ps.filterMap Path.pieceComponent) := by
  induction ps generalizing names with
  | nil => cases hwalk; exact (List.append_nil _).symm
  | cons p ps ih =>
    simp only [walk] at hwalk
    cases henter : fs.enter names with
    | error e => rw [henter] at hwalk; cases hwalk
    | ok =>
      rw [henter] at hwalk
      replace hwalk : (if p = [] ∨ p = ['.'] then fs.walk ps names
        else if p = ['.', '.'] then fs.walk ps names.dropLast
        else if nameLimit < (String.ofList p).utf8ByteSize then .error .nameTooLong
        else fs.walk ps (names ++ [String.ofList p])) = .ok out := hwalk
      by_cases hdot : p = [] ∨ p = ['.']
      · have hnone : Path.pieceComponent p = none := if_pos hdot
        rw [if_pos hdot] at hwalk
        rw [List.filterMap_cons_none hnone] at h ⊢
        exact ih h hwalk
      · by_cases hparent : p = ['.', '.']
        · exact absurd (List.mem_filterMap.mpr ⟨p, List.mem_cons_self .., by rw [hparent]; rfl⟩) h
        · have hsome : Path.pieceComponent p = some (.name (String.ofList p)) := by
            rw [Path.pieceComponent, if_neg hdot, if_neg hparent]
          rw [if_neg hdot, if_neg hparent] at hwalk
          rw [List.filterMap_cons_some hsome] at h ⊢
          split at hwalk
          · cases hwalk
          · rw [ih (fun hmem => h (List.mem_cons_of_mem _ hmem)) hwalk, List.append_assoc]
            rfl

/-! ### Paths -/

/-- A text that the system takes for a path. -/
structure IsSpelling (text : String) : Prop where
  noNul : hasNul text = false
  ne_empty : text ≠ ""
  short : text.utf8ByteSize < pathLimit

theorem locate_of_isSpelling {p : Path} (h : IsSpelling p.text) (home : List String) :
    fs.locate home p =
      fs.walk (Path.pieces p.text.toList) (if p.isAbsolute then [] else home) := by
  rw [locate, if_neg (by simp [h.noNul]), if_neg h.ne_empty, if_neg (Nat.not_le.mpr h.short)]

theorem isSpelling_of_locate {p : Path} {home : List String} (h : fs.locate home p = .ok out) :
    IsSpelling p.text := by
  unfold locate at h
  split at h
  · cases h
  · next hnul =>
    split at h
    · cases h
    · next hne =>
      split at h
      · cases h
      · next hshort => exact ⟨Bool.eq_false_iff.mpr hnul, hne, Nat.not_le.mp hshort⟩

/-- The place of an absolute path is the same from everywhere. -/
theorem locate_of_isAbsolute {p : Path} (h : p.isAbsolute = true) (home home' : List String) :
    fs.locate home p = fs.locate home' p := by
  simp only [locate, h, if_true]

/-- **A path that is joined to a directory** is walked from the place of the directory. -/
theorem locate_join {p q : Path} (hq : q.isAbsolute = false) (hp : IsSpelling p.text)
    (hjoin : IsSpelling (p.join q).text) (home : List String) :
    fs.locate home (p.join q) =
      (fs.locate home p).bind (fs.walk (Path.pieces q.text.toList)) := by
  rw [locate_of_isSpelling hjoin, locate_of_isSpelling hp, Path.isAbsolute_join, hq, Bool.or_false,
    Path.join_of_not_isAbsolute p hq]
  split
  · next hend =>
    obtain ⟨ps, hpieces, happend⟩ :=
      Path.pieces_behind_slash (hend.resolve_left hp.ne_empty) q.text.toList
    rw [String.toList_append, happend, hpieces]
    exact fs.walk_behind_slash (Path.pieces_ne_nil _) ps _
  · have hslash : (p.text ++ "/" ++ q.text).toList = p.text.toList ++ '/' :: q.text.toList := by simp
    rw [hslash, Path.pieces_append]
    exact fs.walk_append _ _ _

/-- Without components that mean the directory above, only a path without steps leads nowhere else. -/
theorem steps_eq_nil_of_locate {p : Path} (hp : p.isAbsolute = false) (hparent : .parent ∉ p.steps)
    (h : fs.locate out p = .ok out) : p.steps = [] := by
  rw [locate_of_isSpelling (isSpelling_of_locate h), hp] at h
  have hnames : namesOf p.steps = [] := List.self_eq_append_right.mp (eq_append_of_walk hparent h)
  cases hsteps : p.steps with
  | nil => rfl
  | cons c cs =>
    have hstep := Path.isStep_of_mem_steps (hsteps ▸ List.mem_cons_self ..)
    rw [hsteps] at hparent hnames
    cases c with
    | root => cases hstep
    | here => cases hstep
    | parent => exact absurd (List.mem_cons_self ..) hparent
    | name n => cases hnames

/-- Something is there just where a path has a place with an entry. -/
theorem isThere_iff {p : Path} {home : List String} :
    fs.isThere home p = true ↔ ∃ P e, fs.locate home p = .ok P ∧ fs.at? P = some e := by
  unfold isThere lookup
  cases fs.locate home p with
  | error e => simp [Except.isOk, Except.toBool]
  | ok P => cases h : fs.at? P <;> simp [Except.isOk, Except.toBool, h]

end FileSystem
end DebugHost
