import DebugHost.Log.Filter
import DebugHost.Proofs.Text.Words
import Mathlib.Data.List.Induction

/-! # Which directives count

A text is read as a list of directives, of which a later one takes the place of an earlier one for the same
thing (`InForce`). A filter that is read from a text holds those that are left (`holds_ofDirectives`), and
`error` if there is none at all.

The text of the environment is put behind that of the configuration, so that the directives of the two are
those of the one behind those of the other (`directives?_comma`): the environment overrides the configuration
thing by thing (`inForce_append`). If only one of the two texts is good, it counts alone
(`effective_directives`). -/

namespace DebugHost.Log

open DebugHost.Text

/-! ### Directives of a text -/

/-- The directives of a text: one for each part between commas that is not empty. A part that is no directive
makes the text a bad one. -/
def directives? (text : String) : Option (List Directive) :=
  ((text.toList.splitOn ',').filter (· ≠ [])).mapM fun p => Directive.parse? (String.ofList p)

/-- **Texts with a comma between them** have the directives of both, if both are good. -/
theorem directives?_comma (front behind : String) : directives? (front ++ "," ++ behind) =
    (directives? front).bind fun ds => (directives? behind).map (ds ++ ·) := by
  have htext : (front ++ "," ++ behind).toList = front.toList ++ ',' :: behind.toList := by simp
  unfold directives?
  rw [htext, List.splitOn_append_cons_self, List.filter_append, List.mapM_append]
  cases ((front.toList.splitOn ',').filter (· ≠ [])).mapM fun p => Directive.parse? (String.ofList p) with
  | none => rfl
  | some ds =>
    cases ((behind.toList.splitOn ',').filter (· ≠ [])).mapM fun p => Directive.parse? (String.ofList p) <;> rfl

/-- The directives that the environment gives. Blanks around them do not count; nothing but blanks is the same
as nothing. -/
def environmentDirectives? (environment : Option String) : Option (List Directive) :=
  environment.bind fun text =>
    if text.toList.all isBlank then none else directives? (trimBlanks text)

namespace Directive

/-- A directive for everything. -/
def forAll (t : Threshold) : Directive := ⟨none, none, none, t⟩

variable {a b : Directive}

theorem concernsSame_iff : a.concernsSame b = true ↔ a.target = b.target ∧ a.span = b.span ∧ a.field = b.field := by
  simp only [concernsSame, Bool.and_eq_true, decide_eq_true_eq, and_assoc]

theorem concernsSame_comm (a b : Directive) : a.concernsSame b = b.concernsSame a := by
  rw [Bool.eq_iff_iff, concernsSame_iff, concernsSame_iff]
  exact ⟨fun h => ⟨h.1.symm, h.2.1.symm, h.2.2.symm⟩, fun h => ⟨h.1.symm, h.2.1.symm, h.2.2.symm⟩⟩

theorem isForRecords_congr (h : a.concernsSame b = true) : a.isForRecords = b.isForRecords := by
  obtain ⟨-, hspan, hfield⟩ := concernsSame_iff.mp h
  rw [isForRecords, isForRecords, hspan, hfield]

theorem isForSpans_congr (h : a.concernsSame b = true) : a.isForSpans = b.isForSpans := by
  obtain ⟨-, hspan, hfield⟩ := concernsSame_iff.mp h
  rw [isForSpans, isForSpans, hspan, hfield]

/-- Every directive is for records or for spans. -/
theorem isForRecords_or_isForSpans (d : Directive) : d.isForRecords = true ∨ d.isForSpans = true := by
  unfold isForRecords isForSpans
  cases d.span <;> cases d.field <;> simp

end Directive

/-! ### Directives in force -/

/-- A directive is one of some directives, and none behind it is for the same thing. -/
def InForce (ds : List Directive) (d : Directive) : Prop :=
  ∃ front behind, ds = front ++ d :: behind ∧ ∀ e ∈ behind, e.concernsSame d = false

/-- A directive is in force where `es` override `ds`: it is one of those in force among `es`, or among `ds` if
none of `es` is for the same thing. -/
def Overridden (ds es : List Directive) (d : Directive) : Prop :=
  InForce es d ∨ InForce ds d ∧ ∀ e ∈ es, e.concernsSame d = false

variable {ds es : List Directive} {a d : Directive}

theorem not_inForce_nil : ¬ InForce [] d := by
  rintro ⟨front, behind, h, -⟩
  simp at h

theorem InForce.mem (h : InForce ds d) : d ∈ ds := by
  obtain ⟨front, behind, rfl, -⟩ := h
  simp

/-- **Directives behind others override them.** -/
theorem inForce_append : InForce (ds ++ es) d ↔ Overridden ds es d := by
  constructor
  · rintro ⟨front, behind, h, hlast⟩
    rcases List.append_eq_append_iff.mp h with ⟨mid, rfl, rfl⟩ | ⟨mid, rfl, hmid⟩
    · exact Or.inl ⟨mid, behind, rfl, hlast⟩
    · cases mid with
      | nil => exact Or.inl ⟨[], behind, by simpa using hmid.symm, hlast⟩
      | cons e mid =>
        obtain ⟨rfl, rfl⟩ := List.cons.inj hmid
        exact Or.inr ⟨⟨front, mid, rfl, fun e he => hlast e (List.mem_append_left _ he)⟩,
          fun e he => hlast e (List.mem_append_right _ he)⟩
  · rintro (⟨front, behind, rfl, hlast⟩ | ⟨⟨front, behind, rfl, hlast⟩, hes⟩)
    · exact ⟨ds ++ front, behind, (List.append_assoc ..).symm, hlast⟩
    · refine ⟨front, behind ++ es, by simp, fun e he => ?_⟩
      exact (List.mem_append.mp he).elim (hlast e) (hes e)

theorem inForce_singleton : InForce [a] d ↔ d = a := by
  constructor
  · exact fun h => List.mem_singleton.mp h.mem
  · rintro rfl
    exact ⟨[], [], rfl, List.forall_mem_nil _⟩

theorem inForce_concat : InForce (ds ++ [a]) d ↔ d = a ∨ InForce ds d ∧ a.concernsSame d = false := by
  rw [inForce_append, Overridden, inForce_singleton]
  simp only [List.mem_singleton, forall_eq]

/-- One of some directives is in force. -/
theorem exists_inForce (h : ds ≠ []) : ∃ d, InForce ds d := by
  obtain ⟨init, d, rfl⟩ := (List.eq_nil_or_concat ds).resolve_left h
  rw [List.concat_eq_append]
  exact ⟨d, inForce_concat.mpr (.inl rfl)⟩

namespace Filter

/-! ### Filters of directives -/

/-- The filter of some directives. -/
def ofDirectives (ds : List Directive) : Filter :=
  if ds.isEmpty then only (.upTo .error) else ds.foldl add ⟨[], []⟩

theorem parse?_eq (text : String) : parse? text = (directives? text).map ofDirectives := by
  unfold parse? directives?
  rw [pieces_eq_splitOn]
  cases ((text.toList.splitOn ',').filter (· ≠ [])).mapM fun p => Directive.parse? (String.ofList p) <;> rfl

/-- The directives of one kind, each in the place of those before it for the same thing. -/
def table (p : Directive → Bool) (ds : List Directive) : List Directive :=
  ds.foldl (fun t d => if p d then put t d else t) []

theorem table_concat (p : Directive → Bool) (ds : List Directive) (a : Directive) :
    table p (ds ++ [a]) = if p a then put (table p ds) a else table p ds :=
  List.foldl_concat ..

theorem foldl_add (ds : List Directive) : ds.foldl add ⟨[], []⟩ =
    ⟨table (·.isForRecords) ds, table (·.isForSpans) ds⟩ := by
  induction ds using List.reverseRecOn with
  | nil => rfl
  | append_singleton ds a ih =>
    rw [List.foldl_concat, ih, table_concat, table_concat]
    rfl

theorem mem_put {t : List Directive} : d ∈ put t a ↔ d = a ∨ d ∈ t ∧ a.concernsSame d = false := by
  rw [put, List.mem_append, List.mem_filter, List.mem_singleton, Directive.concernsSame_comm, or_comm]
  simp

/-- **A table holds the directives of its kind that are in force.** -/
theorem mem_table {p : Directive → Bool} (hp : ∀ a b : Directive, a.concernsSame b = true → p a = p b) :
    d ∈ table p ds ↔ InForce ds d ∧ p d = true := by
  induction ds using List.reverseRecOn with
  | nil => simp [table, not_inForce_nil]
  | append_singleton ds a ih =>
    rw [table_concat, inForce_concat]
    by_cases ha : p a = true
    · rw [if_pos ha, mem_put, ih]
      constructor
      · rintro (rfl | ⟨⟨hd, hpd⟩, hne⟩)
        · exact ⟨.inl rfl, ha⟩
        · exact ⟨.inr ⟨hd, hne⟩, hpd⟩
      · rintro ⟨rfl | ⟨hd, hne⟩, hpd⟩
        · exact .inl rfl
        · exact .inr ⟨⟨hd, hpd⟩, hne⟩
    · rw [if_neg ha, ih]
      constructor
      · rintro ⟨hd, hpd⟩
        -- one of another kind is for another thing
        refine ⟨.inr ⟨hd, Bool.eq_false_iff.mpr fun hsame => ha ?_⟩, hpd⟩
        rw [hp a d hsame, hpd]
      · rintro ⟨rfl | ⟨hd, -⟩, hpd⟩
        · exact absurd hpd ha
        · exact ⟨hd, hpd⟩

/-- There are no two directives for the same thing. -/
def Distinct (ds : List Directive) : Prop := ds.Pairwise fun a b => a.concernsSame b = false

theorem distinct_table (p : Directive → Bool) (ds : List Directive) : Distinct (table p ds) := by
  induction ds using List.reverseRecOn with
  | nil => exact List.Pairwise.nil
  | append_singleton ds a ih =>
    rw [table_concat]
    split
    · refine List.pairwise_append.mpr ⟨ih.filter _, List.pairwise_singleton .., fun b hb c hc => ?_⟩
      cases List.mem_singleton.mp hc
      simpa using (List.mem_filter.mp hb).2
    · exact ih

/-- A filter holds the directives of which `P` is so. -/
structure Holds (f : Filter) (P : Directive → Prop) : Prop where
  mem : ∀ d, d ∈ f.directives ↔ P d
  /-- They are looked for among those for records if they are for records, and in the same way for spans. -/
  placed : ∀ d, P d → (d ∈ f.records ↔ d.isForRecords = true) ∧ (d ∈ f.spans ↔ d.isForSpans = true)
  records : Distinct f.records
  spans : Distinct f.spans

theorem Holds.congr {f : Filter} {P Q : Directive → Prop} (h : Holds f P) (hPQ : ∀ d, P d ↔ Q d) : Holds f Q where
  mem d := (h.mem d).trans (hPQ d)
  placed d hd := h.placed d ((hPQ d).mpr hd)
  records := h.records
  spans := h.spans

theorem holds_foldl_add (ds : List Directive) : Holds (ds.foldl add ⟨[], []⟩) (InForce ds) := by
  rw [foldl_add]
  have hrecords {d : Directive} : d ∈ table (·.isForRecords) ds ↔ InForce ds d ∧ d.isForRecords = true :=
    mem_table fun _ _ h => Directive.isForRecords_congr h
  have hspans {d : Directive} : d ∈ table (·.isForSpans) ds ↔ InForce ds d ∧ d.isForSpans = true :=
    mem_table fun _ _ h => Directive.isForSpans_congr h
  refine ⟨fun d => ?_, fun d hd => ?_, distinct_table _ ds, distinct_table _ ds⟩
  · rw [directives, List.mem_append, hrecords, hspans, ← and_or_left]
    exact and_iff_left d.isForRecords_or_isForSpans
  · exact ⟨hrecords.trans (and_iff_right hd), hspans.trans (and_iff_right hd)⟩

theorem holds_only (t : Threshold) : Holds (only t) (· = .forAll t) :=
  (holds_foldl_add [.forAll t]).congr fun _ => inForce_singleton

/-- **A filter holds the directives in force**, or `error` if there is none. -/
theorem holds_ofDirectives (ds : List Directive) :
    Holds (ofDirectives ds) fun d => InForce ds d ∨ ds = [] ∧ d = .forAll (.upTo .error) := by
  cases ds with
  | nil => exact (holds_only _).congr fun d => by simp [not_inForce_nil]
  | cons a ds => exact (holds_foldl_add (a :: ds)).congr fun d => by simp

/-! ### The configuration and the environment -/

/-- A directive counts for a configured list of directives and one of the environment, either of which is
missing if its text is bad: those of the environment override those of the configuration, one that is there
alone counts alone, and `info` counts where there is none. -/
def Counts : Option (List Directive) → Option (List Directive) → Directive → Prop
  | some ds, some es, d => Overridden ds es d
  | none, some es, d => InForce es d
  | some ds, none, d => InForce ds d
  | none, none, d => d = .forAll (.upTo .info)

theorem nonblank_environment (environment : Option String) :
    ((environment.map trimBlanks).filter (· ≠ "")).bind directives? = environmentDirectives? environment := by
  cases environment with
  | none => rfl
  | some text =>
    have hblank : trimBlanks text = "" ↔ text.toList.all isBlank = true := by
      rw [trimBlanks_eq_empty_iff, List.all_eq_true]
    rw [Option.map_some, environmentDirectives?, Option.bind_some]
    by_cases h : text.toList.all isBlank = true
    · rw [if_pos h, hblank.mpr h]
      rfl
    · have hgood : (some (trimBlanks text)).filter (· ≠ "") = some (trimBlanks text) :=
        if_pos (decide_eq_true (mt hblank.mp h))
      rw [if_neg h, hgood, Option.bind_some]

/-- The filter that counts, by the directives of both texts. -/
theorem effective_eq (level : String) (environment : Option String) : effective level environment =
    match directives? (normalised level), environmentDirectives? environment with
    | some ds, some es => ofDirectives (ds ++ es)
    | none, some es => ofDirectives es
    | some ds, none => ofDirectives ds
    | none, none => standard := by
  unfold effective
  rw [← nonblank_environment]
  cases (environment.map trimBlanks).filter (· ≠ "") with
  | none => cases hl : directives? (normalised level) <;> simp [parse?_eq, hl]
  | some text =>
    cases hl : directives? (normalised level) <;> cases he : directives? text <;>
      simp [parse?_eq, directives?_comma, hl, he]

/-- **The environment refines the configuration, and a bad text hides no good one.** Where no directive counts,
since the texts that are good hold nothing but commas, `error` does. -/
theorem effective_directives (level : String) (environment : Option String) :
    Holds (effective level environment) fun d =>
      Counts (directives? (normalised level)) (environmentDirectives? environment) d ∨
        (∀ d', ¬ Counts (directives? (normalised level)) (environmentDirectives? environment) d') ∧
          d = .forAll (.upTo .error) := by
  have hnone (ds : List Directive) : ds = [] ↔ ∀ d, ¬ InForce ds d :=
    ⟨fun h d => h ▸ not_inForce_nil, fun h => by_contra fun hne => (exists_inForce hne).elim h⟩
  rw [effective_eq]
  cases directives? (normalised level) <;> cases environmentDirectives? environment
  · exact (holds_only _).congr fun d => by simp [Counts]
  · exact (holds_ofDirectives _).congr fun d => by rw [hnone]; rfl
  · exact (holds_ofDirectives _).congr fun d => by rw [hnone]; rfl
  · exact (holds_ofDirectives _).congr fun d => by simp only [hnone, inForce_append]; rfl

/-- Texts of commas alone have no directives, but the filter has one. Nor does the filter that such a text
gives alone override the other one: it has a directive for everything, and the other one stays all the same. -/
theorem error_of_commas :
    (¬ ∀ d, d ∈ (effective "," none).directives ↔
      Counts (directives? (normalised ",")) (environmentDirectives? none) d) ∧
    (parse? "info").map directives = some [.forAll (.upTo .info)] ∧
    (parse? ",").map directives = some [.forAll (.upTo .error)] ∧
    (effective "info" (some ",")).directives = [.forAll (.upTo .info)] := by
  refine ⟨fun h => ?_, by decide +kernel, by decide +kernel, by decide +kernel⟩
  have hmem : Directive.forAll (.upTo .error) ∈ (effective "," none).directives := by decide +kernel
  have hnone : directives? (normalised ",") = some [] := by decide +kernel
  have hcounts := (h _).mp hmem
  rw [hnone] at hcounts
  exact not_inForce_nil hcounts

example : (effective " WARNING " (some "a=debug,info,a=off")).directives.map (·.text) = ["info", "a=off"] := by
  decide +kernel

end Filter
end DebugHost.Log
