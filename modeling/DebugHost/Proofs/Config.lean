import DebugHost.Config.Reader
import DebugHost.Proofs.Toml.Names

/-! # What a configuration is read from

The configuration that is read from a document of tables is the default one with the settings that are
given in place of theirs (`read_tables`). The settings are listed here once, each with its key, the kind of
value it takes and its value in a configuration; a section of the reader is checked against the list of its
settings (`Describes`), and everything else is proved from the lists. -/

namespace DebugHost.Config

open Toml Record

variable {α β : Type}

/-! ### Settings -/

/-- What is given for a setting. -/
inductive Kind where
  | text
  | truth
  /-- A whole number from zero to below two to the `bits`-th. -/
  | word (bits : Nat)

/-- Whether a value is of a kind, and in its range. -/
def Kind.Admits : Kind → Value → Prop
  | .text, .str _ => True
  | .truth, .bool _ => True
  | .word bits, .int n => 0 ≤ n ∧ n < (Nat.pow 2 bits : Nat)
  | _, _ => False

/-- A setting of an `α`. -/
structure Setting (α : Type) where
  /-- The name under which it is given. -/
  key : String
  /-- What is given for it. -/
  kind : Kind
  /-- What would be given for the value it has, if it has one. -/
  value : α → Option Value

/-- A setting of a part is one of the whole. -/
def Setting.within (part : β → α) (s : Setting α) : Setting β :=
  ⟨s.key, s.kind, fun c => s.value (part c)⟩

/-- The settings of the log. -/
def loggingSettings : List (Setting LoggingConfig) :=
  [⟨"level", .text, fun c => some (.str c.level)⟩,
    ⟨"json", .truth, fun c => some (.bool c.json)⟩,
    ⟨"stderr", .truth, fun c => some (.bool c.stderr)⟩,
    ⟨"file", .text, fun c => c.file.map fun p => .str p.text⟩,
    ⟨"include_backtrace", .truth, fun c => some (.bool c.includeBacktrace)⟩,
    ⟨"buffer_lines", .word 64, fun c => some (.int c.bufferLines)⟩]

/-- The settings of the interpreter. -/
def interpreterSettings : List (Setting InterpreterConfig) :=
  [⟨"python", .text, fun c => c.python.map fun p => .str p.text⟩,
    ⟨"fallback_python", .text, fun c => some (.str c.fallbackPython.text)⟩,
    ⟨"venv_dir", .text, fun c => some (.str c.venvDir.text)⟩,
    ⟨"package_runner", .text, fun c => some (.str c.packageRunner.text)⟩,
    ⟨"stop_grace_ms", .word 64, fun c => some (.int c.stopGraceMs)⟩]

/-- The settings of the debug adapter. -/
def debugSettings : List (Setting DebugConfig) :=
  [⟨"adapter_module", .text, fun c => some (.str c.adapterModule)⟩,
    ⟨"host", .text, fun c => some (.str c.host)⟩,
    ⟨"port", .word 16, fun c => c.port.map fun n : Nat => .int n⟩,
    ⟨"connect_attempts", .word 32, fun c => some (.int c.connectAttempts)⟩,
    ⟨"connect_interval_ms", .word 64, fun c => some (.int c.connectIntervalMs)⟩,
    ⟨"request_timeout_ms", .word 64, fun c => some (.int c.requestTimeoutMs)⟩,
    ⟨"just_my_code", .truth, fun c => some (.bool c.justMyCode)⟩]

/-- The sections with their settings. -/
def parts : List (String × List (Setting Config)) :=
  [("logging", loggingSettings.map (.within (·.logging))),
    ("interpreter", interpreterSettings.map (.within (·.interpreter))),
    ("debug", debugSettings.map (.within (·.debug)))]

/-! ### Reading a setting -/

/-- A reader reads the values of a kind, and only them: each as the `x` for which it would be given. -/
class Reads (kind : outParam Kind) (given : outParam (α → Option Value)) (read : Toml.Field α) :
    Prop where
  injective : Function.Injective given
  total : ∀ {v}, kind.Admits v → ∃ x, read v = .ok x
  eq_ok : ∀ {v x}, read v = .ok x ↔ kind.Admits v ∧ given x = some v

instance reads_string : Reads .text (fun s => some (.str s)) Field.string where
  injective s s' h := by simpa using h
  total {v} h := by
    cases v with
    | str s => exact ⟨s, rfl⟩
    | _ => exact h.elim
  eq_ok {v x} := by cases v <;> simp [Field.string, Kind.Admits, Value.mismatch, eq_comm]

instance reads_path : Reads .text (fun p => some (.str p.text)) Field.path where
  injective s s' h := by
    cases s
    cases s'
    simpa using h
  total {v} h := by
    cases v with
    | str s => exact ⟨⟨s⟩, rfl⟩
    | _ => exact h.elim
  eq_ok {v x} := by
    cases x
    cases v <;> simp [Field.path, Kind.Admits, Value.mismatch, eq_comm]

instance reads_bool : Reads .truth (fun b => some (.bool b)) Field.bool where
  injective s s' h := by simpa using h
  total {v} h := by
    cases v with
    | bool b => exact ⟨b, rfl⟩
    | _ => exact h.elim
  eq_ok {v x} := by cases v <;> simp [Field.bool, Kind.Admits, Value.mismatch, eq_comm]

instance reads_word (name : String) (bits : Nat) :
    Reads (.word bits) (fun n : Nat => some (.int n)) (Field.word name bits) where
  injective s s' h := Int.ofNat.inj (Value.int.inj (Option.some.inj h))
  total {v} h := by
    cases v with
    | int n => exact ⟨n.toNat, if_pos h⟩
    | _ => exact h.elim
  eq_ok {v x} := by
    cases v with
    | int n =>
      change (if 0 ≤ n ∧ n < (Nat.pow 2 bits : Nat) then Except.ok n.toNat else _) = _ ↔
        (0 ≤ n ∧ n < (Nat.pow 2 bits : Nat)) ∧ _
      split
      · next hn =>
        have hx : n.toNat = x ↔ (x : Int) = n := by omega
        simp only [Except.ok.injEq, Option.some.injEq, Value.int.injEq, hn, hx, and_self, true_and]
      · next hn => simp only [reduceCtorEq, hn, false_and]
    | _ => simp [Field.word, Kind.Admits, Value.mismatch]

instance reads_given {kind : Kind} {given : α → Value} {read : Toml.Field α}
    [h : Reads kind (fun x => some (given x)) read] :
    Reads kind (fun x => x.map given) (Field.given read) where
  injective := Option.map_injective fun x y hxy => h.injective (congrArg some hxy)
  total hv := by
    obtain ⟨x, hx⟩ := h.total hv
    exact ⟨some x, map_eq_ok.mpr ⟨x, hx, rfl⟩⟩
  eq_ok {v x} := by
    refine map_eq_ok.trans ?_
    constructor
    · rintro ⟨x, hx, rfl⟩
      exact h.eq_ok.mp hx
    · rintro ⟨hv, hx⟩
      obtain ⟨x, rfl, hx⟩ := Option.map_eq_some_iff.mp hx
      exact ⟨x, h.eq_ok.mpr ⟨hv, hx⟩, rfl⟩

/-- Values for which the same would be given are the same. -/
theorem value_inj {kind : Kind} {given : α → Option Value} (read : Toml.Field α)
    [h : Reads kind given read] {x y : α} : given x = given y ↔ x = y :=
  h.injective.eq_iff

/-- A setting is built from what is given if that is of its kind, and is what it was given, or the default. -/
theorem build_setting {kind : Kind} {given : α → Option Value} {read : Toml.Field α}
    [h : Reads kind given read] {key : String} {d x : α} {get : String → Option Value} :
    (defaulted key d read).build get = .ok x ↔
      (∀ v, get key = some v → kind.Admits v) ∧ given x = (get key).or (given d) := by
  rw [build_defaulted]
  cases get key with
  | none => simp [h.injective.eq_iff]
  | some v => simp [h.eq_ok]

theorem exists_build_setting {kind : Kind} {given : α → Option Value} {read : Toml.Field α}
    [h : Reads kind given read] {key : String} {d : α} {get : String → Option Value} :
    (∃ x, (defaulted key d read).build get = .ok x) ↔ ∀ v, get key = some v → kind.Admits v := by
  simp only [build_setting]
  cases hv : get key with
  | none => simp
  | some v =>
    constructor
    · rintro ⟨x, hadmits, -⟩
      exact hadmits
    · intro hadmits
      obtain ⟨x, hx⟩ := h.total (hadmits v rfl)
      exact ⟨x, hadmits, (h.eq_ok.mp hx).2⟩

/-! ### Reading a section -/

/-- Some settings are the fields of a record: what is built has the values that are given and otherwise
those of `d`, and the settings tell two structures from each other. -/
structure Describes (settings : List (Setting α)) (d : α) (r : Record Value α) : Prop where
  exact : r.Exact
  names : r.names = settings.map (·.key)
  nodup : (settings.map (·.key)).Nodup
  determined : ∀ {a b}, (∀ s ∈ settings, s.value a = s.value b) → a = b
  total : ∀ {get}, (∃ a, r.build get = .ok a) ↔
    ∀ s ∈ settings, ∀ v, get s.key = some v → s.kind.Admits v
  value : ∀ {get}, ∀ a, r.build get = .ok a →
    ∀ s ∈ settings, s.value a = (get s.key).or (s.value d)

theorem describes_logging : Describes loggingSettings {} loggingSection where
  exact := by
    unfold loggingSection
    infer_instance
  names := rfl
  nodup := by decide
  determined {a b} h := by
    cases a
    cases b
    simp only [loggingSettings, List.forall_mem_cons, value_inj Field.string,
      value_inj Field.bool, value_inj (Field.given Field.path),
      value_inj (Field.word "u64" 64)] at h
    simp [h]
  total {get} := by
    simp only [loggingSection, exists_build_seq, exists_build_map, exists_build_setting]
    simp [loggingSettings, and_assoc]
  value {get} := by
    simp only [loggingSection, forall_build_seq, forall_build_map, build_setting]
    intro level hlevel json hjson stderr hstderr file hfile backtrace hbacktrace lines hlines
    simp only [loggingSettings, List.forall_mem_cons]
    exact ⟨hlevel.2, hjson.2, hstderr.2, hfile.2, hbacktrace.2, hlines.2, List.forall_mem_nil _⟩

theorem describes_interpreter : Describes interpreterSettings {} interpreterSection where
  exact := by
    unfold interpreterSection
    infer_instance
  names := rfl
  nodup := by decide
  determined {a b} h := by
    cases a
    cases b
    simp only [interpreterSettings, List.forall_mem_cons, value_inj Field.path,
      value_inj (Field.given Field.path), value_inj (Field.word "u64" 64)] at h
    simp [h]
  total {get} := by
    simp only [interpreterSection, exists_build_seq, exists_build_map, exists_build_setting]
    simp [interpreterSettings, and_assoc]
  value {get} := by
    simp only [interpreterSection, forall_build_seq, forall_build_map, build_setting]
    intro python hpython fallback hfallback venv hvenv runner hrunner grace hgrace
    simp only [interpreterSettings, List.forall_mem_cons]
    exact ⟨hpython.2, hfallback.2, hvenv.2, hrunner.2, hgrace.2, List.forall_mem_nil _⟩

theorem describes_debug : Describes debugSettings {} debugSection where
  exact := by
    unfold debugSection
    infer_instance
  names := rfl
  nodup := by decide
  determined {a b} h := by
    cases a
    cases b
    simp only [debugSettings, List.forall_mem_cons, value_inj Field.string,
      value_inj Field.bool, value_inj (Field.given (Field.word "u16" 16)),
      value_inj (Field.word "u64" 64)] at h
    simp [h]
  total {get} := by
    simp only [debugSection, exists_build_seq, exists_build_map, exists_build_setting]
    simp [debugSettings, and_assoc]
  value {get} := by
    simp only [debugSection, forall_build_seq, forall_build_map, build_setting]
    intro module hmodule host hhost port hport attempts hattempts interval hinterval timeout htimeout
      mine hmine
    simp only [debugSettings, List.forall_mem_cons]
    exact ⟨hmodule.2, hhost.2, hport.2, hattempts.2, hinterval.2, htimeout.2, hmine.2,
      List.forall_mem_nil _⟩

/-! ### Reading a table -/

section

variable {settings : List (Setting α)} {d : α} {r : Record Value α} {name part : String} {o : Origin}
  {keys ms : Members}

/-- Members of which each gives one of the settings a value of its kind. -/
def Gives (settings : List (Setting α)) (keys : Members) : Prop :=
  ∀ k ∈ keys, ∃ s ∈ settings, s.key = k.1 ∧ s.kind.Admits k.2

theorem exists_record (h : Describes settings d r) (hkeys : (names keys).Nodup) :
    (∃ a, Field.record name r (.table o keys) = .ok a) ↔ Gives settings keys := by
  have := h.exact
  have hknown : (known r.names keys).Nodup := hkeys.filter _
  rw [Gives, forall_members h.nodup hkeys, ← h.names]
  simp only [Field.record, ofMembers_eq_ok, exists_and_left, h.total, hknown, true_and, forall_const]

theorem record_value (h : Describes settings d r) {a : α}
    (ha : Field.record name r (.table o keys) = .ok a) :
    ∀ s ∈ settings, s.value a = (lookup? s.key keys).or (s.value d) :=
  h.value a (ofMembers_ok ha)

/-! ### Reading a document -/

/-- What is given for a setting of the section `part`. -/
def given (ms : Members) (part key : String) : Option Value :=
  (lookup? part ms).bind fun v => lookup? key v.members

/-- A document of tables alone. -/
def OfTables (ms : Members) : Prop := ∀ m ∈ ms, ∃ o keys, m.2 = .table o keys

theorem exists_part (h : Describes settings d r) (hms : AllNamed ms) (ht : OfTables ms) :
    (∃ a, (defaulted part d (Field.record name r)).build (find ms) = .ok a) ↔
      ∀ v, find ms part = some v → Gives settings v.members := by
  simp only [build_defaulted]
  cases hv : find ms part with
  | none => simp
  | some v =>
    have hmem := mem_of_find hv
    obtain ⟨o, keys, rfl⟩ : ∃ o keys, v = .table o keys := ht _ hmem
    simp [exists_record h (hms.values _ hmem), Value.members]

theorem part_value (h : Describes settings d r) (ht : OfTables ms) {a : α}
    (ha : (defaulted part d (Field.record name r)).build (find ms) = .ok a) :
    ∀ s ∈ settings, s.value a = (given ms part s.key).or (s.value d) := by
  intro s hs
  rcases build_defaulted.mp ha with ⟨hv, rfl⟩ | ⟨v, hv, hread⟩
  · rw [show given ms part s.key = none from congrArg (Option.bind · _) hv]
    rfl
  · obtain ⟨o, keys, rfl⟩ : ∃ o keys, v = .table o keys := ht _ (mem_of_find hv)
    rw [show given ms part s.key = lookup? s.key keys from congrArg (Option.bind · _) hv]
    exact record_value h hread s hs

/-- A document of sections with their settings. -/
def Admitted (ms : Members) : Prop :=
  ∀ m ∈ ms, ∃ p ∈ parts, p.1 = m.1 ∧ Gives p.2 m.2.members

theorem gives_within {part : β → α} :
    Gives (settings.map (.within part)) keys ↔ Gives settings keys := by
  simp only [Gives, List.mem_map, exists_exists_and_eq_and]
  rfl

instance : Config.record.Exact := by
  unfold Config.record
  infer_instance

theorem read_eq_ok {text : String} (h : Toml.read? text = some ms) {c : Config} :
    Config.read text = .ok c ↔
      (∀ m ∈ ms, m.1 ∈ parts.map (·.1)) ∧ Config.record.build (find ms) = .ok c := by
  have hknown : (known Config.record.names ms).Nodup := (allNamed_read h).nodup.filter _
  rw [Config.read, h, mapError_eq_ok, Config.ofTable, ofMembers_eq_ok]
  simp only [hknown, true_and, forall_const]
  rfl

theorem exists_read {text : String} (h : Toml.read? text = some ms) (ht : OfTables ms) :
    (∃ c, Config.read text = .ok c) ↔ Admitted ms := by
  have hms := allNamed_read h
  have hparts : (parts.map (·.1)).Nodup := by decide
  rw [Admitted, forall_members (P := fun p v => Gives p.2 v.members) hparts hms.nodup]
  simp only [read_eq_ok h, exists_and_left, Config.record, exists_build_seq, exists_build_map,
    exists_part describes_logging hms ht, exists_part describes_interpreter hms ht,
    exists_part describes_debug hms ht]
  simp only [parts, List.forall_mem_cons, List.not_mem_nil, false_imp_iff, forall_const, and_true,
    gives_within, and_assoc]

theorem read_value {text : String} (h : Toml.read? text = some ms) (ht : OfTables ms) :
    ∀ c, Config.read text = .ok c →
      ∀ p ∈ parts, ∀ s ∈ p.2, s.value c = (given ms p.1 s.key).or (s.value {}) := by
  have hvalue : ∀ c, Config.record.build (find ms) = .ok c →
      ∀ p ∈ parts, ∀ s ∈ p.2, s.value c = (given ms p.1 s.key).or (s.value {}) := by
    simp only [Config.record, forall_build_seq, forall_build_map]
    intro logging hlogging interpreter hinterpreter debug hdebug
    simp only [parts, List.forall_mem_cons, List.forall_mem_map]
    exact ⟨part_value describes_logging ht hlogging, part_value describes_interpreter ht hinterpreter,
      part_value describes_debug ht hdebug, List.forall_mem_nil _⟩
  exact fun c hc => hvalue c ((read_eq_ok h).mp hc).2

theorem determined {c c' : Config} (h : ∀ p ∈ parts, ∀ s ∈ p.2, s.value c = s.value c') : c = c' := by
  simp only [parts, List.forall_mem_cons, List.forall_mem_map] at h
  obtain ⟨hlogging, hinterpreter, hdebug, -⟩ := h
  have h₁ : c.logging = c'.logging := describes_logging.determined hlogging
  have h₂ : c.interpreter = c'.interpreter := describes_interpreter.determined hinterpreter
  have h₃ : c.debug = c'.debug := describes_debug.determined hdebug
  cases c
  cases c'
  simp_all

end

/-! ### Other documents with the same settings -/

/-- The same sections in any order, each with the same members in any order. -/
def Reordered (ms ms' : Members) : Prop :=
  ∃ between, between.Perm ms ∧
    List.Forall₂ (fun m m' => m'.1 = m.1 ∧ m'.2.members.Perm m.2.members) between ms'

variable {ms ms' : Members} {part : String}

theorem given_reordered (hms : AllNamed ms) (h : Reordered ms ms') (part key : String) :
    given ms' part key = given ms part key := by
  obtain ⟨between, hp, hs⟩ := h
  have hrel : Option.Rel _ (lookup? part between) (lookup? part ms') :=
    find_related (R := fun _ v v' => v'.members.Perm v.members) hs part
  rw [lookup?_perm hp hms.nodup] at hrel
  unfold given
  generalize hv : lookup? part ms = o, lookup? part ms' = o' at hrel
  cases hrel with
  | none => rfl
  | some hperm => exact lookup?_perm hperm (names_members (hms.values _ (mem_of_find hv)))

theorem gives_perm {settings : List (Setting α)} {keys keys' : Members} (h : keys'.Perm keys) :
    Gives settings keys' ↔ Gives settings keys := by
  simp only [Gives, h.mem_iff]

theorem admitted_reordered (h : Reordered ms ms') : Admitted ms' ↔ Admitted ms := by
  obtain ⟨between, hp, hs⟩ := h
  have hbetween : Admitted between ↔ Admitted ms := by
    simp only [Admitted, hp.mem_iff]
  rw [← hbetween]
  clear hp hbetween
  unfold Admitted
  induction hs with
  | nil => rfl
  | cons hm _ ih =>
    simp only [List.forall_mem_cons, ih, hm.1, gives_perm hm.2]

theorem given_empty {o : Origin} (hms' : AllNamed ms') (h : ms'.Perm ((part, .table o []) :: ms))
    (part' key : String) : given ms' part' key = given ms part' key := by
  have hnames : (names ((part, .table o []) :: ms)).Nodup := (h.map _).nodup_iff.mp hms'.nodup
  have hlookup : lookup? part' ((part, .table o []) :: ms) =
      if part = part' then some (.table o []) else lookup? part' ms := find_cons _ ms part'
  unfold given
  rw [lookup?_perm h hnames, hlookup]
  by_cases hpart : part = part'
  · have hnone : lookup? part' ms = none := find_eq_none.mpr (hpart ▸ (List.nodup_cons.mp hnames).1)
    rw [if_pos hpart, hnone]
    rfl
  · rw [if_neg hpart]

theorem admitted_empty {o : Origin} (hpart : part ∈ parts.map (·.1))
    (h : ms'.Perm ((part, .table o []) :: ms)) : Admitted ms' ↔ Admitted ms := by
  obtain ⟨p, hp, hname⟩ := List.mem_map.mp hpart
  simp only [Admitted, h.mem_iff, List.forall_mem_cons]
  exact and_iff_right ⟨p, hp, hname, List.forall_mem_nil _⟩

/-! ### Reading -/

variable {text text' : String}

/-- A configuration is read if the document is one of sections with their settings, and it is the one in
which every setting has the value that is given for it, or its default. -/
theorem read_iff (h : Toml.read? text = some ms) (ht : OfTables ms) {c : Config} :
    Config.read text = .ok c ↔
      Admitted ms ∧ ∀ p ∈ parts, ∀ s ∈ p.2, s.value c = (given ms p.1 s.key).or (s.value {}) := by
  constructor
  · exact fun hc => ⟨(exists_read h ht).mp ⟨c, hc⟩, read_value h ht c hc⟩
  · rintro ⟨hadmitted, hvalue⟩
    obtain ⟨c', hc'⟩ := (exists_read h ht).mpr hadmitted
    rwa [determined fun p hp s hs => (hvalue p hp s hs).trans (read_value h ht c' hc' p hp s hs).symm]

theorem read_congr (h : Toml.read? text = some ms) (h' : Toml.read? text' = some ms') (ht : OfTables ms)
    (ht' : OfTables ms') (hadmitted : Admitted ms' ↔ Admitted ms)
    (hgiven : ∀ part key, given ms' part key = given ms part key) (c : Config) :
    Config.read text' = .ok c ↔ Config.read text = .ok c := by
  simp only [read_iff h ht, read_iff h' ht', hadmitted, hgiven]

/-- **The configuration that is read from a document of tables.** There is one if the document consists of
sections with their settings and the values are of the kinds of the settings. It has the values that are
given, and the defaults of all other settings. It depends neither on the order of the sections and of
their members nor on sections without members. -/
theorem read_tables (h : Toml.read? text = some ms) (ht : OfTables ms) :
    ((∃ c, Config.read text = .ok c) ↔ Admitted ms) ∧
      (∀ c, Config.read text = .ok c ↔ Admitted ms ∧
        ∀ p ∈ parts, ∀ s ∈ p.2, s.value c = (given ms p.1 s.key).or (s.value {})) ∧
      (∀ text' ms', Toml.read? text' = some ms' → OfTables ms' → Reordered ms ms' →
        ∀ c, Config.read text' = .ok c ↔ Config.read text = .ok c) ∧
      ∀ text' ms', Toml.read? text' = some ms' →
        ∀ part ∈ parts.map (·.1), ∀ o, ms'.Perm ((part, .table o []) :: ms) →
          ∀ c, Config.read text' = .ok c ↔ Config.read text = .ok c := by
  refine ⟨exists_read h ht, fun c => read_iff h ht, ?_, ?_⟩
  · intro text' ms' h' ht' hr
    exact read_congr h h' ht ht' (admitted_reordered hr) (given_reordered (allNamed_read h) hr)
  · intro text' ms' h' part hpart o hp
    have ht' : OfTables ms' := fun m hm =>
      List.forall_mem_cons.mpr ⟨⟨o, [], rfl⟩, ht⟩ m (hp.mem_iff.mp hm)
    exact read_congr h h' ht ht' (admitted_empty hpart hp) (given_empty (allNamed_read h') hp)

/-- A document that gives one setting in each of two sections. -/
def portAndLevel : String := "[debug]\nport = 5678\n\n[logging]\nlevel = \"trace\"\n"

/-- Its tables. -/
def portAndLevelTables : Members :=
  [("debug", .table .header [("port", .int 5678)]),
    ("logging", .table .header [("level", .str "trace")])]

theorem read_portAndLevel :
    Toml.read? portAndLevel = some portAndLevelTables ∧ OfTables portAndLevelTables ∧
      Config.read portAndLevel =
        .ok { logging := { level := "trace" }, debug := { port := some 5678 } } := by
  have h : Toml.read? portAndLevel = some portAndLevelTables := by with_unfolding_all rfl
  have ht : OfTables portAndLevelTables := by simp [OfTables, portAndLevelTables]
  refine ⟨h, ht, ((read_tables h ht).2.1 _).mpr ⟨?_, ?_⟩⟩
  · simp [Admitted, portAndLevelTables, parts, Gives, Setting.within, Value.members, loggingSettings,
      debugSettings, Kind.Admits]
  · simp [portAndLevelTables, parts, Setting.within, loggingSettings, interpreterSettings, debugSettings,
      given, lookup?, Value.members]

end DebugHost.Config
