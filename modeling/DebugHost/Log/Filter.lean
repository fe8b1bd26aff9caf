import DebugHost.Log.Directive

/-! # Log filters

Which records are logged: a filter is a list of directives. Of the directives that concern a record the
most special one counts. Those for spans are kept apart, since records are outside of all spans. -/

namespace DebugHost.Log

open DebugHost.Text

/-- A filter: at most one directive for each thing. -/
structure Filter where
  /-- The directives for records by themselves. -/
  records : List Directive
  /-- The directives for spans. -/
  spans : List Directive
deriving DecidableEq, Repr

namespace Filter

/-- All directives. One that is for spans and for records by themselves is there twice. -/
def directives (f : Filter) : List Directive := f.records ++ f.spans

/-- Puts a directive in the place of an earlier one for the same thing. -/
def put (ds : List Directive) (d : Directive) : List Directive :=
  ds.filter (!·.concernsSame d) ++ [d]

/-- Adds a directive. -/
def add (f : Filter) (d : Directive) : Filter :=
  ⟨if d.isForRecords then put f.records d else f.records,
    if d.isForSpans then put f.spans d else f.spans⟩

/-- The filter with one directive, for all of the program. -/
def only (t : Threshold) : Filter := ⟨[⟨none, none, none, t⟩], []⟩

/-- Reads a filter: directives with commas between them. A single bad directive makes the whole filter
bad, and no directive at all stands for errors only. -/
def parse? (s : String) : Option Filter := do
  let ds ← ((pieces ',' s.toList).filter (· ≠ [])).mapM fun p => Directive.parse? (String.ofList p)
  return if ds.isEmpty then only (.upTo .error) else ds.foldl add ⟨[], []⟩

/-- The filter that lets everything through from `info` up. -/
def standard : Filter := only (.upTo .info)

/-- A level as it is written in the configuration, in the form in which directives are read. -/
def normalised (level : String) : String :=
  let s := trimBlanks level
  match lowerText s with
  | "" => "info"
  | "warning" => "warn"
  | "trace" => "trace"
  | "debug" => "debug"
  | "info" => "info"
  | "warn" => "warn"
  | "error" => "error"
  | _ => s

/-- The filter for a configured level and the directives of the environment. The environment refines
the configuration; if only one of the two is good it counts alone. -/
def effective (level : String) (environment : Option String) : Filter :=
  let level := normalised level
  let configured := (parse? level).getD standard
  match (environment.map trimBlanks).filter (· ≠ "") with
  | none => configured
  | some e => ((parse? (level ++ "," ++ e)).or (parse? e)).getD configured

/-- The directive that counts for a record. -/
def directiveFor? (f : Filter) (r : Record) : Option Directive :=
  f.records.foldl (fun best d =>
    if d.concerns r && (best.map d.precedes).getD true then some d else best) none

/-- Whether a record is logged. -/
def allows (f : Filter) (r : Record) : Bool :=
  ((f.directiveFor? r).map (·.threshold.allows r.level)).getD false

end Filter
end DebugHost.Log
