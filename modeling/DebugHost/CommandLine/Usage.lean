/-! # Options, positions and subcommands

How the words of a command line are taken apart. Every level, the program and each of its subcommands,
has options, positions, and perhaps subcommands. An option that takes a value waits for it in the next
word, and its value is looked at when the next option or position comes, or at the end; so of two faults
in a command line it is not always the first that is reported. -/

namespace DebugHost.CommandLine

/-- Why a command line is not accepted, or what is asked for in place of a command. -/
inductive UsageFault where
  | displayHelp
  | displayVersion
  /-- Help is shown since there are no words at all. -/
  | nothingGiven
  | missingSubcommand
  | invalidSubcommand
  | missingArgument
  | unknownArgument
  /-- A value is empty or not there. -/
  | invalidValue
  /-- An option is given twice. -/
  | conflict
  /-- A value is given to an option that takes none. -/
  | tooManyValues
  /-- A value is refused. -/
  | refusedValue
deriving DecidableEq, Repr

/-- The name of a fault in reports. -/
def UsageFault.label : UsageFault → String
  | .displayHelp => "DisplayHelp"
  | .displayVersion => "DisplayVersion"
  | .nothingGiven => "DisplayHelpOnMissingArgumentOrSubcommand"
  | .missingSubcommand => "MissingSubcommand"
  | .invalidSubcommand => "InvalidSubcommand"
  | .missingArgument => "MissingRequiredArgument"
  | .unknownArgument => "UnknownArgument"
  | .invalidValue => "InvalidValue"
  | .conflict => "ArgumentConflict"
  | .tooManyValues => "TooManyValues"
  | .refusedValue => "ValueValidation"

/-- Whether a fault is no mistake of the user: what was asked for has been shown. -/
def UsageFault.isDisplay : UsageFault → Bool
  | .displayHelp => true
  | .displayVersion => true
  | _ => false

/-- What an option does. -/
inductive OptionKind where
  /-- It is there or not. -/
  | flag
  /-- It has one value. -/
  | single
  /-- It may be given several times, each time with a value. -/
  | repeated
  | help
  | version
deriving DecidableEq, Repr

/-- An option. -/
structure OptionSpec where
  name : String
  short : Option Char := none
  kind : OptionKind
deriving DecidableEq, Repr

/-- Whether an option takes a value. -/
def OptionSpec.takesValue (o : OptionSpec) : Bool := o.kind = .single || o.kind = .repeated

/-- A level of the command line. -/
structure Level where
  options : List OptionSpec
  /-- The names of the positions; all of them must be given. -/
  positions : List String := []
  subcommands : List String := []
  /-- Refuses values of options and positions. -/
  check : String → String → Except UsageFault Unit

/-- How the reading of a level stands. -/
structure Progress where
  /-- The options and positions with their values so far, oldest first. -/
  given : List (String × String) := []
  /-- The option or position whose value has not been looked at, and the value if there is one. -/
  pending : Option (OptionSpec × Option String) := none
  /-- The option that waits for its value in the next word. -/
  awaiting : Bool := false
  /-- Number of positions that were given. -/
  filled : Nat := 0
  /-- Whether only positions may follow. -/
  trailing : Bool := false

/-- Takes in an option with its value. -/
def Level.accept (l : Level) (p : Progress) (o : OptionSpec) (value : Option String) :
    Except UsageFault Progress :=
  if o.kind = .help then .error .displayHelp
  else if o.kind = .version then .error .displayVersion
  else if o.takesValue && value.isNone then .error .invalidValue
  else if o.kind ≠ .repeated ∧ p.given.any (·.1 == o.name) then .error .conflict
  else
    match value with
    | none => .ok { p with given := p.given ++ [(o.name, "")] }
    | some v => (l.check o.name v).map fun _ => { p with given := p.given ++ [(o.name, v)] }

/-- Looks at the value that has not been looked at. -/
def Level.resolve (l : Level) (p : Progress) : Except UsageFault Progress :=
  match p.pending with
  | none => .ok p
  | some (o, v) => l.accept { p with pending := none } o v

/-- Takes in an option that stands in a word. -/
def Level.takeOption (l : Level) (p : Progress) (o : OptionSpec) (attached : Option String) :
    Except UsageFault Progress := do
  match o.takesValue, attached with
  | false, some _ => throw .tooManyValues
  | true, none =>
    let p ← l.resolve p
    return { p with pending := some (o, none), awaiting := true }
  | _, _ =>
    let p ← l.resolve p
    let p ← l.accept p o attached
    return { p with awaiting := false }

/-- The name and the attached value of a long option. -/
def splitLong (cs : List Char) : String × Option String :=
  (String.ofList (cs.takeWhile (· != '=')),
    match cs.dropWhile (· != '=') with
    | [] => none
    | _ :: v => some (String.ofList v))

/-- Takes in the letters of a word of short options. -/
def Level.takeShort (l : Level) (p : Progress) : List Char → Except UsageFault Progress
  | [] => .ok p
  | c :: rest =>
    match l.options.find? (·.short = some c) with
    | none => .error .unknownArgument
    | some o => do
      let p ← l.takeOption p o none
      l.takeShort p rest

/-- Takes in a word that is no option. -/
def Level.takePosition (l : Level) (p : Progress) (w : String) : Except UsageFault Progress :=
  match l.positions[p.filled]? with
  | some name => do
    let p ← l.resolve p
    return { p with pending := some (⟨name, none, .single⟩, some w), filled := p.filled + 1 }
  | none =>
    if l.positions.isEmpty ∧ ¬ (p.trailing ∧ w ∈ l.subcommands) then .error .invalidSubcommand
    else .error .unknownArgument

/-- What the words of a level lead to: the level is read to the end, or a subcommand follows. -/
inductive Stop where
  | done (p : Progress)
  | subcommand (p : Progress) (name : String) (rest : List String)

/-- Reads the words of a level. -/
def Level.read (l : Level) (p : Progress) : List String → Except UsageFault Stop
  | [] => .ok (.done p)
  | w :: rest =>
    if p.trailing then do l.read (← l.takePosition p w) rest
    else if !p.awaiting && w ∈ l.subcommands then .ok (.subcommand p w rest)
    else
      match w.toList with
      | ['-', '-'] => l.read { p with trailing := true } rest
      | '-' :: '-' :: cs =>
        let (name, attached) := splitLong cs
        match l.options.find? (·.name = name) with
        | none => .error .unknownArgument
        | some o => do l.read (← l.takeOption p o attached) rest
      | '-' :: c :: cs => do l.read (← l.takeShort p (c :: cs)) rest
      | _ =>
        if p.awaiting then
          let pending := p.pending.map fun (o, _) => (o, some w)
          l.read { p with pending := pending, awaiting := false } rest
        else do l.read (← l.takePosition p w) rest

/-- What was given at a level, after all of it has been looked at. -/
def Level.finish (l : Level) (p : Progress) (hasSubcommand : Bool) :
    Except UsageFault (List (String × String)) := do
  let p ← l.resolve p
  if !hasSubcommand && !l.subcommands.isEmpty then
    throw (if p.given.isEmpty then .nothingGiven else .missingSubcommand)
  if p.filled < l.positions.length then throw .missingArgument
  return p.given

end DebugHost.CommandLine
