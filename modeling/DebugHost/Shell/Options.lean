/-! # The options of the shell

Options are known by a letter, a name or both. They stand in front of the arguments of the shell itself
and of the command `set`; `Options.read` takes them from there. -/

namespace DebugHost.Shell

/-- What a row of arguments says about options. -/
structure Options where
  /-- The letters of the options that are on. -/
  on : List Char := []
  /-- Whether a script stands among the arguments. -/
  isCommand : Bool := false
  /-- The lists of all options that are asked for, in the form for readers or in that of commands. -/
  lists : List Bool := []
  /-- The arguments behind the options. -/
  rest : List String := []
  /-- Whether the arguments are set even if there are none. -/
  isClosed : Bool := false

namespace Options

/-- All options, in their order. -/
def all : List (Option Char × String) :=
  [(some 'e', "errexit"), (some 'f', "noglob"), (some 'I', "ignoreeof"), (some 'i', "interactive"),
    (some 'm', "monitor"), (some 'n', "noexec"), (some 's', "stdin"), (some 'x', "xtrace"),
    (some 'v', "verbose"), (some 'V', "vi"), (some 'E', "emacs"), (some 'C', "noclobber"),
    (some 'a', "allexport"), (some 'b', "notify"), (some 'u', "nounset"), (some 'p', "privileged"),
    (none, "nolog"), (none, "debug")]

/-- The letters as the shell tells them: the last option comes first. -/
def letters (on : List Char) : String :=
  String.ofList ((all.filterMap (·.1)).reverse.filter (on.contains ·))

/-- Turns an option on or off. Of the two editors at most one is on. -/
def set (o : Options) (isOn : Bool) (c : Char) : Options :=
  let rest := o.on.filter fun d => d ≠ c && !(isOn && ((c = 'V' && d = 'E') || (c = 'E' && d = 'V')))
  { o with on := if isOn then c :: rest else rest }

/-- Turns an option on or off by its letter. -/
def setLetter (o : Options) (isOn : Bool) (c : Char) : Except String Options :=
  if all.any (·.1 = some c) then .ok (o.set isOn c)
  else .error ("Illegal option -" ++ String.ofList [c])

/-- Turns an option on or off by its name. An option without a letter does nothing. -/
def setName (o : Options) (isOn : Bool) (name : String) : Except String Options :=
  match all.find? (·.2 = name) with
  | some (some c, _) => .ok (o.set isOn c)
  | some (none, _) => .ok o
  | none => .error ("Illegal option -o " ++ name)

/-- Reads the letters of one argument. An `o` takes its name from the arguments behind. -/
def readLetters (atStart isOn : Bool) : List Char → List String → Options →
    Except String (Options × List String)
  | [], args, o => .ok (o, args)
  | c :: cs, args, o =>
    if c = 'c' && atStart then readLetters atStart isOn cs args { o with isCommand := true }
    else if c = 'l' && atStart then readLetters atStart isOn cs args o
    else if c = 'o' then
      match args with
      | [] => readLetters atStart isOn cs [] { o with lists := o.lists ++ [isOn] }
      | name :: args => do readLetters atStart isOn cs args (← o.setName isOn name)
    else do readLetters atStart isOn cs args (← o.setLetter isOn c)

/-- Reads the options in front of arguments; every argument takes one step. -/
def readArguments (atStart : Bool) : Nat → List String → Options → Except String Options
  | 0, args, o => .ok { o with rest := args }
  | _, [], o => .ok o
  | fuel + 1, a :: args, o =>
    match a.toList with
    | ['-'] =>
      .ok { o with
        on := if atStart then o.on else o.on.filter fun c => c ≠ 'x' && c ≠ 'v'
        rest := args }
    | ['-', '-'] => .ok { o with rest := args, isClosed := true }
    | '-' :: cs => do
      let (o, args) ← readLetters atStart true cs args o
      readArguments atStart fuel args o
    | '+' :: cs => do
      let (o, args) ← readLetters atStart false cs args o
      readArguments atStart fuel args o
    | _ => .ok { o with rest := a :: args }

/-- Reads the options in front of the arguments of the shell (`atStart`) or of `set`, where the options
`on` are on already. -/
def read (atStart : Bool) (on : List Char) (args : List String) : Except String Options :=
  readArguments atStart args.length args { on }

/-- The list of all options, for readers or as commands that set them. -/
def list (o : Options) (forReaders : Bool) : String :=
  let isOn (letter : Option Char) : Bool := letter.any (o.on.contains ·)
  let pad (name : String) : String := name.pushn ' ' (16 - name.length)
  if forReaders then
    "Current option settings\n" ++ String.join (all.map fun (c, name) =>
      pad name ++ (if isOn c then "on" else "off") ++ "\n")
  else
    String.join (all.map fun (c, name) =>
      "set " ++ (if isOn c then "-o " else "+o ") ++ name ++ "\n")

end Options
end DebugHost.Shell
