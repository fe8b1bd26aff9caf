/-! # Options in front of operands

The commands of the shell take letters as options, in arguments that start with a dash; what follows
them are the operands. A command knows its letters as one text, where a colon stands behind every letter
that takes a value. `Operands.read` takes all options at once; `OptionPlace.step` takes one, and
remembers where the next one is. -/

namespace DebugHost.Shell

/-- What a command says of a letter that it does not know. -/
def illegalOption (c : Char) : String := "Illegal option -" ++ String.ofList [c]

/-- What a command says of a letter whose value is missing. -/
def noOptionValue (c : Char) : String := "No arg for -" ++ String.ofList [c] ++ " option"

/-- Whether a letter takes a value; `none` if the command does not know it. -/
def letterKind (c : Char) : List Char → Option Bool
  | [] => none
  | d :: ':' :: ds => if c = d then some true else letterKind c ds
  | d :: ds => if c = d then some false else letterKind c ds

/-- The arguments of a command: the letters in front, and the operands. -/
structure Operands where
  options : List Char := []
  rest : List String := []
deriving Repr, DecidableEq

namespace Operands

/-- Reads the letters of one argument. A value is what is left of the argument, or the next argument. -/
def readLetters (known : List Char) : List Char → List String → Except String Operands
  | [], args => .ok { rest := args }
  | c :: cs, args =>
    match letterKind c known with
    | none => .error (illegalOption c)
    | some false => do
      let o ← readLetters known cs args
      return { o with options := c :: o.options }
    | some true =>
      if !cs.isEmpty then .ok { options := [c], rest := args }
      else
        match args with
        | [] => .error (noOptionValue c)
        | _ :: args => .ok { options := [c], rest := args }

/-- Reads options argument by argument; every argument takes one step. -/
def readArguments (known : List Char) : Nat → List String → Except String Operands
  | 0, args => .ok { rest := args }
  | _, [] => .ok {}
  | fuel + 1, a :: args =>
    match a.toList with
    | ['-', '-'] => .ok { rest := args }
    | '-' :: c :: cs => do
      let front ← readLetters known (c :: cs) args
      let o ← readArguments known fuel front.rest
      return { o with options := front.options ++ o.options }
    | _ => .ok { rest := a :: args }

/-- Reads the options of a command that knows the letters `known`. -/
def read (known : List Char) (args : List String) : Except String Operands :=
  readArguments known args.length args

/-- The command behind the words of `command`, if it is to be run: options other than `p` ask about a
command instead. -/
def called : List String → Option (List String)
  | [] => none
  | a :: args =>
    match a.toList with
    | ['-', '-'] => if args.isEmpty then none else some args
    | '-' :: c :: cs => if (c :: cs).all (· = 'p') then called args else none
    | _ => some (a :: args)

end Operands

/-! ### One option at a time -/

/-- Where the next option is. -/
structure OptionPlace where
  /-- The number of the next argument. -/
  next : Nat := 1
  /-- How many characters of the argument before it are done, if it has more options. -/
  within : Option Nat := none
deriving Repr, DecidableEq, Inhabited

/-- What stands at a place. -/
inductive OptionStep where
  /-- No option. -/
  | ended
  /-- An option, and its value. -/
  | found (letter : Char) (value : String)
  /-- A letter that is not known or lacks its value: the sign for that, and what is said of it or the
  value that tells the letter. -/
  | fault (sign : Char) (told : Except String String)
deriving Repr

/-- Takes the option at a place of the arguments `args`. A colon in front of the letters keeps faults
from being told. -/
def OptionPlace.step (place : OptionPlace) (letters : List Char) (args : List String) :
    OptionStep × OptionPlace :=
  let isQuiet := letters.head? = some ':'
  let known := if isQuiet then letters.drop 1 else letters
  let textOf (n : Nat) : List Char := ((args[n - 1]?).map String.toList).getD []
  let left := match place.within with
    | some n => (textOf (place.next - 1)).drop n
    | none => []
  let (cs, next) : List Char × Nat :=
    if !left.isEmpty then (left, place.next)
    else
      match textOf place.next with
      | '-' :: c :: cs => (c :: cs, place.next + 1)
      | _ => ([], place.next)
  match cs with
  | [] => (.ended, { next })
  | c :: cs =>
    let here : OptionPlace := { next, within := some ((textOf (next - 1)).length - cs.length) }
    let letter := String.ofList [c]
    if left.isEmpty && c = '-' && cs.isEmpty then (.ended, { next })
    else
      match letterKind c known with
      | none => (.fault '?' (if isQuiet then .ok letter else .error (illegalOption c)), here)
      | some false => (.found c "", here)
      | some true =>
        if !cs.isEmpty then (.found c (String.ofList cs), { next })
        else
          match args[next - 1]? with
          | some value => (.found c value, { next := next + 1 })
          | none =>
            (if isQuiet then .fault ':' (.ok letter) else .fault '?' (.error (noOptionValue c)),
              { next })

end DebugHost.Shell
