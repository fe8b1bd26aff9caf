import DebugHost.Text.Character
import DebugHost.Text.Letter

/-! # Regular expressions

Which texts are regular expressions: only their form is looked at. An expression is read from left to
right; what has to be known of the part that was read is how many groups are open, which names groups
have, and whether there is something that a sign of repetition can stand behind. Repetitions with counts
in braces are left out, and so are places at the edges of words. -/

namespace DebugHost.Text.Regular

/-! ### Escapes -/

/-- The character whose number is spelled by the next `n` characters. -/
def numbered (n : Nat) (cs : List Char) : Option (Option Char × List Char) :=
  if cs.length < n then none else (scalar? (cs.take n)).map fun c => (some c, cs.drop n)

/-- Whether a character stands for itself behind a backslash. -/
def isEscapable (c : Char) : Bool := c.toNat < 0x80 && !c.isAlphanum && c != '<' && c != '>'

/-- Reads what stands behind a backslash: the character that is meant, unless it is a class of
characters or one end of the text, and the rest. The ends of the text have no place in a class. -/
def escape (inClass : Bool) : List Char → Option (Option Char × List Char)
  | [] => none
  | 'x' :: cs => numbered 2 cs
  | 'u' :: cs => numbered 4 cs
  | 'U' :: cs => numbered 8 cs
  | 'a' :: cs => some (some '\x07', cs)
  | 'f' :: cs => some (some '\x0c', cs)
  | 'n' :: cs => some (some '\n', cs)
  | 'r' :: cs => some (some '\r', cs)
  | 't' :: cs => some (some '\t', cs)
  | 'v' :: cs => some (some '\x0b', cs)
  | 'p' :: cs => category cs
  | 'P' :: cs => category cs
  | c :: cs =>
    if c ∈ ['d', 'D', 's', 'S', 'w', 'W'] then some (none, cs)
    else if c = 'A' || c = 'z' then if inClass then none else some (none, cs)
    else if isEscapable c then some (some c, cs)
    else none
where
  /-- The letter of a general category. -/
  category : List Char → Option (Option Char × List Char)
    | [] => none
    | c :: cs => if c.toUpper ∈ ['C', 'L', 'M', 'N', 'P', 'S', 'Z'] then some (none, cs) else none

/-! ### Classes of characters -/

/-- The names of the classes of basic Latin characters. -/
def classNames : List String :=
  ["alnum", "alpha", "ascii", "blank", "cntrl", "digit", "graph", "lower", "print", "punct", "space",
    "upper", "word", "xdigit"]

/-- The rest behind a class given by its name, from behind its first bracket on. -/
def named? : List Char → Option (List Char)
  | ':' :: cs =>
    let cs := if cs.head? = some '^' then cs.drop 1 else cs
    let name := cs.takeWhile (· != ':')
    match cs.drop name.length with
    | ':' :: ']' :: rest => if String.ofList name ∈ classNames then some rest else none
    | _ => none
  | _ => none

/-- The rest behind the beginning of a class, from behind its bracket on: hyphens stand for themselves
there, and so does a closing bracket that is the first character. -/
def classBody (cs : List Char) : List Char :=
  let cs := if cs.head? = some '^' then cs.drop 1 else cs
  match cs with
  | ']' :: rest => rest
  | cs => cs.dropWhile (· = '-')

/-- A member of a class: the character, unless it is a class of its own, and the rest. -/
def member : List Char → Option (Option Char × List Char)
  | [] => none
  | '\\' :: cs => escape true cs
  | c :: cs => some (some c, cs)

/-- The rest behind a member or a range of members. The ends of a range are single characters, of which
the second is not before the first. -/
def range? (cs : List Char) : Option (List Char) := do
  let (first, rest) ← member cs
  match rest with
  | '-' :: c :: more =>
    if c = ']' || c = '-' then some rest
    else
      let (last, rest) ← member (c :: more)
      if (← first) ≤ (← last) then some rest else none
  | _ => some rest

/-- The rest behind `depth + 1` open classes, one in the other, read in at most `fuel` steps. -/
def classRest : Nat → Nat → List Char → Option (List Char)
  | 0, _, _ => none
  | fuel + 1, depth, cs =>
    match cs with
    | [] => none
    | '[' :: r =>
      match named? r with
      | some r => classRest fuel depth r
      | none => classRest fuel (depth + 1) (classBody r)
    | ']' :: r =>
      match depth with
      | 0 => some r
      | depth + 1 => classRest fuel depth r
    | '&' :: '&' :: r => classRest fuel depth r
    | '-' :: '-' :: r => classRest fuel depth r
    | '~' :: '~' :: r => classRest fuel depth r
    | cs => do classRest fuel depth (← range? cs)

/-! ### Groups -/

/-- Whether a name may have a character. -/
def isNameCharacter (c : Char) : Bool :=
  c = '_' || c = '.' || c = '[' || c = ']' || Letter.isLetterOrDigit c

/-- The name of a group and the rest behind it. -/
def groupName? (cs : List Char) : Option (List Char × List Char) :=
  let name := cs.takeWhile (· != '>')
  match name, cs.drop name.length with
  | c :: _, '>' :: rest =>
    if name.all isNameCharacter && c ∉ ['.', '[', ']'] && !c.isDigit then some (name, rest) else none
  | _, _ => none

/-- Whether characters are switches: each at most once, and something behind the hyphen that turns the
switches behind it off. -/
def areSwitches (cs : List Char) : Bool :=
  cs.all (· ∈ ['i', 'm', 's', 'U', 'u', 'R', 'x', '-']) && cs.all (cs.count · = 1) &&
    cs.getLast? != some '-'

/-- What an opening parenthesis begins. -/
inductive Opening where
  /-- A group, which has a name or none. -/
  | group (name : Option (List Char))
  /-- Nothing: it only sets switches. -/
  | switches
deriving DecidableEq, Repr

/-- Reads what follows an opening parenthesis. -/
def opening? : List Char → Option (Opening × List Char)
  | '?' :: 'P' :: '<' :: cs => do
    let (name, rest) ← groupName? cs
    return (.group name, rest)
  | '?' :: '<' :: cs => do
    let (name, rest) ← groupName? cs
    return (.group name, rest)
  | '?' :: cs =>
    let switches := cs.takeWhile fun c => c != ':' && c != ')'
    match cs.drop switches.length with
    | ':' :: rest => if areSwitches switches then some (.group none, rest) else none
    | ')' :: rest =>
      if areSwitches switches && !switches.isEmpty then some (.switches, rest) else none
    | _ => none
  | cs => some (.group none, cs)

/-! ### Expressions -/

/-- Whether the rest of an expression is in order, read in at most `fuel` steps: `depth` groups are
open, `names` are the names of groups, and `operand` tells whether a repetition may follow. -/
def isRest : Nat → Nat → List (List Char) → Bool → List Char → Bool
  | 0, _, _, _, _ => false
  | fuel + 1, depth, names, operand, cs =>
    match cs with
    | [] => depth = 0
    | '(' :: cs =>
      match opening? cs with
      | none => false
      | some (.switches, cs) => isRest fuel depth names false cs
      | some (.group none, cs) => isRest fuel (depth + 1) names false cs
      | some (.group (some n), cs) => n ∉ names && isRest fuel (depth + 1) (n :: names) false cs
    | ')' :: cs => depth ≠ 0 && isRest fuel (depth - 1) names true cs
    | '|' :: cs => isRest fuel depth names false cs
    | '[' :: cs =>
      match classRest (cs.length + 1) 0 (classBody cs) with
      | none => false
      | some cs => isRest fuel depth names true cs
    | '\\' :: cs =>
      match escape false cs with
      | none => false
      | some (_, cs) => isRest fuel depth names true cs
    | '{' :: _ => false
    | c :: cs =>
      if c ∈ ['?', '*', '+'] then
        operand && isRest fuel depth names true (if cs.head? = some '?' then cs.drop 1 else cs)
      else isRest fuel depth names true cs

/-- Whether a text is a regular expression. -/
def isExpression (s : String) : Bool := isRest (s.length + 1) 0 [] false s.toList

example : isExpression "(?i)^a*?[^]x-z&&[[:alpha:]]]|\\pL\\x41$" := by decide +kernel

example : ¬ isExpression "(a" ∧ ¬ isExpression "*a" ∧ ¬ isExpression "[z-a]" := by decide +kernel

end DebugHost.Text.Regular
