/-! # Patterns

Patterns of the shell (`*`, `?`, `[…]`), and the basic regular expressions of the tools that work on
lines. Both are matched against texts as lists of characters. -/

namespace DebugHost.Shell

/-- A set of characters: ranges, or what is in none of them. -/
structure CharSet where
  negated : Bool
  ranges : List (Char × Char)
deriving Repr, DecidableEq

/-- Whether a character is in a set. -/
def CharSet.holds (s : CharSet) (c : Char) : Bool :=
  (s.ranges.any fun (a, b) => a ≤ c && c ≤ b) != s.negated

/-- The ranges of a named class of characters. -/
def CharSet.named : String → List (Char × Char)
  | "digit" => [('0', '9')]
  | "lower" => [('a', 'z')]
  | "upper" => [('A', 'Z')]
  | "alpha" => [('a', 'z'), ('A', 'Z')]
  | "alnum" => [('a', 'z'), ('A', 'Z'), ('0', '9')]
  | "blank" => [(' ', ' '), ('\t', '\t')]
  | "space" => [(' ', ' '), ('\t', '\r')]
  | "xdigit" => [('0', '9'), ('a', 'f'), ('A', 'F')]
  | "punct" => [('!', '/'), (':', '@'), ('[', '\x60'), ('\x7b', '~')]
  | _ => []

/-- Reads ranges up to the bracket that ends a set; `none` if there is no such bracket. The first
character is never the end. -/
def CharSet.rangesOf : Nat → Bool → List Char → Option (List (Char × Char) × List Char)
  | 0, _, _ => none
  | fuel + 1, first, cs =>
    match cs with
    | [] => none
    | ']' :: rest => if first then more fuel (']', ']') rest else some ([], rest)
    | '[' :: ':' :: rest =>
      let name := rest.takeWhile Char.isAlpha
      match rest.drop name.length with
      | ':' :: ']' :: rest =>
        (rangesOf fuel false rest).map fun (rs, r) => (named (String.ofList name) ++ rs, r)
      | _ => more fuel ('[', '[') (':' :: rest)
    | a :: '-' :: b :: rest =>
      if b = ']' then more fuel (a, a) ('-' :: b :: rest) else more fuel (a, b) rest
    | a :: rest => more fuel (a, a) rest
where
  more (fuel : Nat) (r : Char × Char) (rest : List Char) :
      Option (List (Char × Char) × List Char) :=
    (rangesOf fuel false rest).map fun (rs, rest) => (r :: rs, rest)

/-- Reads a set behind its opening bracket. -/
def CharSet.ofText (cs : List Char) : Option (CharSet × List Char) :=
  let (negated, cs) := match cs with
    | '!' :: r | '^' :: r => (true, r)
    | r => (false, r)
  (rangesOf (cs.length + 1) true cs).map fun (rs, rest) => (⟨negated, rs⟩, rest)

/-! ### Patterns of the shell -/

/-- A part of a pattern. -/
inductive Glob where
  | char (c : Char)
  | one
  | many
  | set (s : CharSet)
deriving Repr, DecidableEq

/-- Reads a pattern from characters, of which some are quoted. A bracket that opens no set stands for
itself. -/
def Glob.ofMarked : Nat → List (Char × Bool) → List Glob
  | 0, _ => []
  | _, [] => []
  | fuel + 1, (c, true) :: rest => .char c :: ofMarked fuel rest
  | fuel + 1, ('*', false) :: rest => .many :: ofMarked fuel rest
  | fuel + 1, ('?', false) :: rest => .one :: ofMarked fuel rest
  | fuel + 1, ('[', false) :: rest =>
    match CharSet.ofText (rest.map (·.1)) with
    | some (s, after) => .set s :: ofMarked fuel (rest.drop (rest.length - after.length))
    | none => .char '[' :: ofMarked fuel rest
  | fuel + 1, (c, false) :: rest => .char c :: ofMarked fuel rest

/-- Whether a character matches a part that stands for one character. -/
def Glob.takes : Glob → Char → Bool
  | .char d, c => c = d
  | .one, _ => true
  | .many, _ => false
  | .set s, c => s.holds c

/-- The ends of a text that are left where a pattern matches the front, the longest match last. -/
def Glob.ends : List Glob → List Char → List (List Char)
  | [], cs => [cs]
  | .many :: ps, cs => many ps cs
  | _ :: _, [] => []
  | p :: ps, c :: cs => if p.takes c then ends ps cs else []
where
  many (ps : List Glob) : List Char → List (List Char)
    | [] => ends ps []
    | c :: cs => ends ps (c :: cs) ++ many ps cs

/-- Whether a pattern matches a text. -/
def Glob.fits (ps : List Glob) (cs : List Char) : Bool := (ends ps cs).any List.isEmpty

/-- Whether a pattern has a part that is no character. -/
def Glob.isOpen (ps : List Glob) : Bool := ps.any fun
  | .char _ => false
  | _ => true

/-- Takes what a pattern matches away from the front of a text: the shortest match, or the longest. -/
def Glob.dropFront (longest : Bool) (ps : List Glob) (cs : List Char) : List Char :=
  let lengths := (List.range (cs.length + 1)).filter fun n => fits ps (cs.take n)
  match if longest then lengths.getLast? else lengths.head? with
  | some n => cs.drop n
  | none => cs

/-- Takes what a pattern matches away from the end of a text: the shortest match, or the longest. -/
def Glob.dropBack (longest : Bool) (ps : List Glob) (cs : List Char) : List Char :=
  let lengths := (List.range (cs.length + 1)).filter fun n => fits ps (cs.drop n)
  match if longest then lengths.head? else lengths.getLast? with
  | some n => cs.take n
  | none => cs

/-! ### Regular expressions -/

/-- A regular expression. -/
inductive Regex where
  | empty
  | char (s : CharSet)
  | start
  | stop
  | cat (r s : Regex)
  | either (r s : Regex)
  /-- Any number of times, at least `least` and at most once if `isOptional`. -/
  | repeated (r : Regex) (least : Nat) (isOptional : Bool)
  /-- A part whose match has a number. -/
  | group (n : Nat) (r : Regex)
deriving Repr

/-- What a match has found: the rest of the text, and the marked parts. -/
structure Found where
  before : Option Char
  rest : List Char
  groups : List (Nat × List Char)

/-- The ways to match an expression at a place, the preferred one first. A repetition takes as much as
it can first. -/
def Regex.run : Nat → Regex → Found → List Found
  | 0, _, _ => []
  | fuel + 1, r, f =>
    match r with
    | .empty => [f]
    | .char s =>
      match f.rest with
      | c :: cs => if s.holds c then [{ f with before := some c, rest := cs }] else []
      | [] => []
    | .start => if f.before.isNone then [f] else []
    | .stop => if f.rest.isEmpty then [f] else []
    | .cat r s => (run fuel r f).flatMap (run fuel s)
    | .either r s => run fuel r f ++ run fuel s f
    | .repeated r least isOptional =>
      let again := (run fuel r f).filter (·.rest.length < f.rest.length)
      let more := again.flatMap fun g =>
        if isOptional then [g] else run fuel (.repeated r (least - 1) isOptional) g
      if least = 0 then more ++ [f] else more
    | .group n r =>
      (run fuel r f).map fun g =>
        { g with groups := (n, f.rest.take (f.rest.length - g.rest.length)) :: g.groups }

/-- The set of all characters. -/
def CharSet.any : CharSet := ⟨true, []⟩

/-- The set of one character. -/
def CharSet.single (c : Char) : CharSet := ⟨false, [(c, c)]⟩

/-- Reads an expression up to the end or to what closes a group. `extended` tells whether brackets and
signs have their meaning without a backslash or with one. Groups are numbered from `next` on. -/
def Regex.parse (extended : Bool) :
    Nat → Bool → Nat → Regex → List Char → Regex × Nat × List Char
  | 0, _, next, acc, cs => (acc, next, cs)
  | fuel + 1, atStart, next, acc, cs =>
    let atom (r : Regex) (next : Nat) (rest : List Char) : Regex × Nat × List Char :=
      let (r, rest) := repetitions rest.length r rest
      parse extended fuel false next (.cat acc r) rest
    match cs with
    | [] => (acc, next, [])
    | '\\' :: c :: rest =>
      if !extended && c = '(' then opened fuel next acc rest
      else if !extended && c = ')' then (acc, next, cs)
      else if !extended && c = '|' then
        let (other, next, rest) := parse extended fuel true next .empty rest
        (.either acc other, next, rest)
      else if c = 'n' then atom (.char (.single '\n')) next rest
      else if c = 't' then atom (.char (.single '\t')) next rest
      else if c = 'd' then atom (.char ⟨false, [('0', '9')]⟩) next rest
      else atom (.char (.single c)) next rest
    | c :: rest =>
      if c = '.' then atom (.char .any) next rest
      else if c = '^' && (atStart || extended) then
        parse extended fuel true next (.cat acc .start) rest
      else if c = '$' && (extended || rest.isEmpty || rest.take 2 = ['\\', ')']) then
        parse extended fuel false next (.cat acc .stop) rest
      else if c = '[' then
        match CharSet.ofText rest with
        | some (s, rest) => atom (.char s) next rest
        | none => atom (.char (.single c)) next rest
      else if extended && c = '(' then opened fuel next acc rest
      else if extended && c = ')' then (acc, next, cs)
      else if extended && c = '|' then
        let (other, next, rest) := parse extended fuel true next .empty rest
        (.either acc other, next, rest)
      else atom (.char (.single c)) next rest
where
  opened (fuel next : Nat) (acc : Regex) (rest : List Char) : Regex × Nat × List Char :=
    let (inner, after, rest) := parse extended fuel true (next + 1) .empty rest
    let rest := rest.drop (if extended then 1 else 2)
    let (r, rest) := repetitions rest.length (.group next inner) rest
    parse extended fuel false after (.cat acc r) rest
  repetitions : Nat → Regex → List Char → Regex × List Char
    | 0, r, cs => (r, cs)
    | n + 1, r, cs =>
      match cs with
      | '*' :: rest => repetitions n (.repeated r 0 false) rest
      | '+' :: rest => if extended then repetitions n (.repeated r 1 false) rest else (r, cs)
      | '?' :: rest => if extended then repetitions n (.repeated r 0 true) rest else (r, cs)
      | '\\' :: '+' :: rest =>
        if extended then (r, cs) else repetitions n (.repeated r 1 false) rest
      | '\\' :: '?' :: rest =>
        if extended then (r, cs) else repetitions n (.repeated r 0 true) rest
      | _ => (r, cs)

/-- Reads an expression. -/
def Regex.ofText (extended : Bool) (s : String) : Regex :=
  (parse extended (2 * s.length + 2) true 1 .empty s.toList).1

/-- The longest of some matches, the first of those that are equally long. -/
def Regex.longest : List Found → Option Found
  | [] => none
  | f :: fs =>
    match longest fs with
    | some g => if g.rest.length < f.rest.length then some g else some f
    | none => some f

/-- The longest match at a place. -/
def Regex.match? (r : Regex) (fuel : Nat) (before cs : List Char) : Option Found :=
  longest (run fuel r ⟨before.head?, cs, []⟩)

/-- The first match in a text: what stands before it, what it starts with, and what is found. -/
def Regex.find? (r : Regex) (fuel : Nat) (before : List Char) :
    List Char → Option (List Char × List Char × Found)
  | [] => (r.match? fuel before []).map fun f => (before.reverse, [], f)
  | c :: rest =>
    match r.match? fuel before (c :: rest) with
    | some f => some (before.reverse, c :: rest, f)
    | none => find? r fuel (c :: before) rest

/-- Fuel that is enough for matching an expression of a text of `m` characters against one of `n`. -/
def Regex.fuel (m n : Nat) : Nat := (2 * m + 4) * (n + 2)

end DebugHost.Shell
