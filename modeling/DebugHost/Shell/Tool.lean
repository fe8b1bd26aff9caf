import DebugHost.Process.Lines
import DebugHost.Shell.Condition
import DebugHost.Shell.Format
import DebugHost.Shell.Pattern

/-! # Tools

The small programs that scripts call. A tool is a function of its arguments, of what it reads from its
input, and of the files: it gives what it writes, its status, and the files afterwards. Tools work on
octets; for patterns an octet is taken as a character. -/

namespace DebugHost.Shell

open DebugHost.Text

/-- What a tool does. -/
structure Outcome where
  out : List UInt8 := []
  err : List UInt8 := []
  status : Nat := 0
  /-- The files afterwards, if they have changed. -/
  files : Option FileSystem := none

/-- Where a tool runs. -/
structure Place where
  files : FileSystem
  cwd : List String
  environment : List (String × String)
  /-- The name by which the tool was called. -/
  zero : String

/-- What a tool complains about, in a line. -/
def Place.complaint (p : Place) (text : String) : List UInt8 :=
  Utf8.encode (p.zero ++ ": " ++ text ++ "\n")

/-- The outcome of a failure. -/
def Place.fails (p : Place) (status : Nat) (text : String) : Outcome :=
  { err := p.complaint text, status }

/-- The outcome of a call whose arguments are wrong. -/
def Place.refuses (p : Place) (text : String) : Outcome :=
  { err := p.complaint text ++ Utf8.encode ("Try '" ++ p.zero ++ " --help' for more information.\n"),
    status := 1 }

namespace Tool

/-- The octets of a text. -/
def octets (s : String) : List UInt8 := Utf8.encode s

/-- Octets as characters, one for each. -/
def chars (bs : List UInt8) : List Char := bs.map fun b => Char.ofNat b.toNat

/-- Characters that stand for octets. -/
def unchars (cs : List Char) : List UInt8 := cs.map fun c => UInt8.ofNat c.toNat

/-- A text with one character for each of its octets. -/
def wide (s : String) : String := String.ofList (chars (octets s))

/-- The lines of octets; the last one may be without an end. -/
def lines (bs : List UInt8) : List (List UInt8) :=
  let (ls, rest) := LineBuffer.split bs
  if rest.isEmpty then ls else ls ++ [rest]

/-- Lines with their ends. -/
def unlines (ls : List (List UInt8)) : List UInt8 := (ls.map (· ++ [10])).flatten

/-- The outcome of writing a text. -/
def prints (s : String) : Outcome := { out := octets s }

/-! ### Arguments -/

/-- Splits options, each a minus sign with letters, off from arguments. Letters in `valued` take a
value, from the same argument or from the next one. -/
def options (valued : List Char) : Nat → List String → List (Char × String) × List String
  | 0, args => ([], args)
  | _, [] => ([], [])
  | fuel + 1, a :: rest =>
    if a = "--" then ([], rest)
    else
      match a.toList with
      | '-' :: c :: cs =>
        if c = '-' then
          let (os, args) := options valued fuel rest
          (os, args)
        else letters valued fuel (c :: cs) rest
      | _ =>
        let (os, args) := options valued fuel rest
        (os, a :: args)
where
  letters (valued : List Char) (fuel : Nat) (cs : List Char) (rest : List String) :
      List (Char × String) × List String :=
    match cs with
    | [] =>
      match fuel with
      | 0 => ([], rest)
      | fuel + 1 => options valued fuel rest
    | c :: cs =>
      if c ∈ valued then
        match fuel with
        | 0 => ([], rest)
        | fuel + 1 =>
          if cs.isEmpty then
            match rest with
            | v :: rest =>
              let (os, args) := options valued fuel rest
              ((c, v) :: os, args)
            | [] => ([(c, "")], [])
          else
            let (os, args) := options valued fuel rest
            ((c, String.ofList cs) :: os, args)
      else
        let (os, args) := letters valued fuel cs rest
        ((c, "") :: os, args)

/-- The options of a tool. -/
def optionsOf (valued : List Char) (args : List String) : List (Char × String) × List String :=
  options valued (2 * args.length + 2) args

/-- Whether an option is given. -/
def given (os : List (Char × String)) (c : Char) : Bool := os.any (·.1 = c)

/-- The value of an option. -/
def value? (os : List (Char × String)) (c : Char) : Option String :=
  (os.find? (·.1 = c)).map (·.2)

/-- The files that are named, each with what is read from it; a minus sign names the input. -/
def sources (p : Place) (names : List String) (input : List UInt8) :
    List (String × Except OsError (List UInt8)) :=
  names.map fun n => (n, if n = "-" then .ok input else p.files.read p.cwd ⟨n⟩)

/-- The sources that can be read. -/
def readable (parts : List (String × Except OsError (List UInt8))) : List (String × List UInt8) :=
  parts.filterMap fun (n, r) => r.toOption.map (n, ·)

/-- The complaints about sources that cannot be read. -/
def unreadable (p : Place) (parts : List (String × Except OsError (List UInt8)))
    (why : String → String → String) : List UInt8 :=
  parts.flatMap fun (n, r) =>
    match r with
    | .ok _ => []
    | .error e => p.complaint (why n e.text)

/-- The usual words for a file that cannot be read. -/
def plainly (name text : String) : String := name ++ ": " ++ text

/-- Reads the files that are named one after the other, or the input if none is. -/
def inputs (p : Place) (names : List String) (input : List UInt8) : List UInt8 × List UInt8 :=
  if names.isEmpty then (input, [])
  else
    let parts := sources p names input
    ((readable parts).flatMap (·.2), unreadable p parts plainly)

/-- Applies a function to what is read from the named files or from the input. -/
def filter (p : Place) (names : List String) (input : List UInt8)
    (f : List UInt8 → List UInt8) : Outcome :=
  let (bs, err) := inputs p names input
  { out := f bs, err, status := if err.isEmpty then 0 else 1 }

/-- Applies a function to each of the named files, with a title in front if there are several, or to the
input. -/
def titled (p : Place) (titles : Bool) (names : List String) (input : List UInt8)
    (f : List UInt8 → List UInt8) : Outcome :=
  if names.isEmpty then { out := f input }
  else
    let parts := sources p names input
    let err := unreadable p parts fun n text => "cannot open '" ++ n ++ "' for reading: " ++ text
    let title (n : String) : List UInt8 :=
      octets ("==> " ++ (if n = "-" then "standard input" else n) ++ " <==\n")
    let out := if titles && names.length ≠ 1 then
        ((readable parts).map fun (n, bs) => title n ++ f bs).intersperse [10]
      else (readable parts).map fun (_, bs) => f bs
    { out := out.flatten, err, status := if err.isEmpty then 0 else 1 }

/-! ### Ranges and sets -/

/-- Reads a list of ranges such as `1,3-5,7-`. -/
def rangesOf (s : String) : List (Nat × Option Nat) :=
  (s.splitOn ",").filterMap fun part =>
    match part.splitOn "-" with
    | [a] => a.toNat?.map fun n => (n, some n)
    | [a, b] => some (if a = "" then 1 else a.toNat?.getD 1, if b = "" then none else b.toNat?)
    | _ => none

/-- Whether a place is in ranges. -/
def inRanges (rs : List (Nat × Option Nat)) (n : Nat) : Bool :=
  rs.any fun (a, b) => a ≤ n && (match b with
    | some b => n ≤ b
    | none => true)

/-- The members of a list at places that are in ranges. -/
def select {α : Type} (rs : List (Nat × Option Nat)) (xs : List α) : List α :=
  (xs.zipIdx 1).filterMap fun (x, n) => if inRanges rs n then some x else none

/-- Cuts octets at a separator. -/
def splitAt (separator : UInt8) (bs : List UInt8) : List (List UInt8) :=
  bs.foldr (fun b parts =>
    if b = separator then [] :: parts
    else
      match parts with
      | p :: ps => (b :: p) :: ps
      | [] => [[b]]) [[]]

/-- Joins parts with a separator. -/
def joinWith (separator : UInt8) (parts : List (List UInt8)) : List UInt8 :=
  (parts.intersperse [separator]).flatten

/-- The characters of a set as `tr` writes it: escapes, ranges and classes. -/
def setOf : Nat → List Char → List Char
  | 0, _ => []
  | _, [] => []
  | fuel + 1, '[' :: ':' :: cs =>
    let name := cs.takeWhile Char.isAlpha
    (CharSet.named (String.ofList name)).flatMap (fun (a, b) => span a b) ++
      setOf fuel (cs.drop (name.length + 2))
  | fuel + 1, '\\' :: cs =>
    let (bs, rest) := Format.escape cs
    let bs := if bs.length = 1 && bs.head? ≠ some 92 || cs.head? = some '\\' then bs else []
    chars bs ++ setOf fuel rest
  | fuel + 1, a :: '-' :: b :: cs => span a b ++ setOf fuel cs
  | fuel + 1, c :: cs => c :: setOf fuel cs
where
  span (a b : Char) : List Char :=
    (List.range (b.toNat + 1 - a.toNat)).map fun k => Char.ofNat (a.toNat + k)

/-! ### Editing lines -/

/-- Which lines an edit is for. -/
inductive Address where
  | all
  | line (n : Nat)
  | last
  | fits (r : Regex)
  | range (a b : Address)

/-- What an edit does with a line. -/
inductive Edit where
  | substitute (r : Regex) (replacement : List Char) (everywhere printed : Bool) (nth : Nat)
  | delete
  | print
  | quit
  | nothing

/-- The text up to a separator, in which the separator may be escaped, and what follows it. -/
def upTo (separator : Char) : List Char → List Char × List Char
  | [] => ([], [])
  | '\\' :: c :: cs =>
    let (a, rest) := upTo separator cs
    (if c = separator then c :: a else '\\' :: c :: a, rest)
  | c :: cs =>
    if c = separator then ([], cs)
    else
      let (a, rest) := upTo separator cs
      (c :: a, rest)

/-- Reads a single address. -/
def addressOf (extended : Bool) (cs : List Char) : Option (Address × List Char) :=
  match cs with
  | '$' :: rest => some (.last, rest)
  | '/' :: rest =>
    let (r, rest) := upTo '/' rest
    some (.fits (.ofText extended (String.ofList r)), rest)
  | c :: _ =>
    if c.isDigit then
      let ds := cs.takeWhile Char.isDigit
      some (.line ((String.ofList ds).toNat?.getD 0), cs.drop ds.length)
    else none
  | [] => none

/-- Reads one edit with its address, and what follows it. -/
def editOf (extended : Bool) (cs : List Char) : Option ((Address × Bool × Edit) × List Char) := do
  let (address, cs) := match addressOf extended cs with
    | some (a, ',' :: rest) =>
      match addressOf extended rest with
      | some (b, rest) => (Address.range a b, rest)
      | none => (a, rest)
    | some (a, rest) => (a, rest)
    | none => (.all, cs)
  let cs := cs.dropWhile (· = ' ')
  let (inverted, cs) := match cs with
    | '!' :: rest => (true, rest)
    | rest => (false, rest)
  match cs with
  | 's' :: sep :: rest =>
    let (r, rest) := upTo sep rest
    let (replacement, rest) := upTo sep rest
    let marks := rest.takeWhile fun c => c.isAlphanum
    let nth := (String.ofList (marks.filter Char.isDigit)).toNat?.getD 1
    return ((address, inverted,
      .substitute (.ofText extended (String.ofList r)) replacement ('g' ∈ marks) ('p' ∈ marks) nth),
      rest.drop marks.length)
  | 'd' :: rest => return ((address, inverted, .delete), rest)
  | 'p' :: rest => return ((address, inverted, .print), rest)
  | 'q' :: rest => return ((address, inverted, .quit), rest)
  | rest => return ((address, inverted, .nothing), rest.drop 1)

/-- Reads a list of edits. -/
def editsOf (extended : Bool) : Nat → List Char → List (Address × Bool × Edit)
  | 0, _ => []
  | fuel + 1, cs =>
    match cs.dropWhile (fun c => c = ' ' || c = ';' || c = '\n') with
    | [] => []
    | '#' :: cs => editsOf extended fuel (cs.dropWhile (· ≠ '\n'))
    | cs =>
      match editOf extended cs with
      | some (e, rest) => e :: editsOf extended fuel rest
      | none => []

/-- A replacement with what was found put in. -/
def filled (found : List Char) (groups : List (Nat × List Char)) : List Char → List Char
  | [] => []
  | '&' :: cs => found ++ filled found groups cs
  | '\\' :: c :: cs =>
    if c.isDigit then
      ((groups.find? (·.1 = c.toNat - 48)).map (·.2)).getD [] ++ filled found groups cs
    else if c = 'n' then '\n' :: filled found groups cs
    else c :: filled found groups cs
  | c :: cs => c :: filled found groups cs

/-- Replaces matches in a line: from the one with the number `nth` on, all or only that one. -/
def substitute (r : Regex) (replacement : List Char) (everywhere : Bool) (limit : Nat) :
    Nat → Nat → List Char → List Char → List Char × Bool
  | 0, _, _, cs => (cs, false)
  | fuel + 1, nth, before, cs =>
    match r.find? limit [] cs with
    | none => (cs, false)
    | some (front, at', f) =>
      let found := at'.take (at'.length - f.rest.length)
      let new := if nth ≤ 1 then filled found f.groups replacement else found
      if nth ≤ 1 && !everywhere then (front ++ new ++ f.rest, true)
      else
        let (step, rest) := if found.isEmpty then (f.rest.take 1, f.rest.drop 1) else ([], f.rest)
        if found.isEmpty && f.rest.isEmpty then (front ++ new, nth ≤ 1)
        else
          let (after, more) := substitute r replacement everywhere limit fuel (nth - 1) before rest
          (front ++ new ++ step ++ after, nth ≤ 1 || more)

/-- Whether a line is addressed. The second component tells whether a range goes on behind it. -/
def addressed (n : Nat) (isLast : Bool) (cs : List Char) : Address → Bool
  | .all => true
  | .line m => n = m
  | .last => isLast
  | .fits r => (r.find? (Regex.fuel 64 cs.length) [] cs).isSome
  | .range a _ => addressed n isLast cs a

/-- Whether the end of a range has come. -/
def reached (n : Nat) (isLast : Bool) (cs : List Char) : Address → Bool
  | .line m => m ≤ n
  | a => addressed n isLast cs a

/-- An edit in use: whether the range for which it is has begun, the address, whether it is for all
other lines, and what it does. -/
abbrev EditInUse := Bool × Address × Bool × Edit

/-- Whether a line is addressed, and whether a range goes on behind it. The end of a range is looked
for from the next line on, unless it is a number. -/
def span (begun : Bool) (n : Nat) (isLast : Bool) (cs : List Char) (a : Address) : Bool × Bool :=
  match a with
  | .range start stop =>
    if begun then (true, !reached n isLast cs stop)
    else if addressed n isLast cs start then
      (true, match stop with
        | .line m => n < m
        | _ => !isLast)
    else (false, false)
  | a => (addressed n isLast cs a, false)

/-- Applies edits to a line: what is written for it, the edits afterwards, and whether to go on. -/
def edit (n : Nat) (isLast quiet : Bool) :
    List EditInUse → List Char → List (List Char) → List (List Char) × List EditInUse × Bool
  | [], cs, out => (if quiet then out else out ++ [cs], [], true)
  | (begun, a, inverted, e) :: es, cs, out =>
    let (isFor, begun) := span begun n isLast cs a
    let goesOn (cs : List Char) (out : List (List Char)) :
        List (List Char) × List EditInUse × Bool :=
      let (out, es, more) := edit n isLast quiet es cs out
      (out, (begun, a, inverted, e) :: es, more)
    if isFor = inverted then goesOn cs out
    else
      match e with
      | .substitute r replacement everywhere printed nth =>
        let limit := Regex.fuel 64 cs.length
        let (cs, changed) := substitute r replacement everywhere limit (cs.length + 2) nth [] cs
        goesOn cs (if changed && printed then out ++ [cs] else out)
      | .delete => (out, (begun, a, inverted, e) :: es, true)
      | .print => goesOn cs (out ++ [cs])
      | .quit => (if quiet then out else out ++ [cs], [], false)
      | .nothing => goesOn cs out

/-- Edits lines one after the other. -/
def editLines (quiet : Bool) : Nat → List EditInUse → List (List UInt8) → List (List UInt8)
  | _, _, [] => []
  | n, es, l :: ls =>
    let (out, es, more) := edit n ls.isEmpty quiet es (chars l) []
    out.map unchars ++ if more then editLines quiet (n + 1) es ls else []

/-! ### The tools -/

/-- Orders lines by their octets. -/
def lineLe (a b : List UInt8) : Bool := !decide (b < a)

/-- The number at the front of a line. -/
def leading (l : List UInt8) : Int :=
  let cs := (chars l).dropWhile Char.isWhitespace
  let (negative, ds) := match cs with
    | '-' :: r => (true, r)
    | r => (false, r)
  let n : Int := (String.ofList (ds.takeWhile Char.isDigit)).toNat?.getD 0
  if negative then -n else n

/-- Lines that differ from the one before. -/
def distinct : List (List UInt8) → List (List UInt8 × Nat)
  | [] => []
  | l :: ls =>
    match distinct ls with
    | (m, n) :: rest => if l = m then (m, n + 1) :: rest else (l, 1) :: (m, n) :: rest
    | [] => [(l, 1)]

/-- A number with blanks in front, up to a width. -/
def column (width n : Nat) : String :=
  let s := toString n
  String.ofList (List.replicate (width - s.length) ' ') ++ s

/-- The count that `head` and `tail` are given: an option, or a minus sign with digits. -/
def countOf (args : List String) (letter : Char) : Option String × List String :=
  match args with
  | a :: rest =>
    match a.toList with
    | '-' :: c :: cs =>
      if c.isDigit then (some (String.ofList (c :: cs)), rest)
      else
        let (os, names) := optionsOf [letter] args
        (value? os letter, names)
    | _ =>
      let (os, names) := optionsOf [letter] args
      (value? os letter, names)
  | [] => (none, [])

/-- The first part of lines or octets. -/
def head (p : Place) (args : List String) (input : List UInt8) : Outcome :=
  let (os, _) := optionsOf ['n', 'c'] args
  match value? os 'c' with
  | some n =>
    let (_, names) := optionsOf ['n', 'c'] args
    titled p (!given os 'q') names input fun bs => bs.take (n.toNat?.getD 0)
  | none =>
    let (count, names) := countOf args 'n'
    titled p (!given os 'q') names input fun bs =>
      let ends := bs.getLast? = some 10
      let ls := lines bs
      let n := (count.getD "10").toNat?.getD 10
      if ls.length ≤ n && !ends then bs else unlines (ls.take n)

/-- The last part of lines or octets. -/
def tail (p : Place) (args : List String) (input : List UInt8) : Outcome :=
  let (os, names) := optionsOf ['n', 'c'] args
  match value? os 'c' with
  | some n => titled p (!given os 'q') names input fun bs => bs.drop (bs.length - n.toNat?.getD 0)
  | none =>
    let (count, names) := countOf args 'n'
    titled p (!given os 'q') names input fun bs =>
      let ls := lines bs
      let text := count.getD "10"
      let kept := if text.startsWith "+" then
          ls.drop (((text.drop 1).toNat?.getD 1) - 1)
        else ls.drop (ls.length - text.toNat?.getD 10)
      let out := unlines kept
      if bs.getLast? = some 10 then out else out.dropLast

/-- The numbers of lines in front of them. -/
def numbered (ls : List (List UInt8)) : List (List UInt8) :=
  (ls.zipIdx 1).map fun (l, n) => octets (column 6 n ++ "\t") ++ l

/-- Numbers in a row. -/
def sequence (p : Place) (args : List String) : Outcome :=
  let (separator, args) := match args with
    | "-s" :: s :: rest => (s, rest)
    | a :: rest =>
      if a.startsWith "-s" then (String.ofList (a.toList.drop 2), rest) else ("\n", a :: rest)
    | [] => ("\n", [])
  match args.find? (·.toInt?.isNone) with
  | some a =>
    p.refuses ("invalid floating point argument: '" ++ a ++ "'")
  | none =>
  let ns := args.filterMap String.toInt?
  let (first, step, last) : Int × Int × Int := match ns with
    | [b] => (1, 1, b)
    | [a, b] => (a, 1, b)
    | a :: s :: b :: _ => (a, s, b)
    | [] => (1, 1, 0)
  let count := if step = 0 then 0 else ((last - first).fdiv step + 1).toNat
  let texts := (List.range count).map fun (k : Nat) => toString (first + step * (k : Int))
  prints (if texts.isEmpty then "" else String.intercalate separator texts ++ "\n")

/-- Counts lines, words and octets. -/
def count (p : Place) (args : List String) (input : List UInt8) : Outcome :=
  let (os, names) := optionsOf [] args
  let counts (bs : List UInt8) : List Nat :=
    (if os.isEmpty || given os 'l' then [bs.count 10] else []) ++
    (if os.isEmpty || given os 'w' then
      [((String.ofList (chars bs)).split Char.isWhitespace |>.filter (!·.isEmpty) |>.length)]
     else []) ++
    (if os.isEmpty || given os 'c' || given os 'm' then [bs.length] else [])
  let row (width : Nat) (ns : List Nat) : String := String.intercalate " " (ns.map (column width))
  let isSingle := (counts []).length = 1
  if names.isEmpty then prints (row (if isSingle then 1 else 7) (counts input) ++ "\n")
  else
    let parts := sources p names input
    let read := readable parts
    let size := (toString (read.foldl (fun n (_, bs) => n + bs.length) 0)).length
    let width := if isSingle && names.length = 1 then 1 else if "-" ∈ names then max 7 size else size
    let rows := read.map fun (n, bs) => (counts bs, n)
    let total := (counts []).mapIdx fun k _ => rows.foldl (fun n (ns, _) => n + ns.getD k 0) 0
    let rows := if names.length = 1 then rows else rows ++ [(total, "total")]
    let err := unreadable p parts plainly
    { out := octets (String.join (rows.map fun (ns, n) => row width ns ++ " " ++ n ++ "\n")), err,
      status := if err.isEmpty then 0 else 1 }

/-- Lines that an expression matches. -/
def search (p : Place) (args : List String) (input : List UInt8) : Outcome :=
  let (os, names) := optionsOf ['e', 'm'] args
  let (pattern, names) := match value? os 'e', names with
    | some e, ns => (e, ns)
    | none, n :: ns => (n, ns)
    | none, [] => ("", [])
  let fold (cs : List Char) : List Char := if given os 'i' then cs.map Char.toLower else cs
  let wanted := fold (chars (octets pattern))
  let r : Regex := if given os 'F' then
      wanted.foldl (fun r c => .cat r (.char (.single c))) .empty
    else .ofText (given os 'E') (String.ofList wanted)
  let p := { p with zero := "grep" }
  let parts := if names.isEmpty then [("(standard input)", .ok input)] else sources p names input
  let err := unreadable p parts plainly
  let fits (l : List UInt8) : Bool :=
    let cs := fold (chars l)
    match r.find? (Regex.fuel wanted.length cs.length) [] cs with
    | some (front, _, f) => !given os 'x' || (front.isEmpty && f.rest.isEmpty)
    | none => false
  let hits (bs : List UInt8) : List (List UInt8 × Nat) :=
    ((lines bs).zipIdx 1).filter fun (l, _) => fits l != given os 'v'
  let found := (readable parts).map fun (n, bs) => (n, hits bs)
  let isTitled := given os 'H' || (1 < names.length && !given os 'h')
  let out := found.flatMap fun (n, hs) =>
    let title := if isTitled then octets (n ++ ":") else []
    if given os 'q' then []
    else if given os 'l' then if hs.isEmpty then [] else octets (n ++ "\n")
    else if given os 'c' then title ++ octets (toString hs.length ++ "\n")
    else if given os 'o' then
      unlines (hs.filterMap fun (l, _) =>
        (r.find? (Regex.fuel wanted.length l.length) [] (fold (chars l))).map fun (front, cs, f) =>
          title ++ (l.drop front.length).take (cs.length - f.rest.length))
    else unlines (hs.map fun (l, n) =>
      title ++ if given os 'n' then octets (toString n ++ ":") ++ l else l)
  { out, err,
    status := if !err.isEmpty then 2 else if found.all (·.2.isEmpty) then 1 else 0 }

/-- Replaces or drops characters. -/
def translate (args : List String) (input : List UInt8) : Outcome :=
  let (os, sets) := optionsOf [] args
  let set (n : Nat) : List Char :=
    let cs := ((sets[n]?.map fun s => chars (octets s)).getD [])
    setOf (cs.length + 1) cs
  let complement := given os 'c' || given os 'C'
  let isIn (c : Char) : Bool := (c ∈ set 0) != complement
  let cs := chars input
  if given os 'd' then { out := unchars (cs.filter (!isIn ·)) }
  else if given os 's' && sets.length < 2 then
    { out := unchars (cs.foldr (fun c rest =>
        if isIn c && rest.head? = some c then rest else c :: rest) []) }
  else
    let new := set 1
    let last := new.getLast?.getD ' '
    let image (c : Char) : Char :=
      if complement then (if isIn c then last else c)
      else
        match (set 0).idxOf? c with
        | some k => new[k]?.getD last
        | none => c
    { out := unchars (cs.map image) }

/-- Parts of lines. -/
def cut (p : Place) (args : List String) (input : List UInt8) : Outcome :=
  let (os, names) := optionsOf ['c', 'b', 'f', 'd'] args
  match (value? os 'c').or (value? os 'b'), value? os 'f' with
  | some list, _ =>
    filter p names input fun bs => unlines ((lines bs).map (select (rangesOf list)))
  | none, some list =>
    let separator := ((value? os 'd').bind fun d => (octets d).head?).getD 9
    filter p names input fun bs =>
      unlines ((lines bs).filterMap fun l =>
        if separator ∈ l then
          some (joinWith separator (select (rangesOf list) (splitAt separator l)))
        else if given os 's' then none
        else some l)
  | none, none => p.refuses "you must specify a list of bytes, characters, or fields"

/-- Sorted lines. -/
def sorted (p : Place) (args : List String) (input : List UInt8) : Outcome :=
  let (os, names) := optionsOf ['k', 't'] args
  filter p names input fun bs =>
    let byNumber := given os 'n'
    let le (a b : List UInt8) : Bool :=
      if byNumber && leading a ≠ leading b then leading a ≤ leading b else lineLe a b
    let ls := (lines bs).mergeSort le
    let ls := if given os 'u' then (distinct ls).map (·.1) else ls
    unlines (if given os 'r' then ls.reverse else ls)

/-- Removes files. -/
def remove (p : Place) (args : List String) : Outcome :=
  let (os, names) := optionsOf [] args
  let all := given os 'r' || given os 'R'
  let force := given os 'f'
  names.foldl (fun o n =>
    let fs := o.files.getD p.files
    let fail (why : String) : Outcome :=
      { o with err := o.err ++ p.complaint ("cannot remove '" ++ n ++ "': " ++ why),
               status := 1 }
    match fs.lookup p.cwd ⟨n⟩ with
    | .ok (.file ..) => { o with files := some (fs.remove (FileSystem.trail p.cwd ⟨n⟩)) }
    | .ok .directory =>
      if all then { o with files := some (fs.remove (FileSystem.trail p.cwd ⟨n⟩)) }
      else fail "Is a directory"
    | .error e => if force then o else fail e.text) {}

/-- Removes directories that are empty. -/
def removeDirectories (p : Place) (args : List String) : Outcome :=
  (optionsOf [] args).2.foldl (fun o n =>
    let fs := o.files.getD p.files
    let trail := FileSystem.trail p.cwd ⟨n⟩
    let fail (why : String) : Outcome :=
      { o with err := o.err ++ p.complaint ("failed to remove '" ++ n ++ "': " ++ why),
               status := 1 }
    match fs.lookup p.cwd ⟨n⟩ with
    | .ok .directory =>
      if fs.entries.any fun (t, _) => trail.isPrefixOf t && t.length ≠ trail.length then
        fail "Directory not empty"
      else { o with files := some (fs.remove trail) }
    | .ok (.file ..) => fail "Not a directory"
    | .error e => fail e.text) {}

/-! ### Calculations on arguments -/

/-- The value of an operator of `expr`, if it is one of the given level. -/
def operation (level : Nat) (op a b : String) : Option (Except String String) :=
  let numbers (f : Int → Int → Except String Int) : Except String String :=
    match a.toInt?, b.toInt? with
    | some x, some y => (f x y).map toString
    | _, _ => .error "non-integer argument"
  let compares (f : Int → Int → Bool) (g : String → String → Bool) : Except String String :=
    .ok (if (match a.toInt?, b.toInt? with
      | some x, some y => f x y
      | _, _ => g a b) then "1" else "0")
  let isNull (s : String) : Bool := s = "" || s = "0"
  match level, op with
  | 0, "|" => some (.ok (if isNull a then if b = "" then "0" else b else a))
  | 1, "&" => some (.ok (if isNull a || isNull b then "0" else a))
  | 2, "<" => some (compares (· < ·) fun x y => decide (x < y))
  | 2, "<=" => some (compares (· ≤ ·) fun x y => !decide (y < x))
  | 2, "=" | 2, "==" => some (compares (· = ·) (· = ·))
  | 2, "!=" => some (compares (· ≠ ·) (· ≠ ·))
  | 2, ">=" => some (compares (· ≥ ·) fun x y => !decide (x < y))
  | 2, ">" => some (compares (· > ·) fun x y => decide (y < x))
  | 3, "+" => some (numbers fun x y => .ok (x + y))
  | 3, "-" => some (numbers fun x y => .ok (x - y))
  | 4, "*" => some (numbers fun x y => .ok (x * y))
  | 4, "/" => some (numbers fun x y => if y = 0 then .error "division by zero" else .ok (x.tdiv y))
  | 4, "%" => some (numbers fun x y => if y = 0 then .error "division by zero" else .ok (x.tmod y))
  | _, _ => none

mutual

/-- Reads and computes operands with operators of a level, or of stronger ones, between them. -/
def operands (fuel level : Nat) (args : List String) : Except String (String × List String) :=
  match fuel with
  | 0 => .error "syntax error"
  | fuel + 1 =>
    if 5 ≤ level then
      match args with
      | "(" :: rest => do
        let (v, rest) ← operands fuel 0 rest
        match rest with
        | ")" :: rest => return (v, rest)
        | _ => .error "syntax error: expecting ')'"
      | a :: rest => .ok (a, rest)
      | [] => .error "syntax error: missing argument"
    else do
      let (v, rest) ← operands fuel (level + 1) args
      furtherOperands fuel level v rest

/-- Reads and computes what follows the first operand of a level. -/
def furtherOperands (fuel level : Nat) (v : String) (args : List String) :
    Except String (String × List String) :=
  match fuel with
  | 0 => .error "syntax error"
  | fuel + 1 =>
    match args with
    | op :: rest =>
      if (operation level op "" "").isSome then do
        let (w, rest) ← operands fuel (level + 1) rest
        match operation level op v w with
        | some r => furtherOperands fuel level (← r) rest
        | none => return (v, args)
      else return (v, args)
    | [] => return (v, [])

end

/-- Calculates what the arguments state. Zero and the empty text count as failures. -/
def calculate (p : Place) (args : List String) : Outcome :=
  if args.isEmpty then { p.refuses "missing operand" with status := 2 } else
  match operands (8 * args.length + 16) 0 args with
  | .ok (v, []) => { prints (v ++ "\n") with status := if v = "" || v = "0" then 1 else 0 }
  | .ok (_, a :: _) => p.fails 2 ("syntax error: unexpected argument '" ++ a ++ "'")
  | .error e => p.fails 2 e

/-- The names in a directory, sorted. -/
def names (fs : FileSystem) (trail : List String) : List String :=
  let below := fs.entries.filterMap fun (t, _) =>
    if trail.isPrefixOf t then (t.drop trail.length).head? else none
  (below.mergeSort (fun a b => !decide (b < a))).eraseDups

/-- Lists files and directories. -/
def list (p : Place) (args : List String) : Outcome :=
  let (os, paths) := optionsOf [] args
  let visible (n : String) : Bool := given os 'a' || given os 'A' || !n.startsWith "."
  let paths := if paths.isEmpty then ["."] else paths
  let found := paths.map fun n => (n, p.files.lookup p.cwd ⟨n⟩)
  let err := String.join (found.filterMap fun (n, r) =>
    match r with
    | .error e => some (p.zero ++ ": cannot access '" ++ n ++ "': " ++ e.text ++ "\n")
    | .ok _ => none)
  let files := found.filterMap fun (n, r) =>
    match r with
    | .ok (.file ..) => some n
    | _ => none
  let dirs := found.filterMap fun (n, r) =>
    match r with
    | .ok .directory => some n
    | _ => none
  let content (n : String) : List String :=
    (if given os 'a' then [".", ".."] else []) ++
      (names p.files (FileSystem.trail p.cwd ⟨n⟩)).filter visible
  let body := if paths.length = 1 then dirs.flatMap content
    else dirs.flatMap fun n => (n ++ ":") :: content n
  { out := octets (String.join ((files ++ body).map (· ++ "\n"))), err := octets err,
    status := if err = "" then 0 else 2 }

/-- Makes directories. -/
def makeDirectories (p : Place) (args : List String) : Outcome :=
  let (os, names) := optionsOf ['m'] args
  names.foldl (fun o n =>
    let fs := o.files.getD p.files
    let path : Path := ⟨String.ofList (n.toList.reverse.dropWhile (· = '/')).reverse⟩
    let fail (why : String) : Outcome :=
      { o with err := o.err ++ p.complaint ("cannot create directory '" ++ n ++ "': " ++ why),
               status := 1 }
    match fs.lookup p.cwd ⟨n⟩ with
    | .ok .directory => if given os 'p' then o else fail "File exists"
    | .ok (.file ..) => fail "File exists"
    | .error e =>
      match if given os 'p' && e = .notFound then .ok (FileSystem.trail p.cwd path)
        else fs.locate p.cwd path with
      | .ok trail => { o with files := some (fs.put trail .directory) }
      | .error e => fail e.text) {}

/-- Makes files that are not there. -/
def touch (p : Place) (args : List String) : Outcome :=
  let (_, names) := optionsOf ['t', 'd', 'r'] args
  names.foldl (fun o n =>
    let fs := o.files.getD p.files
    if fs.isThere p.cwd ⟨n⟩ then o
    else
      match fs.write p.cwd ⟨n⟩ true [] with
      | .ok fs => { o with files := some fs }
      | .error e =>
        { o with err := o.err ++ p.complaint ("cannot touch '" ++ n ++ "': " ++ e.text),
                 status := 1 }) {}

/-- Where a file goes that is copied or moved to a path. -/
def destination (p : Place) (source target : String) : List String :=
  let trail := FileSystem.trail p.cwd ⟨target⟩
  if p.files.isDirectory p.cwd ⟨target⟩ then trail ++ [((Path.mk source).fileName?).getD ""]
  else trail

/-- Copies or moves a file. -/
def transfer (moves : Bool) (p : Place) (args : List String) : Outcome :=
  match (optionsOf [] args).2 with
  | [a, b] =>
    match p.files.lookup p.cwd ⟨a⟩ with
    | .ok (.file octets x) =>
      let fs := p.files.put (destination p a b) (.file octets x)
      { files := some (if moves then fs.remove (FileSystem.trail p.cwd ⟨a⟩) else fs) }
    | .ok .directory =>
      if moves then
        let old := FileSystem.trail p.cwd ⟨a⟩
        let new := destination p a b
        { files := some ⟨p.files.entries.map fun (t, e) =>
            if old.isPrefixOf t then (new ++ t.drop old.length, e) else (t, e)⟩ }
      else p.fails 1 ("-r not specified; omitting directory '" ++ a ++ "'")
    | .error e => p.fails 1 ("cannot stat '" ++ a ++ "': " ++ e.text)
  | _ => p.refuses "missing file operand"

/-- Makes files executable, or no longer. -/
def changeMode (p : Place) (args : List String) : Outcome :=
  match args with
  | mode :: names =>
    let digit (n : Nat) : Bool := n % 2 = 1
    let bits := mode.toList.filter Char.isDigit
    let executable := if bits.isEmpty then mode.startsWith "+" || (mode.splitOn "+").length = 2
      else bits.any fun c => digit (c.toNat - 48)
    names.foldl (fun o n =>
      let fs := o.files.getD p.files
      match fs.lookup p.cwd ⟨n⟩ with
      | .ok (.file octets _) =>
        { o with files := some ⟨fs.entries.map fun (t, e) =>
            if t = FileSystem.trail p.cwd ⟨n⟩ then (t, .file octets executable) else (t, e)⟩ }
      | .ok .directory => o
      | .error e =>
        { o with err := o.err ++ p.complaint ("cannot access '" ++ n ++ "': " ++ e.text),
                 status := 1 }) {}
  | [] => p.refuses "missing operand"

/-- The last name of a path, without an ending. -/
def baseName (p : Place) (args : List String) : Outcome :=
  match args with
  | [] => p.refuses "missing operand"
  | a :: rest =>
    let cs := (a.toList.reverse.dropWhile (· = '/')).reverse
    let name := (cs.reverse.takeWhile (· ≠ '/')).reverse
    let name := if name.isEmpty && !a.isEmpty then ['/'] else name
    let ending := (rest.head?.getD "").toList
    let name := if ending ≠ name && ending.isSuffixOf name then
        name.take (name.length - ending.length)
      else name
    prints (String.ofList name ++ "\n")

/-- What stands before the last name of a path. -/
def directoryName (p : Place) (args : List String) : Outcome :=
  match args with
  | [] => p.refuses "missing operand"
  | args =>
    prints (String.join (args.map fun a =>
      let cs := a.toList.reverse.dropWhile (· = '/')
      let front := (cs.dropWhile (· ≠ '/')).dropWhile (· = '/')
      (if front.isEmpty then (if a.startsWith "/" then "/" else ".")
        else String.ofList front.reverse) ++ "\n"))

/-- The variables of a place. -/
def environmentText (p : Place) : Outcome :=
  prints (String.join (p.environment.map fun (n, v) => n ++ "=" ++ v ++ "\n"))

/-- The names of all tools. -/
def all : List String :=
  ["cat", "cut", "sed", "head", "tail", "wc", "tr", "sort", "uniq", "grep", "seq", "rm", "mkdir",
    "rmdir", "touch", "basename", "dirname", "env", "printenv", "true", "false", "ls", "cp", "mv",
    "chmod", "tee", "rev", "tac", "echo", "printf", "pwd", "test", "[", "sync", "sleep", "expr", "which"]

/-- Whether a tool reads its input to the end before it does anything. -/
def readsInput (name : String) (args : List String) : Bool :=
  if name ∈ ["tr", "tee"] then true
  else if name ∈ ["cat", "wc", "sort", "uniq", "tac", "rev", "cut", "head", "tail"] then
    let (_, names) := optionsOf ['n', 'c', 'k', 't', 'b', 'f', 'd'] args
    names.isEmpty || "-" ∈ names
  else if name = "sed" || name = "grep" then
    let (os, names) := optionsOf ['e', 'f'] args
    names.length ≤ (if given os 'e' || given os 'f' then 0 else 1) || "-" ∈ names
  else false

/-- Runs a tool. -/
def run (name : String) (p : Place) (args : List String) (input : List UInt8) : Outcome :=
  match name with
  | "cat" =>
    let (os, names) := optionsOf [] args
    filter p names input fun bs => if given os 'n' then unlines (numbered (lines bs)) else bs
  | "cut" => cut p args input
  | "sed" =>
    let (os, rest) := optionsOf ['e', 'f'] args
    let extended := given os 'E' || given os 'r'
    let given' := os.filterMap fun (c, v) =>
      if c = 'e' then some (octets v)
      else if c = 'f' then (p.files.read p.cwd ⟨v⟩).toOption
      else none
    let (scripts, files) := match given' with
      | [] => ((rest.take 1).map octets, rest.drop 1)
      | es => (es, rest)
    let script := chars (joinWith 10 scripts)
    let es := editsOf extended (script.length + 1) script
    filter p files input fun bs =>
      let out := unlines (editLines (given os 'n') 1 (es.map (false, ·)) (lines bs))
      if bs.getLast? = some 10 || out.isEmpty then out else out.dropLast
  | "head" => head p args input
  | "tail" => tail p args input
  | "wc" => count p args input
  | "tr" => translate args input
  | "sort" => sorted p args input
  | "uniq" =>
    let (os, names) := optionsOf [] args
    filter p names input fun bs =>
      unlines ((distinct (lines bs)).filterMap fun (l, n) =>
        if given os 'd' && n < 2 then none
        else if given os 'u' && 1 < n then none
        else some (if given os 'c' then octets (column 7 n ++ " ") ++ l else l))
  | "grep" => search p args input
  | "seq" => sequence p args
  | "rm" => remove p args
  | "rmdir" => removeDirectories p args
  | "expr" => calculate p args
  | "which" =>
    let found := args.filter fun n => n ∈ all || n ∈ ["sh", "dash", "bash"]
    { prints (String.join (found.map fun n => "/usr/bin/" ++ n ++ "\n")) with
      status := if found.length = args.length then 0 else 1 }
  | "mkdir" => makeDirectories p args
  | "touch" => touch p args
  | "basename" => baseName p args
  | "dirname" => directoryName p args
  | "env" => environmentText p
  | "printenv" =>
    match args with
    | [] => environmentText p
    | n :: _ =>
      match p.environment.find? (·.1 = n) with
      | some (_, v) => prints (v ++ "\n")
      | none => { status := 1 }
  | "false" => { status := 1 }
  | "ls" => list p args
  | "cp" => transfer false p args
  | "mv" => transfer true p args
  | "chmod" => changeMode p args
  | "tee" =>
    let (os, names) := optionsOf [] args
    names.foldl (fun o n =>
      match (o.files.getD p.files).write p.cwd ⟨n⟩ (given os 'a') input with
      | .ok fs => { o with files := some fs }
      | .error e =>
        { o with err := o.err ++ p.complaint (plainly n e.text), status := 1 })
      { out := input }
  | "rev" => filter p args input fun bs => unlines ((lines bs).map List.reverse)
  | "tac" => filter p args input fun bs => unlines (lines bs).reverse
  | "echo" =>
    let (newline, args) := match args with
      | "-n" :: rest => (false, rest)
      | rest => (true, rest)
    prints (String.intercalate " " args ++ if newline then "\n" else "")
  | "printf" =>
    match args with
    | f :: rest =>
      let (out, faults, status) := Format.printf f rest
      { out, err := faults.flatMap p.complaint, status }
    | [] => p.refuses "missing operand"
  | "pwd" => prints ("/" ++ String.intercalate "/" p.cwd ++ "\n")
  | "test" | "[" =>
    let args := if name = "[" then args.dropLast else args
    match Condition.holds p.files p.cwd args with
    | .ok b => { status := if b then 0 else 1 }
    | .error e => p.fails 2 e.message
  | _ => {}

end Tool
end DebugHost.Shell
