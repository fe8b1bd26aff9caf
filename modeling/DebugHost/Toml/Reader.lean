import DebugHost.Toml.Scalar
import DebugHost.Toml.Table
import DebugHost.Toml.Text

/-! # Reading TOML

The statements of a document, one in a line. Arrays may go over several lines, tables between braces may
not. -/

namespace DebugHost.Toml

/-- Drops blanks, line ends and comments; `comment` tells whether a comment is under way. Fails at a
control character in a comment. -/
def skipLines (comment : Bool) : List Char → Option (List Char)
  | [] => some []
  | '\n' :: rest => skipLines false rest
  | '\r' :: '\n' :: rest => skipLines false rest
  | c :: rest =>
    if comment then
      if isPlain c then skipLines true rest else none
    else if isBlank c then skipLines false rest
    else if c = '#' then skipLines true rest
    else some (c :: rest)

/-- Drops the rest of a line behind a statement: blanks and a comment, up to and with the line end. -/
def finishLine (comment : Bool) : List Char → Option (List Char)
  | [] => some []
  | '\n' :: rest => some rest
  | '\r' :: '\n' :: rest => some rest
  | c :: rest =>
    if comment then
      if isPlain c then finishLine true rest else none
    else if isBlank c then finishLine false rest
    else if c = '#' then finishLine true rest
    else none

/-- Drops blanks. -/
def skipBlanks (cs : List Char) : List Char := cs.dropWhile isBlank

/-- Deepest nesting of arrays and of tables between braces, and the most parts of a key. -/
def maxDepth : Nat := 79

mutual

/-- A value. Every part takes a character at least, so that the length of the text bounds the number of
parts. -/
def value? : Nat → Nat → List Char → Option (Value × List Char)
  | 0, _, _ => none
  | fuel + 1, depth, cs =>
    match cs with
    | '"' :: _ => (string? cs).map fun (s, rest) => (.str (String.ofList s), rest)
    | '\'' :: _ => (string? cs).map fun (s, rest) => (.str (String.ofList s), rest)
    | '[' :: rest =>
      if depth = 0 then none
      else do
        let (items, rest) ← items? fuel (depth - 1) (← skipLines false rest)
        some (.arr items, rest)
    | '{' :: rest =>
      if depth = 0 then none
      else
        match skipBlanks rest with
        | '}' :: rest => some (.table .inline [], rest)
        | rest => do
          let (pairs, rest) ← pairs? fuel (depth - 1) rest
          some (← inlineTable? pairs, rest)
    | _ =>
      let (w, rest) := word cs
      (wordValue? w).map fun v => (v, rest)

/-- The items of an array and its end. -/
def items? : Nat → Nat → List Char → Option (List Value × List Char)
  | 0, _, _ => none
  | fuel + 1, depth, cs =>
    match cs with
    | ']' :: rest => some ([], rest)
    | _ => do
      let (v, rest) ← value? fuel depth cs
      match ← skipLines false rest with
      | ',' :: rest =>
        let (vs, rest) ← items? fuel depth (← skipLines false rest)
        some (v :: vs, rest)
      | ']' :: rest => some ([v], rest)
      | _ => none

/-- The pairs of a table between braces and its end. -/
def pairs? : Nat → Nat → List Char → Option (List (List String × Value) × List Char)
  | 0, _, _ => none
  | fuel + 1, depth, cs => do
    let (key, v, rest) ← pair? fuel depth cs
    match skipBlanks rest with
    | ',' :: rest =>
      let (ps, rest) ← pairs? fuel depth (skipBlanks rest)
      some ((key, v) :: ps, rest)
    | '}' :: rest => some ([(key, v)], rest)
    | _ => none

/-- A key and its value. -/
def pair? : Nat → Nat → List Char → Option (List String × Value × List Char)
  | 0, _, _ => none
  | fuel + 1, depth, cs => do
    let (key, rest) ← key? maxDepth cs
    match skipBlanks rest with
    | '=' :: rest =>
      let (v, rest) ← value? fuel depth (skipBlanks rest)
      some (key, v, rest)
    | _ => none

end

/-- The key of a header and what stands behind its brackets. -/
def headerKey? (closing : List Char) (cs : List Char) : Option (List String × List Char) := do
  let cs := skipBlanks cs
  let (key, rest) ← key? maxDepth cs
  let rest := skipBlanks rest
  if closing.isPrefixOf rest then some (key, rest.drop closing.length) else none

/-- A statement. -/
def statement? (cs : List Char) : Option (Statement × List Char) :=
  match cs with
  | '[' :: '[' :: rest => (headerKey? [']', ']'] rest).map fun (k, r) => (.tables k, r)
  | '[' :: rest => (headerKey? [']'] rest).map fun (k, r) => (.table k, r)
  | _ => (pair? (4 * cs.length + 4) maxDepth cs).map fun (k, v, r) => (.pair k v, r)

/-- The statements of a text. Every statement takes a character at least. -/
def statements? : Nat → List Char → Option (List Statement)
  | 0, _ => none
  | fuel + 1, cs => do
    match ← skipLines false cs with
    | [] => some []
    | cs =>
      let (s, rest) ← statement? cs
      let rest ← finishLine false rest
      (← statements? fuel rest) |> fun ss => some (s :: ss)

/-- What stands behind a byte order mark, if there is one in front. -/
def dropMark : List Char → List Char
  | '\ufeff' :: cs => cs
  | cs => cs

/-- Reads a document. -/
def read? (text : String) : Option Members := do
  let cs := dropMark text.toList
  document? (← statements? (cs.length + 1) cs)

end DebugHost.Toml
