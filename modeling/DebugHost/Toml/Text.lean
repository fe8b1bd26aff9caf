import DebugHost.Text.Character

/-! # TOML strings and keys

Strings in one line or in several, with escapes or without. Every reader takes the characters behind
the opening quotes, and gives the contents and what stands behind the closing ones. -/

namespace DebugHost.Toml

open DebugHost.Text

/-- Whether a character is a blank within a line. -/
def isBlank (c : Char) : Bool := c = ' ' || c = '\t'

/-- Whether a character may stand for itself: no control character apart from the tab. -/
def isPlain (c : Char) : Bool := c = '\t' || (0x20 ≤ c.toNat && c.toNat ≠ 0x7F)

/-- The character that a letter behind a backslash stands for. -/
def escaped? : Char → Option Char
  | 'b' => some '\x08'
  | 't' => some '\t'
  | 'n' => some '\n'
  | 'f' => some '\x0c'
  | 'r' => some '\r'
  | '"' => some '"'
  | '\\' => some '\\'
  | _ => none

/-- Puts a character in front of what was read. -/
def cons (c : Char) (r : Option (List Char × List Char)) : Option (List Char × List Char) :=
  r.map fun (s, rest) => (c :: s, rest)

/-- A string in double quotes. -/
def basic : List Char → Option (List Char × List Char)
  | [] => none
  | '"' :: rest => some ([], rest)
  | '\\' :: 'u' :: a :: b :: c :: d :: rest => do cons (← scalar? [a, b, c, d]) (basic rest)
  | '\\' :: 'U' :: a :: b :: c :: d :: e :: f :: g :: h :: rest => do
    cons (← scalar? [a, b, c, d, e, f, g, h]) (basic rest)
  | '\\' :: c :: rest => do cons (← escaped? c) (basic rest)
  | c :: rest => if isPlain c && c != '\\' then cons c (basic rest) else none

/-- A string in single quotes. -/
def literal : List Char → Option (List Char × List Char)
  | [] => none
  | '\'' :: rest => some ([], rest)
  | c :: rest => if isPlain c then cons c (literal rest) else none

/-- Whether nothing but blanks is left of the line. -/
def endsLine (cs : List Char) : Bool :=
  match cs.dropWhile isBlank with
  | '\n' :: _ => true
  | '\r' :: '\n' :: _ => true
  | _ => false

/-- A string in three double quotes. Up to two more quotes may stand in front of the closing ones. A
backslash at the end of a line takes away all blanks and line ends that follow, which is what `skip`
does. -/
def basicLines (skip : Bool) : List Char → Option (List Char × List Char)
  | [] => none
  | '\r' :: '\n' :: rest => if skip then basicLines true rest else cons '\n' (basicLines false rest)
  | '\n' :: rest => if skip then basicLines true rest else cons '\n' (basicLines false rest)
  | '"' :: '"' :: '"' :: '"' :: '"' :: rest => some (['"', '"'], rest)
  | '"' :: '"' :: '"' :: '"' :: rest => some (['"'], rest)
  | '"' :: '"' :: '"' :: rest => some ([], rest)
  | '\\' :: 'u' :: a :: b :: c :: d :: rest => do
    cons (← scalar? [a, b, c, d]) (basicLines false rest)
  | '\\' :: 'U' :: a :: b :: c :: d :: e :: f :: g :: h :: rest => do
    cons (← scalar? [a, b, c, d, e, f, g, h]) (basicLines false rest)
  | '\\' :: c :: rest =>
    if endsLine (c :: rest) then basicLines true (c :: rest)
    else do cons (← escaped? c) (basicLines false rest)
  | c :: rest =>
    if skip && isBlank c then basicLines true rest
    else if isPlain c && c != '\\' then cons c (basicLines false rest)
    else none

/-- A string in three single quotes. -/
def literalLines : List Char → Option (List Char × List Char)
  | [] => none
  | '\r' :: '\n' :: rest => cons '\n' (literalLines rest)
  | '\n' :: rest => cons '\n' (literalLines rest)
  | '\'' :: '\'' :: '\'' :: '\'' :: '\'' :: rest => some (['\'', '\''], rest)
  | '\'' :: '\'' :: '\'' :: '\'' :: rest => some (['\''], rest)
  | '\'' :: '\'' :: '\'' :: rest => some ([], rest)
  | c :: rest => if isPlain c then cons c (literalLines rest) else none

/-- What stands behind a line end, if there is one in front. -/
def dropLineEnd : List Char → List Char
  | '\n' :: rest => rest
  | '\r' :: '\n' :: rest => rest
  | cs => cs

/-- A string of any kind, from its opening quotes on. -/
def string? : List Char → Option (List Char × List Char)
  | '"' :: '"' :: '"' :: rest => basicLines false (dropLineEnd rest)
  | '"' :: rest => basic rest
  | '\'' :: '\'' :: '\'' :: rest => literalLines (dropLineEnd rest)
  | '\'' :: rest => literal rest
  | _ => none

/-- Whether a character may stand in a key without quotes. -/
def isBare (c : Char) : Bool := c.isAlphanum || c = '_' || c = '-'

/-- A simple key. -/
def simpleKey? (cs : List Char) : Option (String × List Char) :=
  match cs with
  | '"' :: rest => (basic rest).map fun (s, r) => (String.ofList s, r)
  | '\'' :: rest => (literal rest).map fun (s, r) => (String.ofList s, r)
  | _ =>
    match cs.takeWhile isBare with
    | [] => none
    | name => some (String.ofList name, cs.dropWhile isBare)

/-- A key: at least one and at most a given number of simple keys, with dots between them. -/
def key? : Nat → List Char → Option (List String × List Char)
  | 0, _ => none
  | fuel + 1, cs => do
    let (name, rest) ← simpleKey? cs
    match rest.dropWhile isBlank with
    | '.' :: rest =>
      let (names, rest) ← key? fuel (rest.dropWhile isBlank)
      some (name :: names, rest)
    | _ => some ([name], rest)

end DebugHost.Toml
