import DebugHost.Shell.Grammar

/-! # Reading scripts

A script is read one line of commands at a time, as the shell runs it: a fault further down does not
keep the lines above it from running. Reading is a state of the remaining text and the number of the
line. Words may hold commands, and commands are made of words, so that all readers call one another; the
fuel they share is made from the length of the text: between two calls that leave the text as it is
there are fewer than sixteen others. -/

namespace DebugHost.Shell

/-- Why a script cannot be read. -/
inductive SyntaxFault where
  /-- Something else stands where `expected` should. -/
  | unexpected (found : String) (expected : Option String)
  /-- A quote, bracket or substitution without an end. -/
  | unterminated (what : String)
  | badName
  | badFunctionName
deriving DecidableEq, Repr

/-- The wording of a fault. -/
def SyntaxFault.message : SyntaxFault → String
  | .unexpected found none => "Syntax error: " ++ found ++ " unexpected"
  | .unexpected found (some e) =>
    "Syntax error: " ++ found ++ " unexpected (expecting " ++ e ++ ")"
  | .unterminated what => "Syntax error: " ++ what
  | .badName => "Syntax error: Bad for loop variable"
  | .badFunctionName => "Syntax error: Bad function name"

/-- A token as faults name it. -/
def inQuotes (s : String) : String := "\"" ++ s ++ "\""

/-- Where reading stands. -/
structure Cursor where
  rest : List Char
  line : Nat := 1
  /-- Number of lines that have been taken out of the text behind the end of this line. -/
  taken : Nat := 0

/-- Reading something. -/
abbrev Reading (α : Type) := StateT Cursor (Except (SyntaxFault × Nat)) α

namespace Reading

/-- The text ahead. -/
def ahead : Reading (List Char) := return (← get).rest

/-- The next character. -/
def peek : Reading (Option Char) := return (← get).rest.head?

/-- Goes `n` characters ahead. -/
def skip : Nat → Reading Unit
  | 0 => return
  | n + 1 => do
    modify fun c =>
      match c.rest with
      | '\n' :: r => { rest := r, line := c.line + 1 + c.taken }
      | _ :: r => { c with rest := r }
      | [] => c
    skip n

/-- A fault at this place. -/
def fail {α : Type} (f : SyntaxFault) : Reading α := do throw (f, (← get).line)

/-! ### Characters -/

/-- Whether a character ends a word. -/
def isMeta (c : Char) : Bool := c ∈ [' ', '\t', '\n', ';', '&', '|', '<', '>', '(', ')']

/-- Whether a name may start with a character. -/
def isNameStart (c : Char) : Bool := c = '_' || c.isAlpha

/-- Whether a character may be in a name. -/
def isNamePart (c : Char) : Bool := c = '_' || c.isAlphanum

/-- Whether a text is a name. -/
def isName (s : String) : Bool :=
  match s.toList with
  | c :: cs => isNameStart c && cs.all isNamePart
  | [] => false

/-- Whether a character is a parameter by itself. -/
def isSpecial (c : Char) : Bool := c ∈ ['@', '*', '#', '?', '-', '$', '!']

/-- The parameter at the front of a text, if there is one. -/
def parameterAhead : List Char → Option String
  | c :: cs =>
    if isNameStart c then some (String.ofList ((c :: cs).takeWhile isNamePart))
    else if c.isDigit || isSpecial c then some (String.ofList [c])
    else none
  | [] => none

/-! ### Blanks -/

/-- Goes over blanks, joined lines and comments. -/
def skipBlanks : Nat → Reading Unit
  | 0 => return
  | fuel + 1 => do
    match ← ahead with
    | ' ' :: _ | '\t' :: _ => skip 1; skipBlanks fuel
    | '\\' :: '\n' :: _ => skip 2; skipBlanks fuel
    | '#' :: cs => skip (1 + (cs.takeWhile (· != '\n')).length)
    | _ => return

/-- The text up to a line that is `stop`, which is gone over as well. With `dash` lines count without
the tabs in front of them. -/
def takeText (dash : Bool) (stop : String) : Nat → List String → Reading String
  | 0, acc => return String.join acc.reverse
  | fuel + 1, acc => do
    match ← ahead with
    | [] => return String.join acc.reverse
    | cs =>
      let line := cs.takeWhile (· != '\n')
      let ended := line.length < cs.length
      skip (line.length + 1)
      let line := String.ofList (if dash then line.dropWhile (· = '\t') else line)
      if line = stop then return String.join acc.reverse
      else takeText dash stop fuel ((if ended then line ++ "\n" else line) :: acc)

/-! ### Quotes and substitutions -/

/-- The text up to the two brackets that end a calculation, which are gone over. -/
def takeCalculation : Nat → Nat → List Char → Reading String
  | 0, _, _ => fail (.unterminated "Missing '))'")
  | fuel + 1, depth, acc => do
    match ← ahead with
    | [] => fail (.unterminated "Missing '))'")
    | '\\' :: c :: _ => skip 2; takeCalculation fuel depth (c :: '\\' :: acc)
    | '(' :: _ => skip 1; takeCalculation fuel (depth + 1) ('(' :: acc)
    | ')' :: cs =>
      match depth, cs.head? with
      | 0, some ')' => skip 2; return String.ofList acc.reverse
      | 0, _ => skip 1; takeCalculation fuel 0 (')' :: acc)
      | depth + 1, _ => skip 1; takeCalculation fuel depth (')' :: acc)
    | c :: _ => skip 1; takeCalculation fuel depth (c :: acc)

/-- The text up to a backquote, which is gone over. Within double quotes a backslash also protects
those. -/
def takeBackquoted (quoted : Bool) : Nat → List Char → Reading (List Char)
  | 0, _ => fail (.unterminated "EOF in backquote substitution")
  | fuel + 1, acc => do
    match ← ahead with
    | [] => fail (.unterminated "EOF in backquote substitution")
    | '\\' :: '\n' :: _ => skip 2; takeBackquoted quoted fuel acc
    | '\\' :: c :: _ =>
      skip 2
      takeBackquoted quoted fuel
        (if c ∈ ['`', '$', '\\'] || (quoted && c = '"') then c :: acc else c :: '\\' :: acc)
    | '`' :: _ => skip 1; return acc.reverse
    | c :: _ => skip 1; takeBackquoted quoted fuel (c :: acc)

/-- What ends a run of pieces. -/
inductive Ending where
  /-- A character that ends a word. -/
  | word
  /-- A double quote. -/
  | quote
  /-- The brace that ends the use of a parameter. -/
  | brace
  /-- The end of the text. -/
  | text
deriving DecidableEq

/-- Puts a text in front of pieces, together with a text of the same kind. -/
def consText (s : String) (quoted : Bool) : List Piece → List Piece
  | .text t q :: ps => if q = quoted then .text (s ++ t) q :: ps else .text s quoted :: .text t q :: ps
  | ps => .text s quoted :: ps

/-- Pieces between double quotes, held together so that there is a field even if they have no
characters; only the list of all arguments by itself may be no field. -/
def hold : List Piece → List Piece
  | [.parameter "@" .value true] => [.parameter "@" .value true]
  | .text s true :: ps => .text s true :: ps
  | ps => .text "" true :: ps

/-- The pieces of a text without quotes at whose beginning a home directory may stand: a tilde and the
name of a user up to a slash, or up to the end if the text is `closed`. -/
def homeFirst (closed : Bool) (cs : List Char) : List Piece :=
  match cs with
  | '~' :: rest =>
    let user := rest.takeWhile (· != '/')
    let path := rest.drop user.length
    if path.isEmpty && !closed then [.text (String.ofList cs) false]
    else .home (String.ofList user) ::
      if path.isEmpty then [] else [.text (String.ofList path) false]
  | [] => []
  | cs => [.text (String.ofList cs) false]

/-- The parts of a text between colons. -/
def listParts : List Char → List (List Char)
  | [] => [[]]
  | ':' :: cs => [] :: listParts cs
  | c :: cs =>
    match listParts cs with
    | [] => [[c]]
    | p :: ps => (c :: p) :: ps

/-- Finds the home directories in a text in a list with colons, at whose beginning there may be one if
it is `first`. -/
def homesInList (closed first : Bool) : List (List Char) → List Piece
  | [] => []
  | [part] => if first then homeFirst closed part else [.text (String.ofList part) false]
  | part :: parts =>
    (if first then homeFirst true part else [.text (String.ofList part) false]) ++
      .text ":" false :: homesInList closed true parts

/-- Finds the home directories in pieces of a word: at its beginning, and if it is a list also behind
its colons. -/
def findHomes (inList first : Bool) : List Piece → List Piece
  | [] => []
  | .text s false :: ps =>
    (if inList then homesInList ps.isEmpty first (listParts s.toList)
      else if first then homeFirst ps.isEmpty s.toList
      else [.text s false]) ++ findHomes inList false ps
  | p :: ps => p :: findHomes inList false ps

/-! ### What is ahead -/

/-- The words that begin or divide commands. -/
def reserved : List String :=
  ["if", "then", "else", "elif", "fi", "while", "until", "for", "in", "do", "done", "case", "esac",
    "\x7b", "\x7d", "!"]

/-- The characters in front of a text up to one that ends a word; `none` if a quote or an expansion is
among them. -/
def plainText : List Char → Option (List Char)
  | [] => some []
  | '\\' :: '\n' :: cs => plainText cs
  | c :: cs =>
    if isMeta c then some []
    else if c ∈ ['\\', '\'', '"', '$', '`'] then none
    else (plainText cs).map (c :: ·)

/-- The word ahead, if it has no quotes and no expansions; nothing is gone over. -/
def plainAhead (fuel : Nat) : Reading (Option String) := do
  skipBlanks fuel
  return ((plainText (← ahead)).filter (!·.isEmpty)).map String.ofList

/-- What stands ahead, as faults name it. An end of a line is gone over. -/
def aheadText (fuel : Nat) : Reading String := do
  skipBlanks fuel
  match ← ahead with
  | [] => return "end of file"
  | '\n' :: _ => skip 1; return "newline"
  | ';' :: ';' :: _ => return "\";;\""
  | '&' :: '&' :: _ => return "\"&&\""
  | '|' :: '|' :: _ => return "\"||\""
  | c :: _ =>
    if c = '<' || c = '>' then return "redirection"
    else if isMeta c then return "\"" ++ String.ofList [c] ++ "\""
    else
      match ← plainAhead fuel with
      | some s => if s ∈ reserved then return "\"" ++ s ++ "\"" else return "word"
      | none => return "word"

/-- Goes over a reserved word, which has to be ahead. -/
def expect (fuel : Nat) (s : String) : Reading Unit := do
  if (← plainAhead fuel) = some s then skip s.length
  else fail (.unexpected (← aheadText fuel) (some (inQuotes s)))

/-- Goes over blanks and ends of lines. -/
def skipLines : Nat → Reading Unit
  | 0 => return
  | fuel + 1 => do
    skipBlanks fuel
    match ← ahead with
    | '\n' :: _ => skip 1; skipLines fuel
    | _ => return

/-- Takes the assignment that a word is, if it is one. -/
def assignment? : Word → Option (String × Word)
  | .text s false :: ps =>
    let name := s.toList.takeWhile (· != '=')
    if name.length < s.length && isName (String.ofList name) then
      let value := String.ofList (s.toList.drop (name.length + 1))
      some (String.ofList name,
        findHomes true true (if value = "" then ps else .text value false :: ps))
    else none
  | _ => none

/-- Joins commands that follow one another. -/
def join : List Command → Command
  | [c] => c
  | cs => .sequence cs

/-- A command that begins at a line, with redirections around it if there are any. -/
def redirect (line : Nat) (c : Command) (rs : List Redirection) : Command :=
  .placed line (if rs.isEmpty then c else .redirected c rs)

/-- Whether no command can start ahead. -/
def atEnd (fuel : Nat) : Reading Bool := do
  match ← ahead with
  | [] | '\n' :: _ | ')' :: _ => return true
  | ';' :: ';' :: _ => return true
  | _ =>
    match ← plainAhead fuel with
    | some s => return s ∈ ["then", "else", "elif", "fi", "do", "done", "esac", "\x7d"]
    | none => return false

/-! ### Words and commands -/

mutual

/-- Reads pieces up to their end, which is not gone over. -/
def pieces (fuel : Nat) (ending : Ending) (quoted : Bool) : Reading (List Piece) := do
  match fuel with
  | 0 => return []
  | fuel + 1 =>
    let cs ← ahead
    match cs with
    | [] =>
      match ending with
      | .word | .text => return []
      | .quote => fail (.unterminated "Unterminated quoted string")
      | .brace => fail (.unterminated "Missing '\x7d'")
    | c :: rest =>
      if (ending = .word && isMeta c) || (ending = .quote && c = '"') ||
          (ending = .brace && c = '}') then return []
      else
        match c with
        | '\\' =>
          match rest with
          | [] => skip 1; return consText "\\" quoted (← pieces fuel ending quoted)
          | '\n' :: _ => skip 2; pieces fuel ending quoted
          | d :: _ =>
            skip 2
            let isEscaped := !quoted || d ∈ ['$', '`', '\\'] || (d = '"' && ending ≠ .text) ||
              (d = '}' && ending = .brace)
            let s := String.ofList (if isEscaped then [d] else ['\\', d])
            return consText s true (← pieces fuel ending quoted)
        | '\'' =>
          if quoted then skip 1; return consText "'" true (← pieces fuel ending quoted)
          else
            let inner := rest.takeWhile (· != '\'')
            if inner.length = rest.length then fail (.unterminated "Unterminated quoted string")
            else
              skip (inner.length + 2)
              return .text (String.ofList inner) true :: (← pieces fuel ending quoted)
        | '"' =>
          if quoted && ending = .brace then
            skip 1
            let inner ← pieces fuel .quote true
            skip 1
            return inner ++ (← pieces fuel ending quoted)
          else if quoted then skip 1; return consText "\"" true (← pieces fuel ending quoted)
          else
            skip 1
            let inner ← pieces fuel .quote true
            skip 1
            return hold inner ++ (← pieces fuel ending quoted)
        | '$' =>
          match ← substitution fuel quoted with
          | some p => return p :: (← pieces fuel ending quoted)
          | none => skip 1; return consText "$" quoted (← pieces fuel ending quoted)
        | '`' =>
          skip 1
          let script ← takeBackquoted quoted fuel []
          let after ← get
          set { rest := script : Cursor }
          let cs ← commands fuel false
          set after
          return .output (join cs) quoted :: (← pieces fuel ending quoted)
        | c => skip 1; return consText (String.ofList [c]) quoted (← pieces fuel ending quoted)

/-- Reads what a dollar sign stands for; `none` for itself. -/
def substitution (fuel : Nat) (quoted : Bool) : Reading (Option Piece) := do
  match fuel with
  | 0 => return none
  | fuel + 1 =>
    match ← ahead with
    | '$' :: '(' :: '(' :: _ =>
      skip 3
      let inner ← takeCalculation fuel 0 []
      let after ← get
      set { after with rest := inner.toList }
      let ps ← pieces fuel .text true
      set after
      return some (.number ps quoted)
    | '$' :: '(' :: _ =>
      skip 2
      let cs ← commands fuel false
      skipBlanks fuel
      match ← ahead with
      | ')' :: _ => skip 1; return some (.output (join cs) quoted)
      | _ => fail (.unexpected (← aheadText fuel) (some (inQuotes ")")))
    | '$' :: '{' :: _ => skip 2; return some (← braced fuel quoted)
    | '$' :: cs =>
      match parameterAhead cs with
      | some name => skip (1 + name.length); return some (.parameter name .value quoted)
      | none => return none
    | _ => return none

/-- Reads the use of a parameter behind its opening brace. One that has no meaning is read up to its
closing brace all the same. -/
def braced (fuel : Nat) (quoted : Bool) : Reading Piece := do
  match fuel with
  | 0 => return default
  | fuel + 1 =>
    let malformed : Reading Piece := finish fuel "" quoted fun _ => .malformed
    match ← ahead with
    | '#' :: '}' :: _ => skip 2; return .parameter "#" .value quoted
    | '#' :: cs =>
      match longName cs with
      | some name =>
        skip (1 + name.length)
        match ← ahead with
        | '}' :: _ => skip 1; return .parameter name .length quoted
        | _ => malformed
      | none => malformed
    | cs =>
      match longName cs with
      | none => malformed
      | some name =>
        skip name.length
        match ← ahead with
        | '}' :: _ => skip 1; return .parameter name .value quoted
        | ':' :: '-' :: _ => skip 2; finish fuel name quoted (.otherwise true)
        | ':' :: '=' :: _ => skip 2; finish fuel name quoted (.assign true)
        | ':' :: '+' :: _ => skip 2; finish fuel name quoted (.instead true)
        | ':' :: '?' :: _ => skip 2; finish fuel name quoted (.require true)
        | '-' :: _ => skip 1; finish fuel name quoted (.otherwise false)
        | '=' :: _ => skip 1; finish fuel name quoted (.assign false)
        | '+' :: _ => skip 1; finish fuel name quoted (.instead false)
        | '?' :: _ => skip 1; finish fuel name quoted (.require false)
        | '#' :: '#' :: _ => skip 2; finishPattern fuel name quoted (.dropFront true)
        | '#' :: _ => skip 1; finishPattern fuel name quoted (.dropFront false)
        | '%' :: '%' :: _ => skip 2; finishPattern fuel name quoted (.dropBack true)
        | '%' :: _ => skip 1; finishPattern fuel name quoted (.dropBack false)
        | _ => malformed
where
  longName (cs : List Char) : Option String :=
    match cs with
    | c :: _ => if c.isDigit then some (String.ofList (cs.takeWhile Char.isDigit))
                else parameterAhead cs
    | [] => none

/-- Reads the word of a use, up to its closing brace. -/
def finish (fuel : Nat) (name : String) (quoted : Bool) (use : List Piece → Use) :
    Reading Piece := do
  match fuel with
  | 0 => return default
  | fuel + 1 =>
    let word ← pieces fuel .brace quoted
    skip 1
    return .parameter name (use (if quoted then word else findHomes false true word)) quoted

/-- Reads the pattern of a use, up to its closing brace. Quotes around the use do not reach into it. -/
def finishPattern (fuel : Nat) (name : String) (quoted : Bool) (use : List Piece → Use) :
    Reading Piece := do
  match fuel with
  | 0 => return default
  | fuel + 1 =>
    let word ← pieces fuel .brace false
    skip 1
    return .parameter name (use (findHomes false true word)) quoted

/-- Reads a word; `none` if there is none ahead. -/
def word? (fuel : Nat) : Reading (Option Word) := do
  match fuel with
  | 0 => return none
  | fuel + 1 =>
    skipBlanks fuel
    match ← peek with
    | none => return none
    | some c =>
      if isMeta c then return none
      else return some (findHomes false true (← pieces fuel .word false))

/-- Reads the redirection ahead, if there is one. -/
def redirection? (fuel : Nat) : Reading (Option Redirection) := do
  match fuel with
  | 0 => return none
  | fuel + 1 =>
    skipBlanks fuel
    let here ← get
    let digits := here.rest.takeWhile Char.isDigit
    let number := (String.ofList digits).toNat?
    let rest := here.rest.drop digits.length
    let use (n : Nat) (default : Nat) (d : Direction) : Reading (Option Redirection) := do
      skip (digits.length + n)
      match ← word? fuel with
      | some w => return some ⟨number.getD default, d, w⟩
      | none => fail (.unexpected (← aheadText fuel) none)
    match rest with
    | '<' :: '<' :: cs =>
      let dash := cs.head? = some '-'
      skip (digits.length + if dash then 3 else 2)
      match ← word? fuel with
      | none => fail (.unexpected (← aheadText fuel) none)
      | some w =>
        let stop := String.join (w.map fun
          | .text s _ => s
          | _ => "")
        let quoted := w.any fun
          | .text _ q => q
          | _ => false
        -- The text starts on the next line; it is taken out from there.
        let after ← get
        let lineRest := after.rest.takeWhile (· != '\n')
        set { rest := after.rest.drop (lineRest.length + 1), line := after.line : Cursor }
        let text ← takeText dash stop fuel []
        let behind ← get
        let inner ←
          if quoted then pure [Piece.text text true]
          else
            set { rest := text.toList, line := after.line + after.taken + 1 : Cursor }
            pieces fuel .text true
        set { after with
          rest := lineRest ++ '\n' :: behind.rest, taken := after.taken + (behind.line - after.line) }
        return some ⟨number.getD 0, .here, inner⟩
    | '<' :: '&' :: _ => use 2 0 .copy
    | '<' :: '>' :: _ => use 2 0 .readWrite
    | '<' :: _ => use 1 0 .read
    | '>' :: '>' :: _ => use 2 1 .append
    | '>' :: '&' :: _ => use 2 1 .copy
    | '>' :: '|' :: _ => use 2 1 .overwrite
    | '>' :: _ => use 1 1 .write
    | _ => return none

/-- Reads all redirections ahead. -/
def redirections (fuel : Nat) : Reading (List Redirection) := do
  match fuel with
  | 0 => return []
  | fuel + 1 =>
    match ← redirection? fuel with
    | some r => return r :: (← redirections fuel)
    | none => return []

/-- Reads the parts of a simple command. -/
def simpleParts (fuel : Nat) (as : List (String × Word)) (ws : List Word) (rs : List Redirection) :
    Reading (List (String × Word) × List Word × List Redirection) := do
  match fuel with
  | 0 => return (as.reverse, ws.reverse, rs.reverse)
  | fuel + 1 =>
    match ← redirection? fuel with
    | some r => simpleParts fuel as ws (r :: rs)
    | none =>
      match ← word? fuel with
      | none => return (as.reverse, ws.reverse, rs.reverse)
      | some w =>
        match ws, assignment? w with
        | [], some a => simpleParts fuel (a :: as) ws rs
        | _, _ => simpleParts fuel as (w :: ws) rs

/-- Reads words up to the end of the line or a semicolon. -/
def words (fuel : Nat) : Reading (List Word) := do
  match fuel with
  | 0 => return []
  | fuel + 1 =>
    match ← word? fuel with
    | some w => return w :: (← words fuel)
    | none => return []

/-- Reads the patterns of a branch, up to their bracket. -/
def patterns (fuel : Nat) : Reading (List Word) := do
  match fuel with
  | 0 => return []
  | fuel + 1 =>
    match ← word? fuel with
    | none =>
      if (← ahead).isEmpty then fail (.unexpected "end of file" (some (inQuotes ")")))
      else fail (.unexpected (← aheadText fuel) none)
    | some w =>
      skipBlanks fuel
      match ← ahead with
      | '|' :: _ => skip 1; return w :: (← patterns fuel)
      | ')' :: _ => skip 1; return [w]
      | _ => fail (.unexpected (← aheadText fuel) (some (inQuotes ")")))

/-- Reads commands up to something that cannot start one. With `line` it stops behind the end of the
first line. -/
def commands (fuel : Nat) (line : Bool) : Reading (List Command) := do
  match fuel with
  | 0 => return []
  | fuel + 1 =>
    if !line then skipLines fuel
    skipBlanks fuel
    if ← atEnd fuel then return []
    else
      let c ← andOr fuel
      skipBlanks fuel
      match ← ahead with
      | '&' :: '&' :: _ => fail (.unexpected "\"&&\"" none)
      | ';' :: ';' :: _ => return [c]
      | '&' :: _ => skip 1; return .background c :: (← commands fuel line)
      | ';' :: _ => skip 1; return c :: (← commands fuel line)
      | '\n' :: _ => if line then return [c] else skip 1; return c :: (← commands fuel line)
      | _ => return [c]

/-- Reads the commands that have to stand at a place. At the end of the text there may be none: what
should follow them is missed there. -/
def body (fuel : Nat) : Reading Command := do
  match fuel with
  | 0 => return default
  | fuel + 1 =>
    match ← commands fuel false with
    | [] => if (← ahead).isEmpty then return default else fail (.unexpected (← aheadText fuel) none)
    | cs => return join cs

/-- Reads commands with `&&` and `||` between them. -/
def andOr (fuel : Nat) : Reading Command := do
  match fuel with
  | 0 => return default
  | fuel + 1 => andOrRest fuel (← pipeline fuel)

/-- Reads what follows the command in front. -/
def andOrRest (fuel : Nat) (first : Command) : Reading Command := do
  match fuel with
  | 0 => return first
  | fuel + 1 =>
    skipBlanks fuel
    match ← ahead with
    | '&' :: '&' :: _ =>
      skip 2; skipLines fuel
      andOrRest fuel (.both first (← pipeline fuel))
    | '|' :: '|' :: _ =>
      skip 2; skipLines fuel
      andOrRest fuel (.either first (← pipeline fuel))
    | _ => return first

/-- Reads a pipeline. -/
def pipeline (fuel : Nat) : Reading Command := do
  match fuel with
  | 0 => return default
  | fuel + 1 =>
    if (← plainAhead fuel) = some "!" then
      skip 1
      return .negation (← pipeline fuel)
    else
      match ← stages fuel with
      | [c] => return c
      | cs => return .pipeline cs

/-- Reads the commands of a pipeline. -/
def stages (fuel : Nat) : Reading (List Command) := do
  match fuel with
  | 0 => return []
  | fuel + 1 =>
    let c ← command fuel
    skipBlanks fuel
    match ← ahead with
    | '|' :: '|' :: _ => return [c]
    | '|' :: _ => skip 1; skipLines fuel; return c :: (← stages fuel)
    | _ => return [c]

/-- Reads a command. -/
def command (fuel : Nat) : Reading Command := do
  match fuel with
  | 0 => return default
  | fuel + 1 =>
    skipBlanks fuel
    let line := (← get).line
    match ← ahead with
    | '(' :: _ =>
      skip 1
      let c ← body fuel
      skipBlanks fuel
      match ← ahead with
      | ')' :: _ => skip 1
      | _ => fail (.unexpected (← aheadText fuel) (some (inQuotes ")")))
      return redirect line (.subshell c) (← redirections fuel)
    | _ =>
      match ← plainAhead fuel with
      | some "\x7b" =>
        skip 1
        let c ← body fuel
        expect fuel "\x7d"
        return redirect line c (← redirections fuel)
      | some "if" => skip 2; let c ← branches fuel; return redirect line c (← redirections fuel)
      | some "while" => skip 5; let c ← loop fuel false; return redirect line c (← redirections fuel)
      | some "until" => skip 5; let c ← loop fuel true; return redirect line c (← redirections fuel)
      | some "for" => skip 3; let c ← forEach fuel; return redirect line c (← redirections fuel)
      | some "case" => skip 4; let c ← choice fuel; return redirect line c (← redirections fuel)
      | some s =>
        if s ∈ reserved then fail (.unexpected ("\"" ++ s ++ "\"") none) else simple fuel
      | none => simple fuel

/-- Reads a simple command, or the definition of a function. -/
def simple (fuel : Nat) : Reading Command := do
  match fuel with
  | 0 => return default
  | fuel + 1 =>
    let line := (← get).line
    let parts ← simpleParts fuel [] [] []
    match parts, ← ahead with
    | ([], [], []), _ => fail (.unexpected (← aheadText fuel) none)
    | ([], [w], []), '(' :: _ =>
      skip 1
      skipBlanks fuel
      match ← ahead with
      | ')' :: _ =>
        skip 1
        match (plain? w).filter fun s => isName s && !specialNames.contains s with
        | some name => skipLines fuel; return .definition name (← command fuel)
        | none => fail .badFunctionName
      | _ =>
        fail (.unexpected (← aheadText fuel) (some (inQuotes ")")))
    | (as, ws, rs), _ => return .simple line as ws rs

/-- Reads a condition and what depends on it. -/
def branches (fuel : Nat) : Reading Command := do
  match fuel with
  | 0 => return default
  | fuel + 1 =>
    let test ← body fuel
    expect fuel "then"
    let yes ← body fuel
    match ← plainAhead fuel with
    | some "elif" => skip 4; return .conditional test yes (some (← branches fuel))
    | some "else" =>
      skip 4
      let no ← body fuel
      expect fuel "fi"
      return .conditional test yes (some no)
    | _ => expect fuel "fi"; return .conditional test yes none

/-- Reads the test and the body of a loop. -/
def loop (fuel : Nat) (isUntil : Bool) : Reading Command := do
  match fuel with
  | 0 => return default
  | fuel + 1 =>
    let test ← body fuel
    expect fuel "do"
    let c ← body fuel
    expect fuel "done"
    return .loop isUntil test c

/-- Reads a loop over words. -/
def forEach (fuel : Nat) : Reading Command := do
  match fuel with
  | 0 => return default
  | fuel + 1 =>
    match ← plainAhead fuel with
    | none => fail .badName
    | some name =>
      if !isName name then fail .badName
      else
        skip name.length
        skipLines fuel
        let ws ← do
          if (← plainAhead fuel) = some "in" then
            skip 2
            let ws ← words fuel
            pure (some ws)
          else pure none
        skipBlanks fuel
        match ← ahead with
        | ';' :: ';' :: _ => pure ()
        | ';' :: _ => skip 1
        | '\n' :: _ => pure ()
        | _ => if ws.isSome then fail (.unexpected (← aheadText fuel) none)
        skipLines fuel
        expect fuel "do"
        let c ← body fuel
        expect fuel "done"
        return .each name ws c

/-- Reads a choice. -/
def choice (fuel : Nat) : Reading Command := do
  match fuel with
  | 0 => return default
  | fuel + 1 =>
    match ← word? fuel with
    | none => fail (.unexpected (← aheadText fuel) (some "word"))
    | some w =>
      skipLines fuel
      expect fuel "in"
      return .choice w (← choiceBranches fuel)

/-- Reads the branches of a choice, up to its end. -/
def choiceBranches (fuel : Nat) : Reading (List (List Word × Command)) := do
  match fuel with
  | 0 => return []
  | fuel + 1 =>
    skipLines fuel
    if (← plainAhead fuel) = some "esac" then skip 4; return []
    else
      match ← ahead with
      | '(' :: _ => skip 1
      | _ => pure ()
      let ps ← patterns fuel
      let c ← commands fuel false
      skipLines fuel
      match ← ahead with
      | ';' :: ';' :: _ =>
        skip 2
        return (ps, .sequence c) :: (← choiceBranches fuel)
      | _ =>
        if (← plainAhead fuel) = some "esac" then skip 4; return [(ps, .sequence c)]
        else fail (.unexpected (← aheadText fuel) (some (inQuotes ";;")))

end

/-- Reads the next line of commands; `none` at the end of the script. -/
def line? (fuel : Nat) : Reading (Option Command) := do
  skipLines fuel
  match ← ahead with
  | [] => return none
  | _ =>
    match ← commands fuel true with
    | [] => fail (.unexpected (← aheadText fuel) none)
    | cs =>
      skipBlanks fuel
      match ← ahead with
      | [] => return some (join cs)
      | '\n' :: _ => skip 1; return some (join cs)
      | _ => fail (.unexpected (← aheadText fuel) none)

end Reading

/-- Reads the next line of commands of a script from the line `line` on: what it is, what follows, and
the number of the line there. -/
def readLine (script : List Char) (line : Nat) :
    Except (SyntaxFault × Nat) (Option Command × List Char × Nat) :=
  match (Reading.line? (16 * script.length + 32)).run { rest := script, line } with
  | .ok (c, cursor) => .ok (c, cursor.rest, cursor.line)
  | .error e => .error e

end DebugHost.Shell
