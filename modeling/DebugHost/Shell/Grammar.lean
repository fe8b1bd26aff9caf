/-! # Commands of the shell

The programs that a run starts are scripts for the shell, or small tools that a script calls. This
module holds the form of a script once it is read: words with their expansions, redirections, and
commands. -/

namespace DebugHost.Shell

/-- What a redirection does with a file descriptor. -/
inductive Direction where
  | read
  | write
  /-- It writes even where a file has to be kept. -/
  | overwrite
  | append
  | readWrite
  /-- It becomes a copy of another descriptor, or is closed. -/
  | copy
  /-- It reads the word itself. -/
  | here
deriving DecidableEq, Repr

mutual

/-- A part of a word. -/
inductive Piece where
  /-- A text as it stands. Quoted characters have no meaning beyond themselves. -/
  | text (s : String) (quoted : Bool)
  /-- The directory where a user is at home; without a name it is the user who runs the script. -/
  | home (user : String)
  /-- The value of a parameter, or something made of it. -/
  | parameter (name : String) (use : Use) (quoted : Bool)
  /-- What a command writes. -/
  | output (c : Command) (quoted : Bool)
  /-- What a command is going to have written that has been taken out. -/
  | awaited (quoted : Bool)
  /-- What a command has written. -/
  | written (s : String) (quoted : Bool)
  /-- The value of a calculation. -/
  | number (pieces : List Piece) (quoted : Bool)

/-- What a parameter is used for. Where `orEmpty` is there, it tells that an empty parameter counts as
one that is not set. -/
inductive Use where
  /-- Its value. -/
  | value
  /-- The length of its value. -/
  | length
  /-- Its value, or the word if it is not set. -/
  | otherwise (orEmpty : Bool) (word : List Piece)
  /-- The same, and the parameter is set to the word. -/
  | assign (orEmpty : Bool) (word : List Piece)
  /-- The word, if it is set. -/
  | instead (orEmpty : Bool) (word : List Piece)
  /-- Its value; it is an error if it is not set. -/
  | require (orEmpty : Bool) (word : List Piece)
  /-- Its value without what the pattern matches in front. -/
  | dropFront (longest : Bool) (pattern : List Piece)
  /-- Its value without what the pattern matches at the end. -/
  | dropBack (longest : Bool) (pattern : List Piece)
  /-- Nothing that has a meaning. -/
  | malformed

/-- A redirection. -/
structure Redirection where
  descriptor : Nat
  direction : Direction
  word : List Piece

/-- A command. A word in it is a list of pieces. -/
inductive Command where
  /-- Assignments, a command name with its arguments, and redirections; `line` is where it stands. -/
  | simple (line : Nat) (assignments : List (String × List Piece)) (words : List (List Piece))
      (redirections : List Redirection)
  /-- Commands that run side by side, each of which reads what the one before it writes. -/
  | pipeline (stages : List Command)
  /-- A command whose status is turned around. -/
  | negation (c : Command)
  /-- The second command runs if the first succeeds. -/
  | both (first second : Command)
  /-- The second command runs if the first fails. -/
  | either (first second : Command)
  | sequence (cs : List Command)
  /-- A command that is not waited for. -/
  | background (c : Command)
  | conditional (test yes : Command) (no : Option Command)
  /-- A loop that runs while the test succeeds, or until it does. -/
  | loop (isUntil : Bool) (test body : Command)
  /-- A loop over words; over the arguments if there are none. -/
  | each (name : String) (words : Option (List (List Piece))) (body : Command)
  /-- The first branch with a pattern that the word matches. -/
  | choice (word : List Piece) (branches : List (List (List Piece) × Command))
  /-- A command in a process of its own. -/
  | subshell (c : Command)
  | redirected (c : Command) (redirections : List Redirection)
  /-- A command that is no simple one and begins at a line. -/
  | placed (line : Nat) (c : Command)
  /-- Gives a name to a command. -/
  | definition (name : String) (body : Command)

end

instance : Inhabited Piece := ⟨.text "" false⟩

instance : Inhabited Command := ⟨.sequence []⟩

/-- A word. -/
abbrev Word := List Piece

/-- The text of a word that is a single text without quotes. -/
def plain? : Word → Option String
  | [.text s false] => some s
  | _ => none

/-- Commands that belong to the language: an error in them ends the shell. -/
def specialNames : List String :=
  [":", ".", "break", "continue", "eval", "exec", "exit", "export", "local", "readonly", "return",
    "set", "shift", "times", "trap", "unset"]

end DebugHost.Shell
