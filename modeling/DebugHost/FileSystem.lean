import DebugHost.Path
import DebugHost.Text.Utf8

/-! # Files

A file system as a value: files with their octets, and directories. Every directory above an entry is
there too. Paths are taken from a working directory, and `..` means the directory above. -/

namespace DebugHost

/-- Why the system refuses something. -/
inductive OsError where
  | notFound
  | badFormat
  | permissionDenied
  | notDirectory
  | isDirectory
  | nameTooLong
  | tooManyLinks
  | networkUnreachable
  /-- The text of a command has a character in it that ends texts; it does not come to the system. -/
  | nulInCommand
  /-- A path has a character in it that ends texts; it does not come to the system. -/
  | nulInPath
deriving DecidableEq, Repr

/-- The number of an error, if the system gives one. -/
def OsError.code? : OsError → Option Nat
  | .notFound => some 2
  | .badFormat => some 8
  | .permissionDenied => some 13
  | .notDirectory => some 20
  | .isDirectory => some 21
  | .nameTooLong => some 36
  | .tooManyLinks => some 40
  | .networkUnreachable => some 101
  | .nulInCommand => none
  | .nulInPath => none

/-- The wording of an error by itself. -/
def OsError.text : OsError → String
  | .notFound => "No such file or directory"
  | .badFormat => "Exec format error"
  | .permissionDenied => "Permission denied"
  | .notDirectory => "Not a directory"
  | .isDirectory => "Is a directory"
  | .nameTooLong => "File name too long"
  | .tooManyLinks => "Too many levels of symbolic links"
  | .networkUnreachable => "Network is unreachable"
  | .nulInCommand => "nul byte found in provided data"
  | .nulInPath => "file name contained an unexpected NUL byte"

/-- The wording of an error with its number. -/
def OsError.message (e : OsError) : String :=
  match e.code? with
  | some n => e.text ++ " (os error " ++ toString n ++ ")"
  | none => e.text

/-- What a name in a directory stands for. -/
inductive Entry where
  | file (octets : List UInt8) (executable : Bool)
  | directory
deriving DecidableEq, Repr

/-- A file system. -/
structure FileSystem where
  /-- The entries, by the names on the way from the root directory. -/
  entries : List (List String × Entry) := []
deriving Inhabited

namespace FileSystem

/-- The names on the way to a path from the directory `cwd`. -/
def trail (cwd : List String) (p : Path) : List String :=
  p.components.foldl (fun names c =>
    match c with
    | .root => []
    | .here => names
    | .parent => names.dropLast
    | .name n => names ++ [n]) (if p.isAbsolute then [] else cwd)

/-- The entry of a place. The directories above an entry are there even if they are not listed. -/
def at? (fs : FileSystem) (names : List String) : Option Entry :=
  if names = [] then some .directory
  else
    match fs.entries.find? (·.1 == names) with
    | some (_, e) => some e
    | none => if fs.entries.any fun (n, _) => names.isPrefixOf n then some .directory else none

/-- The file that is always empty. -/
def nullDevice : List String := ["dev", "null"]

/-- Files and directories that every system has. -/
def standard : List (List String × Entry) :=
  [(nullDevice, .file [] false), (["tmp"], .directory), (["etc"], .directory), (["root"], .directory),
    (["bin"], .directory), (["usr", "bin"], .directory)]

/-! ### Paths -/

/-- Most octets of a name. -/
def nameLimit : Nat := 255

/-- A path has fewer octets than this. -/
def pathLimit : Nat := 4096

/-- Whether a text has the character in it that ends texts for the system. -/
def hasNul (text : String) : Bool := text.toList.contains (Char.ofNat 0)

/-- Checks that one can go on from a place: that it is a directory. -/
def enter (fs : FileSystem) (names : List String) : Except OsError Unit :=
  match fs.at? names with
  | some .directory => .ok ()
  | some (.file ..) => .error .notDirectory
  | none => .error .notFound

/-- The place to which pieces of a path lead from a place. Nothing needs to be there, but everything on
the way has to be a directory. -/
def walk (fs : FileSystem) : List (List Char) → List String → Except OsError (List String)
  | [], names => .ok names
  | p :: ps, names => do
    fs.enter names
    if p = [] ∨ p = ['.'] then fs.walk ps names
    else if p = ['.', '.'] then fs.walk ps names.dropLast
    else
      let name := String.ofList p
      if nameLimit < name.utf8ByteSize then .error .nameTooLong
      else fs.walk ps (names ++ [name])

/-- The place that a path means. No path has the empty text. -/
def locate (fs : FileSystem) (cwd : List String) (p : Path) : Except OsError (List String) :=
  if hasNul p.text then .error .nulInPath
  else if p.text = "" then .error .notFound
  else if pathLimit ≤ p.text.utf8ByteSize then .error .nameTooLong
  else fs.walk (Path.pieces p.text.toList) (if p.isAbsolute then [] else cwd)

/-- The entry of a path. -/
def lookup (fs : FileSystem) (cwd : List String) (p : Path) : Except OsError Entry :=
  match fs.locate cwd p with
  | .error e => .error e
  | .ok names =>
    match fs.at? names with
    | some e => .ok e
    | none => .error .notFound

/-- Whether there is something at a path. -/
def isThere (fs : FileSystem) (cwd : List String) (p : Path) : Bool := (fs.lookup cwd p).isOk

/-- Whether there is a file at a path. -/
def isFile (fs : FileSystem) (cwd : List String) (p : Path) : Bool :=
  match fs.lookup cwd p with
  | .ok (.file ..) => true
  | _ => false

/-- Whether there is a directory at a path. -/
def isDirectory (fs : FileSystem) (cwd : List String) (p : Path) : Bool :=
  match fs.lookup cwd p with
  | .ok .directory => true
  | _ => false

/-- The octets of a file. -/
def read (fs : FileSystem) (cwd : List String) (p : Path) : Except OsError (List UInt8) :=
  match fs.lookup cwd p with
  | .ok (.file octets _) => .ok octets
  | .ok .directory => .error .isDirectory
  | .error e => .error e

/-- Puts an entry at a place. -/
def put (fs : FileSystem) (names : List String) (e : Entry) : FileSystem :=
  ⟨fs.entries.filter (·.1 != names) ++ [(names, e)]⟩

/-- Writes a file: behind its octets, or in place of them. The directory must be there. What is written
to the null device is lost. -/
def write (fs : FileSystem) (cwd : List String) (p : Path) (append : Bool) (octets : List UInt8) :
    Except OsError FileSystem :=
  match fs.locate cwd p with
  | .error .notFound =>
    if p.text.endsWith "/" && (fs.locate cwd ⟨String.ofList p.text.toList.dropLast⟩).isOk then
      .error .isDirectory
    else .error .notFound
  | .error e => .error e
  | .ok names =>
    if names = nullDevice then .ok fs
    else
      match fs.at? names with
      | some .directory => .error .isDirectory
      | some (.file old x) => .ok (fs.put names (.file (if append then old ++ octets else octets) x))
      | none => .ok (fs.put names (.file octets false))

/-- Removes what is at a place. The directory in which it was stays there. -/
def remove (fs : FileSystem) (names : List String) : FileSystem :=
  let rest : FileSystem := ⟨fs.entries.filter fun (n, _) => !names.isPrefixOf n⟩
  if (rest.at? names.dropLast).isSome then rest else rest.put names.dropLast .directory

end FileSystem
end DebugHost
