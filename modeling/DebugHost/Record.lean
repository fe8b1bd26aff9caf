/-! # Records

How a structure with named fields is read from a list of named values, or from a plain list in the
order of the fields. The first fault in document order wins; a field that is not there is reported
only when every field that is there is good. -/

namespace DebugHost

/-! ### Mismatches -/

/-- Why a value does not fit a type. -/
inductive Mismatch where
  /-- The value is of another kind: `found` describes it, `expected` the type. -/
  | wrongType (found expected : String)
  /-- The number is not in the range of the type. -/
  | outOfRange (n : Int) (expected : String)
  /-- A list has not the length that the type needs. -/
  | wrongLength (n : Nat) (expected : String)
  /-- A field that must be given is not there. -/
  | missingField (name : String)
  /-- A field is given twice. -/
  | duplicateField (name : String)
  /-- A field is given that the type does not have. -/
  | unknownField (name : String) (known : List String)
  /-- A tag is given that the type does not have. -/
  | unknownVariant (name : String) (known : List String)
deriving DecidableEq, Repr

/-- A name between grave accents. -/
def ticked (s : String) : String := "`" ++ s ++ "`"

/-- The choice between some names, as an error message words it. -/
def oneOf : List String → String
  | [] => "there are no fields"
  | [a] => "expected " ++ ticked a
  | [a, b] => "expected " ++ ticked a ++ " or " ++ ticked b
  | names => "expected one of " ++ String.intercalate ", " (names.map ticked)

/-- The wording of a mismatch. -/
def Mismatch.message : Mismatch → String
  | .wrongType found expected => "invalid type: " ++ found ++ ", expected " ++ expected
  | .outOfRange n expected =>
    "invalid value: integer " ++ ticked (toString n) ++ ", expected " ++ expected
  | .wrongLength n expected => "invalid length " ++ toString n ++ ", expected " ++ expected
  | .missingField name => "missing field " ++ ticked name
  | .duplicateField name => "duplicate field " ++ ticked name
  | .unknownField name known => "unknown field " ++ ticked name ++ ", " ++ oneOf known
  | .unknownVariant name known => "unknown variant " ++ ticked name ++ ", " ++ oneOf known

/-! ### Readers of records -/

/-- A reader of a structure `α` from named values `V`: the fields it knows in their order, the fault of
a value given for a field, and how to build the structure from good values. Building fails with the
name of a field that must be given and is not. -/
structure Record (V : Type) (α : Type) where
  /-- The fields in their order. -/
  names : List String
  /-- The fault of a value given for a field. -/
  fault : String → V → Option Mismatch
  /-- Builds the structure from the values of its fields. -/
  build : (String → Option V) → Except String α

namespace Record

variable {V α β : Type}

/-- A record without fields. -/
def pure (a : α) : Record V α := ⟨[], fun _ _ => none, fun _ => .ok a⟩

/-- Changes what is built. -/
def map (f : α → β) (r : Record V α) : Record V β :=
  ⟨r.names, r.fault, fun get => (r.build get).map f⟩

/-- Puts the fields of two records one behind the other. -/
def seq (f : Record V (α → β)) (x : Unit → Record V α) : Record V β :=
  let x := x ()
  ⟨f.names ++ x.names,
    fun n v => if n ∈ f.names then f.fault n v else x.fault n v,
    fun get =>
      match f.build get with
      | .error e => .error e
      | .ok g => (x.build get).map g⟩

instance : Applicative (Record V) where
  pure := Record.pure
  map := Record.map
  seq := Record.seq

/-- The fault of a value that is read with `read`. -/
def faultOf (read : V → Except Mismatch α) (v : V) : Option Mismatch :=
  match read v with
  | .ok _ => none
  | .error e => some e

/-- A field that must be given. -/
def required (name : String) (read : V → Except Mismatch α) : Record V α :=
  ⟨[name], fun _ v => faultOf read v, fun get =>
    match get name with
    | none => .error name
    | some v => (read v).mapError fun _ => name⟩

/-- A field that stands for `default` when it is not given. -/
def defaulted (name : String) (default : α) (read : V → Except Mismatch α) : Record V α :=
  ⟨[name], fun _ v => faultOf read v, fun get =>
    match get name with
    | none => .ok default
    | some v => (read v).mapError fun _ => name⟩

/-- The value given for a name. -/
def find (members : List (String × V)) (name : String) : Option V :=
  (members.find? (·.1 == name)).map (·.2)

/-- The first fault of some named values, of which the names `seen` stood further in front. In a
closed record a name that is no field is a fault. -/
def firstFault (r : Record V α) (closed : Bool) : List String → List (String × V) → Option Mismatch
  | _, [] => none
  | seen, (n, v) :: rest =>
    if n ∈ r.names then
      if n ∈ seen then some (.duplicateField n)
      else (r.fault n v).or (firstFault r closed (n :: seen) rest)
    else if closed then some (.unknownField n r.names)
    else firstFault r closed seen rest

/-- Reads the structure from named values. -/
def ofMembers (r : Record V α) (closed : Bool) (members : List (String × V)) :
    Except Mismatch α :=
  match r.firstFault closed [] members with
  | some e => .error e
  | none => (r.build (find members)).mapError .missingField

/-- A number of elements in words. -/
def elements : Nat → String
  | 1 => "1 element"
  | n => toString n ++ " elements"

/-- How the structure `name` is described where a list is too short for it. -/
def shape (r : Record V α) (name : String) : String :=
  "struct " ++ name ++ " with " ++ elements r.names.length

/-- Reads the structure `name` from a plain list in the order of the fields. `excess` words what is
expected of a list that is too long, if that is a fault at all. -/
def ofItems (r : Record V α) (name : String) (excess : Option String) (items : List V) :
    Except Mismatch α :=
  let members := r.names.zip items
  match r.firstFault false [] members with
  | some e => .error e
  | none =>
    match r.build (find members) with
    | .error missing => .error (.wrongLength (r.names.idxOf missing) (r.shape name))
    | .ok a =>
      match excess with
      | some e => if r.names.length < items.length then .error (.wrongLength items.length e) else .ok a
      | none => .ok a

end Record
end DebugHost
