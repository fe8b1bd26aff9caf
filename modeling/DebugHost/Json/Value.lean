import DebugHost.Decimal

/-! # JSON values

Values as a document gives them: the members of an object stand in document order, and a name may be
given more than once. `Value.canonical` is the value as a free-form part of a message keeps it: the
members of every object sorted by name, of members of one name the last. -/

namespace DebugHost.Json

open DebugHost.Decimal

/-- A JSON value. Whole numbers of 64 bits are `int`, all other numbers are `real`. -/
inductive Value where
  | null
  | bool (b : Bool)
  | int (n : Int)
  | real (x : Binary64)
  | str (s : String)
  | arr (items : List Value)
  | obj (members : List (String × Value))
deriving Inhabited, BEq, Repr

namespace Value

/-- Puts a member into a list of members sorted by name, in place of one of the same name. -/
def insertMember (name : String) (value : Value) :
    List (String × Value) → List (String × Value)
  | [] => [(name, value)]
  | (n, v) :: rest =>
    if name < n then (name, value) :: (n, v) :: rest
    else if name = n then (name, value) :: rest
    else (n, v) :: insertMember name value rest

mutual

/-- The value with the members of every object sorted by name, of members of one name the last. -/
def canonical : Value → Value
  | .arr items => .arr (canonicalItems items)
  | .obj members => .obj (canonicalMembers members [])
  | v => v

/-- The items of an array in canonical form. -/
def canonicalItems : List Value → List Value
  | [] => []
  | v :: rest => canonical v :: canonicalItems rest

/-- The members of an object in canonical form, put into `acc`. -/
def canonicalMembers : List (String × Value) → List (String × Value) → List (String × Value)
  | [], acc => acc
  | (n, v) :: rest, acc => canonicalMembers rest (insertMember n (canonical v) acc)

end

/-- The value of the last member of a name. -/
def lookup? (name : String) (members : List (String × Value)) : Option Value :=
  (members.reverse.find? (·.1 == name)).map (·.2)

/-- The member of a name of an object; `null` stands for a member that is not there. -/
def member (v : Value) (name : String) : Value :=
  match v with
  | .obj members => (lookup? name members).getD .null
  | _ => .null

end Value
end DebugHost.Json
