/-
Module: Paradigm.Json
Layer: Data
Purpose: JSON values. Integers and fractional numbers are kept apart and objects keep the order of
  their members. The sorted form of a value forgets that order, as the schema checks require.
Imports: Paradigm.Binary64
Main exports: Json, Json.Number, Json.sorted, Json.member?
-/
import Paradigm.Binary64

namespace Paradigm

/-- A JSON number: an integer literal, or any other literal as a floating-point number. -/
inductive Json.Number where
  | int (value : Int)
  | float (value : Binary64)
deriving DecidableEq

/-- A JSON value. Members of an object come in the order of the text. -/
inductive Json where
  | null
  | bool (value : Bool)
  | num (value : Json.Number)
  | str (value : String)
  | arr (items : List Json)
  | obj (members : List (String × Json))

namespace Json

instance : Inhabited Json := ⟨.null⟩

/-- A natural number as a value. -/
def nat (n : Nat) : Json := .num (.int n)

/-- A list of texts as a value. -/
def strings (xs : List String) : Json := .arr (xs.map .str)

/-- The first member with a name. -/
def member? : Json → String → Option Json
  | .obj members, name => members.lookup name
  | _, _ => none

/-! ### Sorted form -/

/-- Whether characters come before others by the number of the first character that differs. A
beginning comes before what it begins. -/
def precedes : List Char → List Char → Bool
  | _, [] => false
  | [], _ :: _ => true
  | c :: cs, d :: ds => c.toNat < d.toNat || (c = d && precedes cs ds)

/-- Puts a member before the first one with a greater name. A member of the same name that is
already there stays, since it came later in the text. -/
def insertMember (name : String) (value : Json) : List (String × Json) → List (String × Json)
  | [] => [(name, value)]
  | (other, kept) :: rest =>
      if precedes name.toList other.toList then (name, value) :: (other, kept) :: rest
      else if name = other then (other, kept) :: rest
      else (other, kept) :: insertMember name value rest

mutual

/-- The value with the members of every object in the order of their names, the last of several
with one name. -/
def sorted : Json → Json
  | .arr items => .arr (sortedItems items)
  | .obj members => .obj (sortedMembers members)
  | other => other

/-- Sorts within each element. -/
def sortedItems : List Json → List Json
  | [] => []
  | item :: rest => item.sorted :: sortedItems rest

/-- Sorts within each member and the members among themselves. -/
def sortedMembers : List (String × Json) → List (String × Json)
  | [] => []
  | (name, value) :: rest => insertMember name value.sorted (sortedMembers rest)

end

example : (obj [("b", nat 1), ("a", null), ("b", nat 2)]).sorted
    = obj [("a", null), ("b", nat 2)] := by
  rfl

end Json

end Paradigm
