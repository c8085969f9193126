/-
Module: Paradigm.Schema.Diagnosis
Layer: Schema
Purpose: What a value lacks by a schema, as texts, with nothing for a value that fits. References
  at one value lead to ever simpler definitions, so a weight of schemas and the size of the value
  bound the search.
Imports: Paradigm.Schema, Paradigm.Json.Text
Main exports: Schema.diagnose, Schema.fits, Schema.weight, Schema.Definition.weight_schema_le
-/
import Paradigm.Json.Text
import Paradigm.Schema

namespace Paradigm.Schema

/-! ### Weights -/

/-- A bound on the work that a definition needs at one value. -/
def Definition.weight : Definition → Nat
  | .text => 60
  | .resource => 60
  | .pageText => 120
  | .feedback => 120
  | _ => 40

mutual

/-- The work that a schema needs at one value: elements and members are not counted. -/
def weight : Schema → Nat
  | .all keywords => keywordsWeight keywords + 1

/-- The work that keywords need at one value. -/
def keywordsWeight : List Keyword → Nat
  | [] => 0
  | keyword :: rest => keyword.weight + keywordsWeight rest + 1

/-- The work that a keyword needs at one value. -/
def Keyword.weight : Keyword → Nat
  | .anyOf schemas => schemasWeight schemas + 1
  | .oneOf schemas => schemasWeight schemas + 1
  | .exclude schema => schema.weight + 1
  | .ref definition => definition.weight + 1
  | _ => 1

/-- The work that schemas need at one value. -/
def schemasWeight : List Schema → Nat
  | [] => 0
  | schema :: rest => schema.weight + schemasWeight rest + 1

end

/-- References lead to what is simpler. -/
theorem Definition.weight_schema_le (d : Definition) : d.schema.weight ≤ d.weight := by
  cases d <;> decide

/-! ### Single demands -/

/-- The kinds of a value. -/
def Kind.holds : Kind → Json → Bool
  | .array, .arr _ => true
  | .boolean, .bool _ => true
  | .integer, .num (.int _) => true
  | .integer, .num (.float x) => x.isWhole
  | .null, .null => true
  | .number, .num _ => true
  | .object, .obj _ => true
  | .string, .str _ => true
  | _, _ => false

/-- Whether a number is at least a bound. -/
def atLeast (bound : Int) : Json.Number → Bool
  | .int i => bound ≤ i
  | .float x => x.geInt bound

/-- Whether a number is at most a bound. -/
def atMost (bound : Int) : Json.Number → Bool
  | .int i => i ≤ bound
  | .float x => x.leInt bound

/-- Whether a number is above a bound. -/
def above (bound : Int) : Json.Number → Bool
  | .int i => bound < i
  | .float x => x.gtInt bound

/-- A count with its noun. -/
def counted (count : Nat) (noun : String) : String :=
  toString count ++ " " ++ noun ++ (if count = 1 then "" else "s")

/-- The names of members that are not known. -/
def extraNames (known : List (String × Schema)) (given : List (String × Json)) : List String :=
  (given.map (·.1)).filter fun name => !(known.map (·.1)).contains name

/-- What is wrong with names that should not be there, all in one. -/
def unexpected (names : List String) : List String :=
  if names.isEmpty then []
  else ["Additional properties are not allowed ("
    ++ ", ".intercalate (names.map fun name => "'" ++ name ++ "'")
    ++ (if names.length = 1 then " was unexpected)" else " were unexpected)")]

/-- Kinds that a value should have been of, in their fixed order. -/
def expectedKinds (wanted : List Kind) : String :=
  match Kind.list.filter wanted.contains with
  | [k] => "type " ++ Json.quoted k.name
  | ks => "types " ++ ", ".intercalate (ks.map fun k => Json.quoted k.name)

/-- What fails where a condition does not hold. -/
def demand (condition : Bool) (diagnostic : String) : List String :=
  if condition then [] else [diagnostic]

/-- What a keyword without schemas demands of a value. -/
def Keyword.lacking : Keyword → Json → List String
  | .constant value, v =>
      match v with
      | .bool b => demand (b == value) ((Json.bool value).compact ++ " was expected")
      | _ => [(Json.bool value).compact ++ " was expected"]
  | .exclusiveMinimum bound, .num n =>
      demand (above bound n)
        s!"{n.text} is less than or equal to the minimum of {bound}"
  | .maximum bound, .num n =>
      demand (atMost bound n) s!"{n.text} is greater than the maximum of {bound}"
  | .minimum bound, .num n =>
      demand (atLeast bound n) s!"{n.text} is less than the minimum of {bound}"
  | .minItems count, .arr xs =>
      demand (count ≤ xs.length)
        ((Json.arr xs).compact ++ " has less than " ++ counted count "item")
  | .minLength count, .str s =>
      demand (count ≤ s.length)
        (Json.quoted s ++ " is shorter than " ++ counted count "character")
  | .required names, .obj given =>
      names.flatMap fun name =>
        demand (given.any fun member => member.1 == name)
          (Json.quoted name ++ " is a required property")
  | .kinds wanted, v =>
      demand (wanted.any fun k => k.holds v) (v.compact ++ " is not of " ++ expectedKinds wanted)
  | _, _ => []

/-! ### Whole schemas -/

mutual

/-- What a value lacks by a schema. -/
def diagnose (schema : Schema) (v : Json) : List String :=
  match schema with
  | .all keywords => diagnoseAll keywords v
termination_by (sizeOf v, schema.weight)
decreasing_by
  simp only [weight]
  exact Prod.Lex.right _ (Nat.lt_succ_self _)

/-- What a value lacks by keywords, in order. -/
def diagnoseAll (keywords : List Keyword) (v : Json) : List String :=
  match keywords with
  | [] => []
  | keyword :: rest => diagnoseOne keyword v ++ diagnoseAll rest v
termination_by (sizeOf v, keywordsWeight keywords)
decreasing_by
  all_goals (apply Prod.Lex.right; simp only [keywordsWeight]; omega)

/-- What a value lacks by one keyword. -/
def diagnoseOne (keyword : Keyword) (v : Json) : List String :=
  match keyword, v with
  | .members known, .obj members =>
      diagnoseKnown known members ++ unexpected (extraNames known members)
  | .eachMember schema, .obj members => diagnoseMembers schema members
  | .items schema, .arr items => diagnoseItems schema items
  | .anyOf schemas, v =>
      demand ((fitting schemas v).any id)
        (v.compact ++ " is not valid under any of the schemas listed in the 'anyOf' keyword")
  | .oneOf schemas, v =>
      match (fitting schemas v).count true with
      | 0 => [v.compact ++ " is not valid under any of the schemas listed in the 'oneOf' keyword"]
      | 1 => []
      | _ => [v.compact
          ++ " is valid under more than one of the schemas listed in the 'oneOf' keyword"]
  | .exclude schema, v =>
      demand (!(diagnose schema v).isEmpty)
        (schema.toJson.sorted.compact ++ " is not allowed for " ++ v.compact)
  | .ref definition, v => diagnose definition.schema v
  | keyword, v => keyword.lacking v
termination_by (sizeOf v, keyword.weight)
decreasing_by
  all_goals simp_wf
  all_goals first
    | (apply Prod.Lex.left; omega)
    | (apply Prod.Lex.right; simp only [Keyword.weight]; omega)
    | (apply Prod.Lex.right; simp only [Keyword.weight]
       exact Nat.lt_succ_of_le (Definition.weight_schema_le _))

/-- Which of several schemas a value fits. -/
def fitting (schemas : List Schema) (v : Json) : List Bool :=
  match schemas with
  | [] => []
  | schema :: rest => (diagnose schema v).isEmpty :: fitting rest v
termination_by (sizeOf v, schemasWeight schemas)
decreasing_by
  all_goals (apply Prod.Lex.right; simp only [schemasWeight]; omega)

/-- What the known members of an object lack, in order. -/
def diagnoseKnown (known : List (String × Schema)) (members : List (String × Json)) :
    List String :=
  match members with
  | [] => []
  | (name, value) :: rest =>
      (match known.lookup name with
        | some schema => diagnose schema value
        | none => []) ++ diagnoseKnown known rest
termination_by (sizeOf members, 0)

/-- What the members of an object lack by one schema, in order. -/
def diagnoseMembers (schema : Schema) (members : List (String × Json)) : List String :=
  match members with
  | [] => []
  | (_, value) :: rest => diagnose schema value ++ diagnoseMembers schema rest
termination_by (sizeOf members, 0)

/-- What the elements of an array lack, in order. -/
def diagnoseItems (schema : Schema) (items : List Json) : List String :=
  match items with
  | [] => []
  | item :: rest => diagnose schema item ++ diagnoseItems schema rest
termination_by (sizeOf items, 0)

end

/-- Whether a value fits a schema. -/
def fits (schema : Schema) (v : Json) : Bool := (schema.diagnose v).isEmpty

/-- What a document in any member order lacks by the runner schema. -/
def diagnoseDocument (v : Json) : List String := runner.diagnose v.sorted

end Paradigm.Schema
