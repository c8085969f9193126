/-
Module: Paradigm.Schema
Layer: Schema
Purpose: Schemas of JSON values and the schema of the documents that the runner accepts. A schema is
  a list of keywords; definitions have names and may refer to each other. Keywords stand in the
  order of their names, which is the order of what they report.
Imports: Paradigm.Json, Paradigm.Json.Text
Main exports: Schema, Schema.Keyword, Schema.Definition, Schema.Definition.schema,
  Schema.runner, Schema.toJson, Schema.runnerJson, Schema.runnerText
-/
import Paradigm.Json
import Paradigm.Json.Text

namespace Paradigm

/-- The kinds of JSON values that a schema tells apart. A whole number counts as an integer however
it is written. -/
inductive Schema.Kind where
  | array
  | boolean
  | integer
  | null
  | number
  | object
  | string
deriving DecidableEq

/-- The named parts of the runner schema. -/
inductive Schema.Definition where
  | id
  | idList
  | tags
  | sample
  | text
  | pageText
  | resource
  | resources
  | runIf
  | correct
  | feedback
  | option
  | page
  | item
  | items
  | block
  | banks
deriving DecidableEq

mutual

/-- A schema: all its keywords have to hold. -/
inductive Schema where
  | all (keywords : List Schema.Keyword)

/-- What a schema demands. A demand on one kind of values leaves the others alone. -/
inductive Schema.Keyword where
  /-- An object has no other members than these, and each of them fits. -/
  | members (known : List (String × Schema))
  /-- Every member of an object fits. -/
  | eachMember (schema : Schema)
  /-- At least one schema fits. -/
  | anyOf (schemas : List Schema)
  /-- The value is this truth value. -/
  | constant (value : Bool)
  | exclusiveMinimum (bound : Int)
  /-- Every element of an array fits. -/
  | items (schema : Schema)
  | maximum (bound : Int)
  | minItems (count : Nat)
  | minLength (count : Nat)
  | minimum (bound : Int)
  /-- The schema does not fit. -/
  | exclude (schema : Schema)
  /-- Exactly one schema fits. -/
  | oneOf (schemas : List Schema)
  /-- An object has these members. -/
  | required (names : List String)
  /-- The value is of one of these kinds. -/
  | kinds (kinds : List Schema.Kind)
  /-- What a definition demands. -/
  | ref (definition : Schema.Definition)

end

namespace Schema

/-! ### Names -/

/-- The name of a kind. -/
def Kind.name : Kind → String
  | .array => "array"
  | .boolean => "boolean"
  | .integer => "integer"
  | .null => "null"
  | .number => "number"
  | .object => "object"
  | .string => "string"

/-- All kinds, in the order in which diagnostics name them. -/
def Kind.list : List Kind := [.array, .boolean, .integer, .null, .number, .object, .string]

/-- The name of a definition. -/
def Definition.name : Definition → String
  | .id => "id"
  | .idList => "idList"
  | .tags => "tags"
  | .sample => "sample"
  | .text => "text"
  | .pageText => "pageText"
  | .resource => "resource"
  | .resources => "resources"
  | .runIf => "runIf"
  | .correct => "correct"
  | .feedback => "feedback"
  | .option => "option"
  | .page => "page"
  | .item => "item"
  | .items => "items"
  | .block => "block"
  | .banks => "banks"

/-- All definitions. -/
def Definition.list : List Definition :=
  [.id, .idList, .tags, .sample, .text, .pageText, .resource, .resources, .runIf, .correct,
    .feedback, .option, .page, .item, .items, .block, .banks]

/-! ### The runner schema -/

/-- A value of one kind. -/
def kind (k : Kind) : Schema := .all [.kinds [k]]

/-- What a definition stands for. -/
def refTo (d : Definition) : Schema := .all [.ref d]

/-- An array of what a definition stands for. -/
def listOf (d : Definition) : Schema := .all [.items (refTo d), .kinds [.array]]

/-- An object with these members at least. -/
def has (names : List String) : Schema := .all [.required names]

/-- An object with known members, some of them required. -/
def closedObject (required : List String) (known : List (String × Schema)) : Schema :=
  .all [.members known, .required required, .kinds [.object]]

/-- An integer from a bound upwards. -/
def integerFrom (bound : Int) : Schema := .all [.minimum bound, .kinds [.integer]]

/-- The schema of a definition. -/
def Definition.schema : Definition → Schema
  | .id => .all [.minLength 1, .kinds [.string]]
  | .idList => listOf .id
  | .tags => .all [.eachMember (kind .string), .kinds [.object]]
  | .sample =>
      .all [
        .members [
          ("field", kind .string),
          ("notVariable", integerFrom 0),
          ("sampleFrom", kind .string),
          ("variable", integerFrom 0),
          ("withReplacement", .all [.constant true])],
        .exclude (.all [.anyOf [
          has ["variable", "notVariable"],
          has ["variable", "withReplacement"],
          has ["notVariable", "withReplacement"]]]),
        .required ["sampleFrom"],
        .kinds [.object]]
  | .text => .all [.oneOf [kind .string, refTo .sample]]
  | .pageText => .all [.oneOf [refTo .text, listOf .text]]
  | .resource =>
      .all [.oneOf [
        refTo .sample,
        closedObject ["source", "mediaType", "autoplay", "controls", "required"] [
          ("autoplay", kind .boolean),
          ("controls", kind .boolean),
          ("mediaType", .all [.kinds [.string, .null]]),
          ("required", kind .boolean),
          ("source", refTo .text)]]]
  | .resources => listOf .resource
  | .runIf =>
      .all [
        .members [
          ("optionID", refTo .id),
          ("pageID", refTo .id),
          ("permutation", integerFrom 0),
          ("regex", kind .string)],
        .oneOf [
          .all [.exclude (has ["permutation"]), .required ["pageID"]],
          .all [
            .exclude (.all [.anyOf [has ["pageID"], has ["optionID"], has ["regex"]]]),
            .required ["permutation"]]],
        .kinds [.object]]
  | .correct => .all [.kinds [.boolean, .string]]
  | .feedback => .all [.oneOf [refTo .text, refTo .page]]
  | .option =>
      closedObject ["id"] [
        ("correct", refTo .correct),
        ("feedback", refTo .feedback),
        ("id", refTo .id),
        ("resources", refTo .resources),
        ("tags", refTo .tags),
        ("text", refTo .text)]
  | .page =>
      closedObject ["id", "text"] [
        ("condition", refTo .text),
        ("correct", refTo .correct),
        ("exclusive", kind .boolean),
        ("feedback", refTo .feedback),
        ("freetext", kind .boolean),
        ("id", refTo .id),
        ("keyboard", .all [.oneOf [
          kind .boolean,
          .all [.items (kind .string), .kinds [.array]]]]),
        ("options", listOf .option),
        ("ordered", kind .boolean),
        ("resources", refTo .resources),
        ("runIf", refTo .runIf),
        ("tags", refTo .tags),
        ("text", refTo .pageText)]
  | .item =>
      closedObject ["id", "pages"] [
        ("condition", refTo .text),
        ("id", refTo .id),
        ("pages", .all [.items (refTo .page), .minItems 1, .kinds [.array]]),
        ("runIf", refTo .runIf),
        ("tags", refTo .tags)]
  | .items => listOf .item
  | .block =>
      .all [
        .members [
          ("banks", refTo .banks),
          ("blocks", listOf .block),
          ("counterbalance", refTo .idList),
          ("criterion", .all [.oneOf [
            integerFrom 1,
            .all [
              .exclusiveMinimum 0, .maximum 1, .exclude (kind .integer), .kinds [.number]]]]),
          ("cutoff", integerFrom 1),
          ("exchangeable", refTo .idList),
          ("groups", listOf .items),
          ("id", refTo .id),
          ("items", refTo .items),
          ("latinSquare", kind .boolean),
          ("pages", listOf .page),
          ("pseudorandom", kind .boolean),
          ("runIf", refTo .runIf)],
        .oneOf [has ["pages"], has ["items"], has ["groups"], has ["blocks"]],
        .required ["id"],
        .kinds [.object]]
  | .banks =>
      .all [
        .eachMember (.all [
          .items (.all [.oneOf [
            kind .string,
            .all [.eachMember (kind .string), .kinds [.object]]]]),
          .minItems 1,
          .kinds [.array]]),
        .kinds [.object]]

/-- The schema of a whole document. -/
def runner : Schema :=
  closedObject ["blocks", "exchangeable", "counterbalance", "banks"] [
    ("banks", refTo .banks),
    ("blocks", listOf .block),
    ("counterbalance", refTo .idList),
    ("exchangeable", refTo .idList)]

/-! ### Schemas as JSON -/

/-- The name of a kind, or the list of several. -/
def kindsToJson : List Kind → Json
  | [k] => .str k.name
  | ks => .arr (ks.map fun k => .str k.name)

mutual

/-- A schema as a JSON object. -/
def toJson : Schema → Json
  | .all keywords => .obj (keywordMembers keywords)

/-- The members of keywords, in order. -/
def keywordMembers : List Keyword → List (String × Json)
  | [] => []
  | keyword :: rest => keyword.toMembers ++ keywordMembers rest

/-- The members of one keyword. -/
def Keyword.toMembers : Keyword → List (String × Json)
  | .members known =>
      [("additionalProperties", .bool false), ("properties", .obj (knownMembers known))]
  | .eachMember schema => [("additionalProperties", schema.toJson)]
  | .anyOf schemas => [("anyOf", .arr (schemaItems schemas))]
  | .constant value => [("const", .bool value)]
  | .exclusiveMinimum bound => [("exclusiveMinimum", .num (.int bound))]
  | .items schema => [("items", schema.toJson)]
  | .maximum bound => [("maximum", .num (.int bound))]
  | .minItems count => [("minItems", .nat count)]
  | .minLength count => [("minLength", .nat count)]
  | .minimum bound => [("minimum", .num (.int bound))]
  | .exclude schema => [("not", schema.toJson)]
  | .oneOf schemas => [("oneOf", .arr (schemaItems schemas))]
  | .required names => [("required", Json.strings names)]
  | .kinds kinds => [("type", kindsToJson kinds)]
  | .ref definition => [("$ref", .str ("#/definitions/" ++ definition.name))]

/-- Schemas in order. -/
def schemaItems : List Schema → List Json
  | [] => []
  | schema :: rest => schema.toJson :: schemaItems rest

/-- The schemas of known members. -/
def knownMembers : List (String × Schema) → List (String × Json)
  | [] => []
  | (name, schema) :: rest => (name, schema.toJson) :: knownMembers rest

end

/-- The schema of a whole document as JSON, with its definitions. -/
def runnerJson : Json :=
  let keywords := match runner with
    | .all keywords => keywordMembers keywords
  .obj ([
    ("$schema", .str "http://json-schema.org/draft-07/schema#"),
    ("$id", .str "https://speriment.example/experiment.schema.json"),
    ("title", .str "Experiment")]
    ++ keywords
    ++ [("definitions", .obj (Definition.list.map fun d => (d.name, d.schema.toJson)))])

/-- The text of the schema of a whole document, to be handed on to the runner. -/
def runnerText : String := runnerJson.pretty 4

end Schema

end Paradigm
