/-
Module: Paradigm.Emission
Layer: Wire format
Purpose: Documents as the text that the runner loads: checked against the schema, laid out with
  line breaks, and put into a script that assigns it to a variable.
Imports: Paradigm.Document.Encoding, Paradigm.Json.Reading, Paradigm.Schema.Diagnosis,
  Paradigm.Rules.Verdict
Main exports: EmitOptions, EmitOptions.ofText, checkSchema, Document.Experiment.render,
  wrapScript
-/
import Paradigm.Document.Encoding
import Paradigm.Json.Reading
import Paradigm.Rules.Verdict
import Paradigm.Schema.Diagnosis

namespace Paradigm

open Json (Draft Presence Refusal)

/-! ### Options -/

/-- How a document is laid out. -/
structure EmitOptions where
  /-- Blanks for each level. -/
  indent : Nat := 4
  /-- Whether the script ends with a semicolon. -/
  trailingSemicolon : Bool := false
deriving DecidableEq, Repr

namespace EmitOptions

/-- The fields of options. -/
def fields : List (String × Presence) :=
  [("indent", .defaulted), ("trailing_semicolon", .defaulted)]

/-- Puts a field into options. -/
def put (o : EmitOptions) (name : String) (d : Draft) : Except Refusal EmitOptions :=
  match name with
  | "indent" => do return { o with indent := (← d.asNat) }
  | "trailing_semicolon" => do return { o with trailingSemicolon := (← d.asBool) }
  | _ => .ok o

/-- Options from a draft. What is missing takes its default. -/
def ofDraft (d : Draft) : Except Refusal EmitOptions :=
  d.record fields {} fun o name x _ => o.put name x

/-- Options from a JSON text. -/
def ofText (text : String) : Except Failure EmitOptions :=
  (Draft.readText ofDraft text).mapError .unreadable

/-- Options as a JSON value. -/
def toJson (o : EmitOptions) : Json :=
  .obj [("indent", .nat o.indent), ("trailing_semicolon", .bool o.trailingSemicolon)]

end EmitOptions

/-! ### Rendering -/

/-- Succeeds on values that lack nothing by the runner schema. -/
def checkSchema (v : Json) : Verdict :=
  match Schema.diagnoseDocument v with
  | [] => .ok ()
  | diagnostics => .error (.schema diagnostics)

/-- The text of a document that fits the schema. -/
def Document.Experiment.render (e : Document.Experiment) (options : EmitOptions) :
    Except Failure String := do
  checkSchema e.toJson
  return e.toJson.pretty options.indent

/-! ### Scripts -/

/-- Whether a character may begin the name of a script variable. -/
def isNameStart (c : Char) : Bool := c.isAlpha || c == '_' || c == '$'

/-- Whether a text may name a script variable. Only ASCII letters and digits are taken. -/
def isVariableName (name : String) : Bool :=
  match name.toList with
  | [] => false
  | c :: rest => isNameStart c && rest.all fun d => isNameStart d || d.isDigit

/-- The script that assigns a JSON text to a variable. -/
def wrapScript (name json : String) (options : EmitOptions) : Except Failure String :=
  if isVariableName name then
    .ok ("var " ++ name ++ " = " ++ json ++ (if options.trailingSemicolon then ";" else ""))
  else .error (.variableName name)

/-- The script of a document, as it is written to a file. -/
def Document.Experiment.script (e : Document.Experiment) (name : String)
    (options : EmitOptions) : Except Failure String := do
  let json ← e.render options
  wrapScript name json options

end Paradigm
