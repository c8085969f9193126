/-
Module: Paradigm.Document.Reading
Layer: Wire format
Purpose: Documents from JSON drafts. Values that have several shapes take the first that fits.
  Fields that are lists, maps or flags may be missing and are empty or off then; fields that may be
  unset may be missing or null.
Imports: Paradigm.Document, Paradigm.Json.Reading
Main exports: Document.Sample.ofDraft, Document.Page.ofDraft, Document.Block.ofDraft,
  Document.Experiment.ofDraft, Criterion.ofDraft, BankEntry.ofDraft, banksOfDraft
-/
import Paradigm.Document
import Paradigm.Json.Reading

namespace Paradigm

open Json (Draft Presence Refusal)

/-! ### Banks and criteria -/

/-- A value of a bank: a text, or else a record. -/
def BankEntry.ofDraft (d : Draft) : Except Refusal BankEntry :=
  d.variants fun _ => [BankEntry.text <$> d.asString, BankEntry.record <$> d.assoc Draft.asString]

/-- Banks by name. -/
def banksOfDraft (d : Draft) : Except Refusal Banks := d.assoc (Draft.asList BankEntry.ofDraft)

/-- Labels. -/
def tagsOfDraft (d : Draft) : Except Refusal Tags := d.assoc Draft.asString

/-- A criterion: a 32-bit integer is a streak, any other number a share. -/
def Criterion.ofDraft (d : Draft) : Except Refusal Criterion :=
  d.variants fun _ => [Criterion.streak <$> d.asUInt32, Criterion.proportion <$> d.asBinary64]

/-- An answer key: a flag, or else a pattern. -/
def AnswerKey.ofDraft (d : Draft) : Except Refusal AnswerKey :=
  d.variants fun _ => [AnswerKey.flag <$> d.asBool, AnswerKey.pattern <$> d.asString]

/-- Key bindings: a flag, or else the keys. -/
def Keyboard.ofDraft (d : Draft) : Except Refusal Keyboard :=
  d.variants fun _ => [Keyboard.standard <$> d.asBool, Keyboard.keys <$> d.asList Draft.asString]

namespace Document

/-! ### Values -/

/-- The fields of a placeholder. -/
def Sample.fields : List (String × Presence) :=
  [("sampleFrom", .required), ("variable", .nullable), ("notVariable", .nullable),
    ("field", .nullable), ("withReplacement", .defaulted)]

/-- Puts a field into a placeholder. -/
def Sample.put (s : Sample) (name : String) (d : Draft) : Except Refusal Sample :=
  match name with
  | "sampleFrom" => do return { s with bank := (← d.asString) }
  | "variable" => do return { s with slot := (← d.asOption Draft.asNat) }
  | "notVariable" => do return { s with avoids := (← d.asOption Draft.asNat) }
  | "field" => do return { s with field := (← d.asOption Draft.asString) }
  | "withReplacement" => do return { s with replacing := (← d.asBool) }
  | _ => .ok s

/-- A placeholder with its slot. -/
def Sample.ofDraft (d : Draft) : Except Refusal Sample :=
  d.record fields { bank := "" } fun s name x _ => s.put name x

/-- A text: a literal, or else a placeholder. -/
def Text.ofDraft (d : Draft) : Except Refusal Text :=
  d.variants fun _ => [Text.literal <$> d.asString, Text.sample <$> Sample.ofDraft d]

/-- What a page shows: a single text, or else several. -/
def PageText.ofDraft (d : Draft) : Except Refusal PageText :=
  d.variants fun _ =>
    [PageText.single <$> Text.ofDraft d, PageText.lines <$> d.asList Text.ofDraft]

/-- The fields of a resource record. -/
def Resource.fields : List (String × Presence) :=
  [("source", .required), ("mediaType", .nullable), ("autoplay", .required),
    ("controls", .required), ("required", .required)]

/-- Puts a field into a resource record. -/
def Resource.put (r : Resource) (name : String) (d : Draft) : Except Refusal Resource :=
  match name with
  | "source" => do return { r with source := (← Text.ofDraft d) }
  | "mediaType" => do return { r with mediaType := (← d.asOption Draft.asString) }
  | "autoplay" => do return { r with autoplay := (← d.asBool) }
  | "controls" => do return { r with controls := (← d.asBool) }
  | "required" => do return { r with required := (← d.asBool) }
  | _ => .ok r

/-- A resource record that nothing has been put into. -/
def Resource.blank : Resource :=
  { source := .literal "", autoplay := false, controls := false, required := false }

/-- A full resource record. -/
def Resource.ofDraft (d : Draft) : Except Refusal Resource :=
  d.record fields blank fun r name x _ => r.put name x

/-- A resource: a placeholder, or else a full record. -/
def ResourceEntry.ofDraft (d : Draft) : Except Refusal ResourceEntry :=
  d.variants fun _ =>
    [ResourceEntry.sample <$> Sample.ofDraft d, ResourceEntry.record <$> Resource.ofDraft d]

/-- The fields of a guard. -/
def Guard.fields : List (String × Presence) :=
  [("pageID", .nullable), ("optionID", .nullable), ("regex", .nullable),
    ("permutation", .nullable)]

/-- Puts a field into a guard. -/
def Guard.put (g : Guard) (name : String) (d : Draft) : Except Refusal Guard :=
  match name with
  | "pageID" => do return { g with page := (← d.asOption Draft.asString) }
  | "optionID" => do return { g with choice := (← d.asOption Draft.asString) }
  | "regex" => do return { g with regex := (← d.asOption Draft.asString) }
  | "permutation" => do return { g with permutation := (← d.asOption Draft.asUInt32) }
  | _ => .ok g

/-- A guard. -/
def Guard.ofDraft (d : Draft) : Except Refusal Guard :=
  d.record fields {} fun g name x _ => g.put name x

/-! ### Nodes -/

/-- The fields of an answer option. -/
def Choice.fields : List (String × Presence) :=
  [("id", .required), ("text", .nullable), ("correct", .nullable), ("feedback", .nullable),
    ("resources", .defaulted), ("tags", .defaulted)]

/-- Puts a field other than feedback into an answer option. -/
def Choice.put (choice : Choice) (name : String) (d : Draft) : Except Refusal Choice :=
  match name with
  | "id" => do return { choice with id := (← d.asString) }
  | "text" => do return { choice with text := (← d.asOption Text.ofDraft) }
  | "correct" => do return { choice with correct := (← d.asOption AnswerKey.ofDraft) }
  | "resources" => do return { choice with resources := (← d.asList ResourceEntry.ofDraft) }
  | "tags" => do return { choice with tags := (← tagsOfDraft d) }
  | _ => .ok choice

/-- The fields of a page. -/
def Page.fields : List (String × Presence) :=
  [("id", .required), ("text", .required), ("options", .defaulted), ("feedback", .nullable),
    ("correct", .nullable), ("resources", .defaulted), ("condition", .nullable),
    ("tags", .defaulted), ("ordered", .nullable), ("exclusive", .nullable),
    ("freetext", .nullable), ("keyboard", .nullable), ("runIf", .nullable)]

/-- Puts a field other than feedback and options into a page. -/
def Page.put (page : Page) (name : String) (d : Draft) : Except Refusal Page :=
  match name with
  | "id" => do return { page with id := (← d.asString) }
  | "text" => do return { page with text := (← PageText.ofDraft d) }
  | "correct" => do return { page with correct := (← d.asOption AnswerKey.ofDraft) }
  | "resources" => do return { page with resources := (← d.asList ResourceEntry.ofDraft) }
  | "condition" => do return { page with condition := (← d.asOption Text.ofDraft) }
  | "tags" => do return { page with tags := (← tagsOfDraft d) }
  | "ordered" => do return { page with ordered := (← d.asOption Draft.asBool) }
  | "exclusive" => do return { page with exclusive := (← d.asOption Draft.asBool) }
  | "freetext" => do return { page with freetext := (← d.asOption Draft.asBool) }
  | "keyboard" => do return { page with keyboard := (← d.asOption Keyboard.ofDraft) }
  | "runIf" => do return { page with guard := (← d.asOption Guard.ofDraft) }
  | _ => .ok page

/-- A page that nothing has been put into. -/
def Page.blank : Page := { id := "", text := .lines [] }

mutual

/-- Feedback: a text, or else a page. -/
def Feedback.ofDraft (d : Draft) : Except Refusal Feedback :=
  d.variants fun _ => [Feedback.text <$> Text.ofDraft d, Feedback.page <$> Page.ofDraft d]
termination_by (sizeOf d, 1)

/-- An answer option. -/
def Choice.ofDraft (d : Draft) : Except Refusal Choice :=
  d.record Choice.fields { id := "" } fun choice name x _ =>
    if name = "feedback" then
      match x with
      | .null => .ok { choice with feedback := none }
      | x => do return { choice with feedback := some (← Feedback.ofDraft x) }
    else choice.put name x
termination_by (sizeOf d, 0)

/-- A page. -/
def Page.ofDraft (d : Draft) : Except Refusal Page :=
  d.record Page.fields Page.blank fun page name x _ =>
    if name = "feedback" then
      match x with
      | .null => .ok { page with feedback := none }
      | x => do return { page with feedback := some (← Feedback.ofDraft x) }
    else if name = "options" then do
      return { page with choices := (← x.list fun y _ => Choice.ofDraft y) }
    else page.put name x
termination_by (sizeOf d, 0)

end

/-- The fields of an item. -/
def Item.fields : List (String × Presence) :=
  [("id", .required), ("pages", .required), ("condition", .nullable), ("tags", .defaulted),
    ("runIf", .nullable)]

/-- Puts a field into an item. -/
def Item.put (item : Item) (name : String) (d : Draft) : Except Refusal Item :=
  match name with
  | "id" => do return { item with id := (← d.asString) }
  | "pages" => do return { item with pages := (← d.asList Page.ofDraft) }
  | "condition" => do return { item with condition := (← d.asOption Text.ofDraft) }
  | "tags" => do return { item with tags := (← tagsOfDraft d) }
  | "runIf" => do return { item with guard := (← d.asOption Guard.ofDraft) }
  | _ => .ok item

/-- An item. -/
def Item.ofDraft (d : Draft) : Except Refusal Item :=
  d.record fields { id := "", pages := [] } fun item name x _ => item.put name x

/-- Items in order. -/
def itemsOfDraft (d : Draft) : Except Refusal (List Item) := d.asList Item.ofDraft

/-- The fields of a block. -/
def Block.fields : List (String × Presence) :=
  [("id", .required), ("pages", .nullable), ("items", .nullable), ("groups", .nullable),
    ("blocks", .nullable), ("exchangeable", .defaulted), ("counterbalance", .defaulted),
    ("latinSquare", .nullable), ("pseudorandom", .nullable), ("criterion", .nullable),
    ("cutoff", .nullable), ("runIf", .nullable), ("banks", .defaulted)]

/-- Puts a field other than child blocks into a block. -/
def Block.put (block : Block) (name : String) (d : Draft) : Except Refusal Block :=
  match name with
  | "id" => do return { block with id := (← d.asString) }
  | "pages" => do return { block with pages := (← d.asOption (Draft.asList Page.ofDraft)) }
  | "items" => do return { block with items := (← d.asOption itemsOfDraft) }
  | "groups" => do return { block with groups := (← d.asOption (Draft.asList itemsOfDraft)) }
  | "exchangeable" => do return { block with exchangeable := (← d.asList Draft.asString) }
  | "counterbalance" => do return { block with counterbalance := (← d.asList Draft.asString) }
  | "latinSquare" => do return { block with latinSquare := (← d.asOption Draft.asBool) }
  | "pseudorandom" => do return { block with pseudorandom := (← d.asOption Draft.asBool) }
  | "criterion" => do return { block with criterion := (← d.asOption Criterion.ofDraft) }
  | "cutoff" => do return { block with cutoff := (← d.asOption Draft.asUInt32) }
  | "runIf" => do return { block with guard := (← d.asOption Guard.ofDraft) }
  | "banks" => do return { block with banks := (← banksOfDraft d) }
  | _ => .ok block

/-- A block. -/
def Block.ofDraft (d : Draft) : Except Refusal Block :=
  d.record Block.fields { id := "" } fun block name x _ =>
    if name = "blocks" then
      match x with
      | .null => .ok { block with blocks := none }
      | x => do return { block with blocks := some (← x.list fun y _ => Block.ofDraft y) }
    else block.put name x
termination_by sizeOf d

/-- The fields of the whole document. -/
def Experiment.fields : List (String × Presence) :=
  [("blocks", .required), ("exchangeable", .required), ("counterbalance", .required),
    ("banks", .required)]

/-- Puts a field into a document. -/
def Experiment.put (e : Experiment) (name : String) (d : Draft) : Except Refusal Experiment :=
  match name with
  | "blocks" => do return { e with blocks := (← d.asList Block.ofDraft) }
  | "exchangeable" => do return { e with exchangeable := (← d.asList Draft.asString) }
  | "counterbalance" => do return { e with counterbalance := (← d.asList Draft.asString) }
  | "banks" => do return { e with banks := (← banksOfDraft d) }
  | _ => .ok e

/-- The whole document. -/
def Experiment.ofDraft (d : Draft) : Except Refusal Experiment :=
  d.record fields
    { blocks := [], exchangeable := [], counterbalance := [], banks := .empty }
    fun e name x _ => e.put name x

end Document

end Paradigm
