/-
Module: Paradigm.Document.Encoding
Layer: Wire format
Purpose: Documents as JSON values. Fields come in a fixed order under the names that the runner
  knows; what is not set is left out, except for the media type of a resource, which is null then.
Imports: Paradigm.Document, Paradigm.Json
Main exports: Document.Sample.toJson, Document.Page.toJson, Document.Block.toJson,
  Document.Experiment.toJson, Criterion.toJson, BankEntry.toJson, Banks.toJson
-/
import Paradigm.Document
import Paradigm.Json

namespace Paradigm

open Json (strings)

/-! ### Members -/

/-- Members of an object, in order. -/
abbrev Members := List (String × Json)

/-- A member that is always there. -/
def Members.one (name : String) (value : Json) : Members := [(name, value)]

/-- A member that is there where a value is set. -/
def Members.some? {α : Type} (name : String) (encode : α → Json) : Option α → Members
  | none => []
  | some value => [(name, encode value)]

/-- A member that is there where a list has elements. -/
def Members.list? {α : Type} (name : String) (encode : α → Json) (xs : List α) : Members :=
  if xs.isEmpty then [] else [(name, .arr (xs.map encode))]

/-- A member that is there where a map has names. -/
def Members.assoc? {α : Type} (name : String) (encode : Assoc α → Json) (m : Assoc α) : Members :=
  if m.isEmpty then [] else [(name, encode m)]

/-- A map as an object. -/
def Assoc.toJson {α : Type} (encode : α → Json) (m : Assoc α) : Json :=
  .obj (m.entries.map fun entry => (entry.1, encode entry.2))

/-- Labels as an object. -/
def tagsToJson (tags : Tags) : Json := tags.toJson .str

/-! ### Banks and criteria -/

/-- A value of a bank. -/
def BankEntry.toJson : BankEntry → Json
  | .text value => .str value
  | .record fields => fields.toJson .str

/-- Banks by name. -/
def banksToJson (banks : Banks) : Json := banks.toJson fun bank => .arr (bank.map BankEntry.toJson)

/-- A criterion. A share that is not finite has no JSON form. -/
def Criterion.toJson : Criterion → Json
  | .streak length => .nat length.toNat
  | .proportion share => if share.isFinite then .num (.float share) else .null

/-- An answer key. -/
def AnswerKey.toJson : AnswerKey → Json
  | .flag value => .bool value
  | .pattern value => .str value

/-- Key bindings. -/
def Keyboard.toJson : Keyboard → Json
  | .standard on => .bool on
  | .keys names => strings names

namespace Document

/-! ### Values -/

/-- A placeholder with its slot. -/
def Sample.toJson (s : Sample) : Json :=
  .obj (Members.one "sampleFrom" (.str s.bank)
    ++ Members.some? "variable" .nat s.slot
    ++ Members.some? "notVariable" .nat s.avoids
    ++ Members.some? "field" .str s.field
    ++ (if s.replacing then [("withReplacement", .bool true)] else []))

/-- A text. -/
def Text.toJson : Text → Json
  | .literal value => .str value
  | .sample s => s.toJson

/-- What a page shows. -/
def PageText.toJson : PageText → Json
  | .single one => one.toJson
  | .lines several => .arr (several.map Text.toJson)

/-- A full resource record. -/
def Resource.toJson (r : Resource) : Json :=
  .obj [("source", r.source.toJson),
    ("mediaType", match r.mediaType with
      | some mediaType => .str mediaType
      | none => .null),
    ("autoplay", .bool r.autoplay), ("controls", .bool r.controls), ("required", .bool r.required)]

/-- A resource. -/
def ResourceEntry.toJson : ResourceEntry → Json
  | .sample s => s.toJson
  | .record r => r.toJson

/-- A guard. -/
def Guard.toJson (g : Guard) : Json :=
  .obj (Members.some? "pageID" .str g.page
    ++ Members.some? "optionID" .str g.choice
    ++ Members.some? "regex" .str g.regex
    ++ Members.some? "permutation" (fun n => .nat n.toNat) g.permutation)

/-! ### Nodes -/

mutual

/-- Feedback. -/
def Feedback.toJson : Feedback → Json
  | .text label => label.toJson
  | .page shown => shown.toJson

/-- The member of feedback where there is any. -/
def Feedback.member : Option Feedback → Members
  | none => []
  | some feedback => [("feedback", feedback.toJson)]

/-- An answer option. -/
def Choice.toJson : Choice → Json
  | choice@{ feedback, .. } =>
    .obj (Members.one "id" (.str choice.id)
      ++ Members.some? "text" Text.toJson choice.text
      ++ Members.some? "correct" AnswerKey.toJson choice.correct
      ++ Feedback.member feedback
      ++ Members.list? "resources" ResourceEntry.toJson choice.resources
      ++ Members.assoc? "tags" tagsToJson choice.tags)

/-- Answer options in order. -/
def Choice.toJsonList : List Choice → List Json
  | [] => []
  | choice :: rest => choice.toJson :: Choice.toJsonList rest

/-- The member of answer options where there are any. -/
def Choice.member : List Choice → Members
  | [] => []
  | choice :: rest => [("options", .arr (choice.toJson :: Choice.toJsonList rest))]

/-- A page. -/
def Page.toJson : Page → Json
  | page@{ choices, feedback, .. } =>
    .obj (Members.one "id" (.str page.id)
      ++ Members.one "text" page.text.toJson
      ++ Choice.member choices
      ++ Feedback.member feedback
      ++ Members.some? "correct" AnswerKey.toJson page.correct
      ++ Members.list? "resources" ResourceEntry.toJson page.resources
      ++ Members.some? "condition" Text.toJson page.condition
      ++ Members.assoc? "tags" tagsToJson page.tags
      ++ Members.some? "ordered" .bool page.ordered
      ++ Members.some? "exclusive" .bool page.exclusive
      ++ Members.some? "freetext" .bool page.freetext
      ++ Members.some? "keyboard" Keyboard.toJson page.keyboard
      ++ Members.some? "runIf" Guard.toJson page.guard)

end

/-- An item. -/
def Item.toJson (item : Item) : Json :=
  .obj (Members.one "id" (.str item.id)
    ++ Members.one "pages" (.arr (item.pages.map Page.toJson))
    ++ Members.some? "condition" Text.toJson item.condition
    ++ Members.assoc? "tags" tagsToJson item.tags
    ++ Members.some? "runIf" Guard.toJson item.guard)

/-- Items in order. -/
def itemsToJson (items : List Item) : Json := .arr (items.map Item.toJson)

mutual

/-- A block. -/
def Block.toJson : Block → Json
  | block@{ blocks, .. } =>
    .obj (Members.one "id" (.str block.id)
      ++ Members.some? "pages" (fun pages => .arr (pages.map Page.toJson)) block.pages
      ++ Members.some? "items" itemsToJson block.items
      ++ Members.some? "groups" (fun groups => .arr (groups.map itemsToJson)) block.groups
      ++ Block.member blocks
      ++ Members.list? "exchangeable" .str block.exchangeable
      ++ Members.list? "counterbalance" .str block.counterbalance
      ++ Members.some? "latinSquare" .bool block.latinSquare
      ++ Members.some? "pseudorandom" .bool block.pseudorandom
      ++ Members.some? "criterion" Criterion.toJson block.criterion
      ++ Members.some? "cutoff" (fun n => .nat n.toNat) block.cutoff
      ++ Members.some? "runIf" Guard.toJson block.guard
      ++ Members.assoc? "banks" banksToJson block.banks)

/-- The member of child blocks where there are any. -/
def Block.member : Option (List Block) → Members
  | none => []
  | some blocks => [("blocks", .arr (Block.toJsonList blocks))]

/-- Blocks in order. -/
def Block.toJsonList : List Block → List Json
  | [] => []
  | block :: rest => block.toJson :: Block.toJsonList rest

end

/-- The whole document. -/
def Experiment.toJson (e : Experiment) : Json :=
  .obj [("blocks", .arr (Block.toJsonList e.blocks)),
    ("exchangeable", strings e.exchangeable),
    ("counterbalance", strings e.counterbalance),
    ("banks", banksToJson e.banks)]

end Document

end Paradigm
