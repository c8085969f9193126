/-
Module: Paradigm.Proofs.Tree.Placeholders
Layer: Proofs
Purpose: The placeholders of a tree in the order in which the document emits them. Pages are read
  field by field with their feedback in place. Items of the tree that an author gives are read as
  expansion leaves them: each page without feedback, followed by the feedback on it and on its
  options.
Imports: Paradigm.Tree.Expansion
Main exports: Page.placeholders, Page.unfolded, Item.placeholders, Item.unfolded,
  Block.placeholders, Experiment.placeholders
-/
import Paradigm.Tree.Expansion

namespace Paradigm

/-! ### Texts and resources -/

/-- The placeholder of a text that is drawn. -/
def Text.placeholders : Text → List Placeholder
  | .literal _ => []
  | .sample p => [p]

/-- The placeholders of what a page shows. -/
def PageText.placeholders : PageText → List Placeholder
  | .single one => one.placeholders
  | .lines several => several.flatMap Text.placeholders

/-- The placeholder of a resource whose file or whose source is drawn. -/
def ResourceEntry.placeholders : ResourceEntry → List Placeholder
  | .file _ => []
  | .full resource => resource.source.placeholders
  | .sample p => [p]

/-! ### Pages -/

mutual

/-- The placeholders of feedback. -/
def Feedback.placeholders : Feedback → List Placeholder
  | .text label => label.placeholders
  | .page shown => shown.placeholders

/-- The placeholders of feedback where there is any. -/
def Feedback.placeholdersOption : Option Feedback → List Placeholder
  | none => []
  | some feedback => feedback.placeholders

/-- The placeholders of an answer option: of its text, its feedback and its resources. -/
def Choice.placeholders : Choice → List Placeholder
  | { text, feedback, resources, .. } =>
    text.toList.flatMap Text.placeholders ++ Feedback.placeholdersOption feedback
      ++ resources.flatMap ResourceEntry.placeholders

/-- The placeholders of answer options in order. -/
def Choice.placeholdersList : List Choice → List Placeholder
  | [] => []
  | choice :: rest => choice.placeholders ++ Choice.placeholdersList rest

/-- The placeholders of a page: of its text, its options, its feedback, its resources and its
condition. -/
def Page.placeholders : Page → List Placeholder
  | { text, choices, feedback, resources, condition, .. } =>
    text.placeholders ++ Choice.placeholdersList choices ++ Feedback.placeholdersOption feedback
      ++ resources.flatMap ResourceEntry.placeholders
      ++ condition.toList.flatMap Text.placeholders

end

/-- The placeholders of a page of an item: of the page without feedback, then of its feedback, then
of the feedback on each of its options. -/
def Page.unfolded (page : Page) : List Placeholder :=
  page.plain.placeholders ++ Feedback.placeholdersOption page.feedback
    ++ page.choices.flatMap fun choice => Feedback.placeholdersOption choice.feedback

/-! ### Contents that may be missing -/

/-- Contents that may be missing are read as the elements that are there. -/
theorem flatMap_toList_eq {α β : Type} (f : α → List β) (xs : Option (List α)) :
    xs.toList.flatMap (fun ys => ys.flatMap f) = (xs.getD []).flatMap f := by
  cases xs <;> simp

/-- Lists of elements one after the other are read one after the other. -/
theorem flatMap_flatten_eq {α β : Type} (f : α → List β) (xss : List (List α)) :
    xss.flatten.flatMap f = xss.flatMap (fun xs => xs.flatMap f) := by
  rw [← List.flatMap_id, List.flatMap_assoc]
  rfl

/-! ### Items and blocks -/

/-- The placeholders of an item with its pages as they are. -/
def Item.placeholders (item : Item) : List Placeholder :=
  item.pages.flatMap Page.placeholders ++ item.condition.toList.flatMap Text.placeholders

/-- The placeholders of what an item is given, with feedback after its trigger. -/
def ItemContents.unfolded : ItemContents → List Placeholder
  | .text label => label.placeholders
  | .page single => single.unfolded
  | .pages several => several.flatMap Page.unfolded

/-- The placeholders of an item with feedback after its trigger. -/
def Item.unfolded (item : Item) : List Placeholder :=
  item.contents.unfolded ++ item.condition.toList.flatMap Text.placeholders

mutual

/-- The placeholders of a block whose items are read in a given way: of its pages, its items, its
groups and its child blocks. -/
def Block.placeholders (ofItem : Item → List Placeholder) : Block → List Placeholder
  | block@{ blocks, .. } =>
    (block.pages.getD []).flatMap Page.placeholders ++ block.ownItems.flatMap ofItem
      ++ Block.placeholdersOption ofItem blocks

/-- The placeholders of child blocks where there are any. -/
def Block.placeholdersOption (ofItem : Item → List Placeholder) :
    Option (List Block) → List Placeholder
  | none => []
  | some blocks => Block.placeholdersList ofItem blocks

/-- The placeholders of blocks in order. -/
def Block.placeholdersList (ofItem : Item → List Placeholder) : List Block → List Placeholder
  | [] => []
  | block :: rest => block.placeholders ofItem ++ Block.placeholdersList ofItem rest

end

/-- The placeholders of the tree that an author gives, in the order in which the document emits
them. -/
def Experiment.placeholders (e : Experiment) : List Placeholder :=
  Block.placeholdersList Item.unfolded e.blocks

end Paradigm
