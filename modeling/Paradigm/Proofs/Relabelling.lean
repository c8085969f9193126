/-
Module: Paradigm.Proofs.Relabelling
Layer: Proofs
Purpose: What it is to give the nodes of a tree new identifiers, kind by kind, and the samples of a
  document new slots, bank by bank. Identifiers are those of all nodes, and those by which guards
  and lists refer to nodes. Texts, banks, tokens and patterns are no identifiers and stay.
Imports: Paradigm.Tree.Index
Main exports: Relabelling, Experiment.relabel, Document.Experiment.relabel, Identity.relabel
-/
import Paradigm.Tree.Index

namespace Paradigm

/-- New identifiers for nodes, by their kind, and new slots for samples, by their bank. An option in
a guard that watches no page is the option of nothing; it is `stray`. -/
structure Relabelling where
  name : NodeKind → String → String := fun _ id => id
  stray : String → String := fun id => id
  slot : String → Nat → Nat := fun _ slot => slot

/-- Whether a guard watches an item or a page. -/
def Guard.watches (g : Guard) : Bool := g.item.isSome || g.page.isSome

section Definitions

variable (r : Relabelling)

/-! ### Trees -/

def ItemHandle.relabel (handle : ItemHandle) : ItemHandle :=
  { handle with id := r.name .item handle.id }

/-- A guard whose targets are relabelled. -/
def Guard.relabel (g : Guard) : Guard :=
  { g with
    item := g.item.map (ItemHandle.relabel r)
    page := g.page.map (r.name .page)
    choice := g.choice.map (if g.watches then r.name .choice else r.stray) }

mutual

def Feedback.relabel : Feedback → Feedback
  | .text label => .text label
  | .page shown => .page shown.relabel

def Feedback.relabelOption : Option Feedback → Option Feedback
  | none => none
  | some feedback => some feedback.relabel

/-- An answer option with its feedback, relabelled. -/
def Choice.relabel : Choice → Choice
  | choice@{ feedback, .. } =>
    { choice with id := r.name .choice choice.id, feedback := Feedback.relabelOption feedback }

def Choice.relabelList : List Choice → List Choice
  | [] => []
  | choice :: rest => choice.relabel :: Choice.relabelList rest

/-- A page with its options and feedback, relabelled. -/
def Page.relabel : Page → Page
  | page@{ choices, feedback, .. } =>
    { page with
      id := r.name .page page.id
      choices := Choice.relabelList choices
      feedback := Feedback.relabelOption feedback
      guard := page.guard.map (Guard.relabel r) }

end

def ItemContents.relabel : ItemContents → ItemContents
  | .text label => .text label
  | .page single => .page (single.relabel r)
  | .pages several => .pages (several.map (Page.relabel r))

/-- An item with its pages, relabelled. -/
def Item.relabel (item : Item) : Item :=
  { item with
    id := r.name .item item.id
    contents := item.contents.relabel r
    guard := item.guard.map (Guard.relabel r) }

mutual

/-- A block with its contents and its lists of children, relabelled. -/
def Block.relabel : Block → Block
  | block@{ blocks, .. } =>
    { block with
      id := r.name .block block.id
      pages := block.pages.map (List.map (Page.relabel r))
      items := block.items.map (List.map (Item.relabel r))
      groups := block.groups.map (List.map (List.map (Item.relabel r)))
      blocks := Block.relabelOption blocks
      exchangeable := block.exchangeable.map (r.name .block)
      counterbalance := block.counterbalance.map (r.name .block)
      treatments := block.treatments.map (List.map (r.name .block))
      guard := block.guard.map (Guard.relabel r) }

def Block.relabelOption : Option (List Block) → Option (List Block)
  | none => none
  | some blocks => some (Block.relabelList blocks)

def Block.relabelList : List Block → List Block
  | [] => []
  | block :: rest => block.relabel :: Block.relabelList rest

end

/-- An experiment with all its nodes and lists, relabelled. -/
def Experiment.relabel (e : Experiment) : Experiment :=
  { e with
    blocks := e.blocks.map (Block.relabel r)
    exchangeable := e.exchangeable.map (r.name .block)
    counterbalance := e.counterbalance.map (r.name .block)
    treatments := e.treatments.map (List.map (r.name .block)) }

/-- An identity under its new identifier. -/
def Identity.relabel (identity : Identity) : Identity :=
  (identity.1, r.name identity.1 identity.2)

/-! ### Documents -/

namespace Document

/-- A sample whose slots are moved. -/
def Sample.relabel (s : Sample) : Sample :=
  { s with slot := s.slot.map (r.slot s.bank), avoids := s.avoids.map (r.slot s.bank) }

def Text.relabel : Text → Text
  | .literal value => .literal value
  | .sample s => .sample (s.relabel r)

def PageText.relabel : PageText → PageText
  | .single text => .single (text.relabel r)
  | .lines texts => .lines (texts.map (Text.relabel r))

def ResourceEntry.relabel : ResourceEntry → ResourceEntry
  | .sample s => .sample (s.relabel r)
  | .record resource => .record { resource with source := resource.source.relabel r }

/-- A guard of a document whose targets are relabelled. -/
def Guard.relabel (g : Guard) : Guard :=
  { g with page := g.page.map (r.name .page), choice := g.choice.map (r.name .choice) }

mutual

def Feedback.relabel : Feedback → Feedback
  | .text label => .text (label.relabel r)
  | .page shown => .page shown.relabel

def Feedback.relabelOption : Option Feedback → Option Feedback
  | none => none
  | some feedback => some feedback.relabel

def Choice.relabel : Choice → Choice
  | choice@{ feedback, .. } =>
    { choice with
      id := r.name .choice choice.id
      text := choice.text.map (Text.relabel r)
      feedback := Feedback.relabelOption feedback
      resources := choice.resources.map (ResourceEntry.relabel r) }

def Choice.relabelList : List Choice → List Choice
  | [] => []
  | choice :: rest => choice.relabel :: Choice.relabelList rest

/-- A page of a document with its options and feedback, relabelled. -/
def Page.relabel : Page → Page
  | page@{ choices, feedback, .. } =>
    { page with
      id := r.name .page page.id
      text := page.text.relabel r
      choices := Choice.relabelList choices
      feedback := Feedback.relabelOption feedback
      resources := page.resources.map (ResourceEntry.relabel r)
      condition := page.condition.map (Text.relabel r)
      guard := page.guard.map (Guard.relabel r) }

end

def Item.relabel (item : Item) : Item :=
  { item with
    id := r.name .item item.id
    pages := item.pages.map (Page.relabel r)
    condition := item.condition.map (Text.relabel r)
    guard := item.guard.map (Guard.relabel r) }

mutual

/-- A block of a document with its contents and its lists of children, relabelled. -/
def Block.relabel : Block → Block
  | block@{ blocks, .. } =>
    { block with
      id := r.name .block block.id
      pages := block.pages.map (List.map (Page.relabel r))
      items := block.items.map (List.map (Item.relabel r))
      groups := block.groups.map (List.map (List.map (Item.relabel r)))
      blocks := Block.relabelOption blocks
      exchangeable := block.exchangeable.map (r.name .block)
      counterbalance := block.counterbalance.map (r.name .block)
      guard := block.guard.map (Guard.relabel r) }

def Block.relabelOption : Option (List Block) → Option (List Block)
  | none => none
  | some blocks => some (Block.relabelList blocks)

def Block.relabelList : List Block → List Block
  | [] => []
  | block :: rest => block.relabel :: Block.relabelList rest

end

/-- A document with its nodes, its lists of references and its samples relabelled. -/
def Experiment.relabel (e : Experiment) : Experiment :=
  { e with
    blocks := e.blocks.map (Block.relabel r)
    exchangeable := e.exchangeable.map (r.name .block)
    counterbalance := e.counterbalance.map (r.name .block) }

end Document

end Definitions

/-! ### Relabelled nodes field by field -/

section Fields

variable {r : Relabelling}

theorem Feedback.relabelOption_eq (feedback : Option Feedback) :
    Feedback.relabelOption r feedback = feedback.map (Feedback.relabel r) := by
  cases feedback with
  | none => rw [Feedback.relabelOption, Option.map_none]
  | some feedback => rw [Feedback.relabelOption, Option.map_some]

theorem Choice.relabelList_eq (choices : List Choice) :
    Choice.relabelList r choices = choices.map (Choice.relabel r) := by
  induction choices with
  | nil => rw [Choice.relabelList, List.map_nil]
  | cons choice rest ih => rw [Choice.relabelList, List.map_cons, ih]

theorem Choice.relabel_eq (choice : Choice) : choice.relabel r =
    { choice with
      id := r.name .choice choice.id
      feedback := choice.feedback.map (Feedback.relabel r) } := by
  cases choice
  rw [Choice.relabel, Feedback.relabelOption_eq]

theorem Page.relabel_eq (page : Page) : page.relabel r =
    { page with
      id := r.name .page page.id
      choices := page.choices.map (Choice.relabel r)
      feedback := page.feedback.map (Feedback.relabel r)
      guard := page.guard.map (Guard.relabel r) } := by
  cases page
  rw [Page.relabel, Feedback.relabelOption_eq, Choice.relabelList_eq]

theorem Block.relabelList_eq (blocks : List Block) :
    Block.relabelList r blocks = blocks.map (Block.relabel r) := by
  induction blocks with
  | nil => rw [Block.relabelList, List.map_nil]
  | cons block rest ih => rw [Block.relabelList, List.map_cons, ih]

theorem Block.relabelOption_eq (blocks : Option (List Block)) :
    Block.relabelOption r blocks = blocks.map (List.map (Block.relabel r)) := by
  cases blocks with
  | none => rw [Block.relabelOption, Option.map_none]
  | some blocks => rw [Block.relabelOption, Option.map_some, Block.relabelList_eq]

theorem Block.relabel_eq (block : Block) : block.relabel r =
    { block with
      id := r.name .block block.id
      pages := block.pages.map (List.map (Page.relabel r))
      items := block.items.map (List.map (Item.relabel r))
      groups := block.groups.map (List.map (List.map (Item.relabel r)))
      blocks := block.blocks.map (List.map (Block.relabel r))
      exchangeable := block.exchangeable.map (r.name .block)
      counterbalance := block.counterbalance.map (r.name .block)
      treatments := block.treatments.map (List.map (r.name .block))
      guard := block.guard.map (Guard.relabel r) } := by
  cases block
  rw [Block.relabel, Block.relabelOption_eq]

theorem Document.Block.relabelList_eq (blocks : List Document.Block) :
    Document.Block.relabelList r blocks = blocks.map (Document.Block.relabel r) := by
  induction blocks with
  | nil => rw [Document.Block.relabelList, List.map_nil]
  | cons block rest ih => rw [Document.Block.relabelList, List.map_cons, ih]

end Fields

end Paradigm
