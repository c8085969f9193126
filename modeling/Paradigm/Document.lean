/-
Module: Paradigm.Document
Layer: Data
Purpose: The document that the runner executes. It has the shape of the expanded tree with every
  reference an identifier, every placeholder a slot and every resource a full record.
Imports: Paradigm.Tree
Main exports: Document.Sample, Document.Text, Document.Guard, Document.Page, Document.Item,
  Document.Block, Document.Experiment, Document.Experiment.pages
-/
import Paradigm.Tree

namespace Paradigm.Document

/-! ### Values -/

/-- A placeholder with its slot: one to hold, one to avoid, or none. -/
structure Sample where
  bank : String
  slot : Option Nat := none
  avoids : Option Nat := none
  field : Option String := none
  replacing : Bool := false
deriving DecidableEq, Repr

/-- A text, or one to be drawn. -/
inductive Text where
  | literal (value : String)
  | sample (sample : Sample)
deriving DecidableEq, Repr

/-- What a page shows. -/
inductive PageText where
  | single (text : Text)
  | lines (texts : List Text)
deriving DecidableEq, Repr

/-- A media file with its playing options, all of them given. -/
structure Resource where
  source : Text
  mediaType : Option String := none
  autoplay : Bool
  controls : Bool
  required : Bool
deriving DecidableEq, Repr

/-- A resource, or one whose file is to be drawn. -/
inductive ResourceEntry where
  | sample (sample : Sample)
  | record (resource : Resource)
deriving DecidableEq, Repr

/-- When a node is shown, by identifiers. -/
structure Guard where
  page : Option String := none
  choice : Option String := none
  regex : Option String := none
  permutation : Option UInt32 := none
deriving DecidableEq, Repr

/-! ### Nodes -/

mutual

/-- Feedback shown in place. -/
inductive Feedback where
  | text (text : Text)
  | page (page : Page)

/-- An answer option. -/
structure Choice where
  id : String
  text : Option Text := none
  correct : Option AnswerKey := none
  feedback : Option Feedback := none
  resources : List ResourceEntry := []
  tags : Tags := .empty

/-- One screen. -/
structure Page where
  id : String
  text : PageText
  choices : List Choice := []
  feedback : Option Feedback := none
  correct : Option AnswerKey := none
  resources : List ResourceEntry := []
  condition : Option Text := none
  tags : Tags := .empty
  ordered : Option Bool := none
  exclusive : Option Bool := none
  freetext : Option Bool := none
  keyboard : Option Keyboard := none
  guard : Option Guard := none

end

/-- Pages that stay together. -/
structure Item where
  id : String
  pages : List Page
  condition : Option Text := none
  tags : Tags := .empty
  guard : Option Guard := none

/-- A container with one kind of contents. -/
structure Block where
  id : String
  pages : Option (List Page) := none
  items : Option (List Item) := none
  groups : Option (List (List Item)) := none
  blocks : Option (List Block) := none
  exchangeable : List String := []
  counterbalance : List String := []
  latinSquare : Option Bool := none
  pseudorandom : Option Bool := none
  criterion : Option Criterion := none
  cutoff : Option UInt32 := none
  guard : Option Guard := none
  banks : Banks := .empty

/-- The whole document. -/
structure Experiment where
  blocks : List Block
  exchangeable : List String
  counterbalance : List String
  banks : Banks

/-! ### Pages in order -/

mutual

/-- The pages of a block, those of its items, groups and child blocks included, without feedback
pages. -/
def Block.allPages : Block → List Page
  | { pages, items, groups, blocks, .. } =>
    pages.getD [] ++ (items.getD []).flatMap (·.pages)
      ++ (groups.getD []).flatten.flatMap (·.pages) ++ Block.allPagesOption blocks

/-- The pages of child blocks where there are any. -/
def Block.allPagesOption : Option (List Block) → List Page
  | none => []
  | some blocks => Block.allPagesList blocks

/-- The pages of blocks in order. -/
def Block.allPagesList : List Block → List Page
  | [] => []
  | block :: rest => block.allPages ++ Block.allPagesList rest

end

/-- The pages of a document in order, without feedback pages. -/
def Experiment.pages (e : Experiment) : List Page := Block.allPagesList e.blocks

end Paradigm.Document
