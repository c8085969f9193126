/-
Module: Paradigm.Proofs.Tree.Nodes
Layer: Proofs
Purpose: What a tree holds, wherever it stands: its blocks at any depth, the pages that the author
  placed in them, and the pages attached to a page as feedback, directly or at any depth.
Imports: Paradigm.Tree.Index
Main exports: FeedbackSite, Page.feedbackSites, Page.attached, Page.within, Page.feedbackPages,
  Block.within, Experiment.allBlocks, Experiment.feedbackPages, Experiment.allItems_eq
-/
import Paradigm.Tree.Index

namespace Paradigm

/-! ### Feedback and where it stands -/

/-- Feedback on a page or on one of its options, with the guard that the page showing it is given.
Without one the page keeps the guard that it has. -/
structure FeedbackSite where
  feedback : Feedback
  guard : Option Guard

/-- Where a page carries feedback: on itself, then on its options in order. Feedback on an option
is shown once the page was answered by choosing it. -/
def Page.feedbackSites (page : Page) : List FeedbackSite :=
  page.feedback.toList.map (fun feedback => { feedback := feedback, guard := none })
    ++ page.choices.filterMap fun choice => choice.feedback.map fun feedback =>
      { feedback := feedback
        guard := some { page := some page.id, choice := some choice.id } }

/-- Where the pages of an item carry feedback, in order. -/
def Item.feedbackSites (item : Item) : List FeedbackSite := item.pages.flatMap Page.feedbackSites

/-- The page that is given as feedback. A text is none. -/
def Feedback.attached : Feedback → List Page
  | .text _ => []
  | .page shown => [shown]

/-- The pages that are given as feedback on the pages of an item or on their options. -/
def Item.attached (item : Item) : List Page := item.feedbackSites.flatMap (·.feedback.attached)

/-! ### Pages at any depth -/

mutual

/-- The pages given as feedback. -/
def Feedback.within : Feedback → List Page
  | .text _ => []
  | .page shown => shown.within

/-- The pages given as feedback where there is any. -/
def Feedback.withinOption : Option Feedback → List Page
  | none => []
  | some feedback => feedback.within

/-- The pages given as feedback on answer options. -/
def Choice.withinList : List Choice → List Page
  | [] => []
  | { feedback, .. } :: rest => Feedback.withinOption feedback ++ Choice.withinList rest

/-- A page and all pages given as feedback in it, at any depth. -/
def Page.within : Page → List Page
  | page@{ choices, feedback, .. } =>
    page :: Feedback.withinOption feedback ++ Choice.withinList choices

end

/-- The pages given as feedback on a page or on its options, at any depth. -/
def Page.feedbackPages (page : Page) : List Page :=
  Feedback.withinOption page.feedback ++ Choice.withinList page.choices

theorem Page.within_eq (page : Page) : page.within = page :: page.feedbackPages := by
  cases page
  rw [Page.within, Page.feedbackPages, List.cons_append]

/-! ### Blocks at any depth -/

mutual

/-- A block and all blocks in it, at any depth. -/
def Block.within : Block → List Block
  | block@{ blocks, .. } => block :: Block.withinOption blocks

/-- All blocks in child blocks where there are any. -/
def Block.withinOption : Option (List Block) → List Block
  | none => []
  | some blocks => Block.withinList blocks

/-- All blocks in a list of blocks. -/
def Block.withinList : List Block → List Block
  | [] => []
  | block :: rest => block.within ++ Block.withinList rest

end

/-- All blocks of an experiment. -/
def Experiment.allBlocks (e : Experiment) : List Block := Block.withinList e.blocks

/-- The pages that the author placed in a block and in its items. -/
def Block.ownPages (b : Block) : List Page := b.pages.getD [] ++ b.ownItems.flatMap (·.pages)

/-- All pages given as feedback anywhere in an experiment. -/
def Experiment.feedbackPages (e : Experiment) : List Page :=
  (e.allBlocks.flatMap Block.ownPages).flatMap Page.feedbackPages

mutual

theorem Block.allItems_eq : ∀ (block : Block),
    block.allItems = block.within.flatMap Block.ownItems
  | ⟨_, _, _, _, blocks, _, _, _, _, _, _, _, _, _⟩ => by
      rw [Block.allItems, Block.within, List.flatMap_cons, Block.allItemsOption_eq blocks]
      rfl

theorem Block.allItemsOption_eq : ∀ (blocks : Option (List Block)),
    Block.allItemsOption blocks = (Block.withinOption blocks).flatMap Block.ownItems
  | none => rfl
  | some blocks => by
      rw [Block.allItemsOption, Block.withinOption]
      exact Block.allItemsList_eq blocks

theorem Block.allItemsList_eq : ∀ (blocks : List Block),
    Block.allItemsList blocks = (Block.withinList blocks).flatMap Block.ownItems
  | [] => rfl
  | block :: rest => by
      rw [Block.allItemsList, Block.withinList, List.flatMap_append, Block.allItems_eq block,
        Block.allItemsList_eq rest]

end

/-- The items of an experiment are those of its blocks. -/
theorem Experiment.allItems_eq (e : Experiment) : e.allItems = e.allBlocks.flatMap Block.ownItems :=
  Block.allItemsList_eq e.blocks

end Paradigm
