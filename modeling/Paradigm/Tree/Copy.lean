/-
Module: Paradigm.Tree.Copy
Layer: Authoring
Purpose: Copies of nodes with new identifiers for the node and everything that it owns, feedback
  pages included. Guards go on naming what they named; lists that name child blocks name the
  copies of those children.
Imports: Paradigm.Session
Main exports: Choice.copy, Page.copy, Item.copy, Block.copy
-/
import Paradigm.Session

namespace Paradigm

/-! ### Pages -/

mutual

/-- Copies feedback. -/
def Feedback.copy : Feedback → Issuing Feedback
  | .text label => return .text label
  | .page shown => return .page (← shown.copy)

/-- Copies feedback where there is any. -/
def Feedback.copyOption : Option Feedback → Issuing (Option Feedback)
  | none => return none
  | some feedback => return some (← feedback.copy)

/-- Copies an answer option: its own identifier comes first. -/
def Choice.copy : Choice → Issuing Choice
  | choice@{ feedback, .. } => do
    let id ← issueId
    return { choice with id := id, feedback := (← Feedback.copyOption feedback) }

/-- Copies answer options in order. -/
def Choice.copyList : List Choice → Issuing (List Choice)
  | [] => return []
  | choice :: rest => return (← choice.copy) :: (← Choice.copyList rest)

/-- Copies a page: its own identifier comes first, then those of its options. -/
def Page.copy : Page → Issuing Page
  | page@{ choices, feedback, .. } => do
    let id ← issueId
    return { page with
      id := id
      choices := (← Choice.copyList choices)
      feedback := (← Feedback.copyOption feedback) }

end

/-! ### Items -/

/-- Copies what an item is given. -/
def ItemContents.copy : ItemContents → Issuing ItemContents
  | .text label => return .text label
  | .page single => return .page (← single.copy)
  | .pages several => return .pages (← several.mapM Page.copy)

/-- Copies an item. -/
def Item.copy (item : Item) : Issuing Item := do
  let id ← issueId
  return { item with id := id, contents := (← item.contents.copy) }

/-! ### Blocks -/

/-- The copies of named blocks; what names no copied block stays as it is. -/
def renameAll (names : Assoc String) (ids : List String) : List String :=
  ids.map fun id => (names.get? id).getD id

/-- Each child with the identifier of its copy. Of children with one identifier the last
counts. -/
def copyNames (children copies : List Block) : Assoc String :=
  .ofList ((children.map (·.id)).zip (copies.map (·.id)))

/-- Copies a value that may be missing. -/
def copyOption {α : Type} (copy : α → Issuing α) : Option α → Issuing (Option α)
  | none => return none
  | some value => return some (← copy value)

mutual

/-- Copies a block: its own identifier comes first, then those of its child blocks, pages, items
and groups. -/
def Block.copy : Block → Issuing Block
  | block@{ blocks, .. } => do
    let id ← issueId
    let children ← Block.copyChildren blocks
    let names := copyNames (block.blocks.getD []) (children.getD [])
    return { block with
      id := id
      pages := (← copyOption (·.mapM Page.copy) block.pages)
      items := (← copyOption (·.mapM Item.copy) block.items)
      groups := (← copyOption (·.mapM (·.mapM Item.copy)) block.groups)
      blocks := children
      exchangeable := renameAll names block.exchangeable
      counterbalance := renameAll names block.counterbalance
      treatments := block.treatments.map (renameAll names) }

/-- Copies child blocks where there are any. -/
def Block.copyChildren : Option (List Block) → Issuing (Option (List Block))
  | none => return none
  | some blocks => return some (← Block.copyList blocks)

/-- Copies blocks in order. -/
def Block.copyList : List Block → Issuing (List Block)
  | [] => return []
  | block :: rest => return (← block.copy) :: (← Block.copyList rest)

end

end Paradigm
