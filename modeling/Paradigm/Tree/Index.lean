/-
Module: Paradigm.Tree.Index
Layer: Compilation
Purpose: The identifiers of a tree in the order in which it is read, and what they stand for. No
  two nodes of one kind may share an identifier. Guards are resolved against the index: an item
  stands for the first page that it has after expansion, provided that the author gave it one.
Imports: Paradigm.Rules.Verdict, Paradigm.Document
Main exports: Experiment.identities, firstRepeated, Index, Index.ofTrees, Index.resolve
-/
import Paradigm.Document
import Paradigm.Rules.Verdict

namespace Paradigm

/-! ### Identifiers in order -/

/-- An identifier with the kind of the node that bears it. -/
abbrev Identity := NodeKind × String

mutual

/-- The identities of feedback. -/
def Feedback.identities : Feedback → List Identity
  | .text _ => []
  | .page shown => shown.identities

/-- The identities of feedback where there is any. -/
def Feedback.identitiesOption : Option Feedback → List Identity
  | none => []
  | some feedback => feedback.identities

/-- The identities of an answer option: its own, then those of its feedback. -/
def Choice.identities : Choice → List Identity
  | { id, feedback, .. } => (.choice, id) :: Feedback.identitiesOption feedback

/-- The identities of answer options in order. -/
def Choice.identitiesList : List Choice → List Identity
  | [] => []
  | choice :: rest => choice.identities ++ Choice.identitiesList rest

/-- The identities of a page: its own, then those of its feedback and of its options. -/
def Page.identities : Page → List Identity
  | { id, choices, feedback, .. } =>
    (.page, id) :: Feedback.identitiesOption feedback ++ Choice.identitiesList choices

end

/-- The identities of an item and its pages. -/
def Item.identities (item : Item) : List Identity :=
  (.item, item.id) :: item.pages.flatMap Page.identities

mutual

/-- The identities of a block: its own, then those of its pages, items, groups and child blocks. -/
def Block.identities : Block → List Identity
  | { id, pages, items, groups, blocks, .. } =>
    (.block, id) :: (pages.getD []).flatMap Page.identities
      ++ (items.getD []).flatMap Item.identities
      ++ (groups.getD []).flatten.flatMap Item.identities ++ Block.identitiesOption blocks

/-- The identities of child blocks where there are any. -/
def Block.identitiesOption : Option (List Block) → List Identity
  | none => []
  | some blocks => Block.identitiesList blocks

/-- The identities of blocks in order. -/
def Block.identitiesList : List Block → List Identity
  | [] => []
  | block :: rest => block.identities ++ Block.identitiesList rest

end

/-- The identities of all nodes of an experiment. -/
def Experiment.identities (e : Experiment) : List Identity := Block.identitiesList e.blocks

/-- The first member of a list that has come before. -/
def firstRepeated {α : Type} [DecidableEq α] (seen : List α) : List α → Option α
  | [] => none
  | x :: rest => if x ∈ seen then some x else firstRepeated (x :: seen) rest

/-- Nothing is repeated exactly in a list of distinct members apart from those seen before. -/
theorem firstRepeated_eq_none_iff {α : Type} [DecidableEq α] (seen xs : List α) :
    firstRepeated seen xs = none ↔ xs.Nodup ∧ ∀ x ∈ xs, x ∉ seen := by
  induction xs generalizing seen with
  | nil => simp [firstRepeated]
  | cons x rest ih =>
      by_cases hx : x ∈ seen
      · simp [firstRepeated, hx]
      · simp only [firstRepeated, hx, if_false, ih, List.nodup_cons, List.mem_cons]
        constructor
        · rintro ⟨hnodup, hrest⟩
          refine ⟨⟨fun h => hrest x h (.inl rfl), hnodup⟩, ?_⟩
          rintro y (rfl | hy)
          · exact hx
          · exact fun h => hrest y hy (.inr h)
        · rintro ⟨⟨hnot, hnodup⟩, hall⟩
          refine ⟨hnodup, fun y hy h => ?_⟩
          rcases h with rfl | h
          · exact hnot hy
          · exact hall y (.inr hy) h

/-! ### Items of a tree -/

mutual

/-- All items of a block and its child blocks. -/
def Block.allItems : Block → List Item
  | { items, groups, blocks, .. } =>
    items.getD [] ++ (groups.getD []).flatten ++ Block.allItemsOption blocks

/-- All items of child blocks where there are any. -/
def Block.allItemsOption : Option (List Block) → List Item
  | none => []
  | some blocks => Block.allItemsList blocks

/-- All items of blocks in order. -/
def Block.allItemsList : List Block → List Item
  | [] => []
  | block :: rest => block.allItems ++ Block.allItemsList rest

end

/-- All items of an experiment. -/
def Experiment.allItems (e : Experiment) : List Item := Block.allItemsList e.blocks

/-! ### The index -/

/-- What guards are resolved against: the identities in the expanded tree, the first page of each of
its items, and how many pages the author gave each item. -/
structure Index where
  identities : List Identity
  firstPages : List (String × String)
  pageCounts : List (String × Nat)

namespace Index

/-- The index of an expanded tree and the tree that the author gave. -/
def ofTrees (expanded given : Experiment) : Except Failure Index :=
  match firstRepeated [] expanded.identities with
  | some (kind, id) => refuse id (.repeatedId kind id)
  | none => .ok {
      identities := expanded.identities
      firstPages := expanded.allItems.map fun item =>
        (item.id, (item.pages.head?.map (·.id)).getD "")
      pageCounts := given.allItems.map fun item => (item.id, item.pageCount) }

/-- A node that a guard watches has to be in the tree. -/
def checkWatched (index : Index) (owner : String) (kind : NodeKind) (id : String) : Verdict :=
  require (index.identities.contains (kind, id)) owner (.watchedMissing kind id)

/-- The page that a guard watches: the one it names, or that of the item it names. -/
def watchedPage (index : Index) (owner : String) (g : Guard) : Except Failure (Option String) :=
  match g.page, g.item with
  | some page, _ => do
      index.checkWatched owner .page page
      return some page
  | none, some item =>
      match index.firstPages.lookup item.id with
      | none => refuse owner (.watchedMissing .item item.id)
      | some first => do
          let pages := (index.pageCounts.lookup item.id).getD 1
          require (pages == 1) owner (.watchedPages item.id pages)
          return some first
  | none, none => .ok none

/-- Resolves a guard of a node to identifiers. -/
def resolve (index : Index) (owner : String) (g : Guard) : Except Failure Document.Guard := do
  let page ← index.watchedPage owner g
  match g.choice with
  | some choice => index.checkWatched owner .choice choice
  | none => pure ()
  return { page := page, choice := g.choice, regex := g.regex, permutation := g.permutation }

/-- Resolves the guard of a node where there is one. -/
def resolveOption (index : Index) (owner : String) :
    Option Guard → Except Failure (Option Document.Guard)
  | none => .ok none
  | some g => some <$> index.resolve owner g

end Index

end Paradigm
