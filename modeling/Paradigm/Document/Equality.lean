/-
Module: Paradigm.Document.Equality
Layer: Wire format
Purpose: When two documents are the same. The order of labels, of banks and of the fields of records
  does not count; shares are compared as numbers; everything else has to agree.
Imports: Paradigm.Document
Main exports: Assoc.same, Document.Page.same, Document.Block.same, Document.Experiment.same
-/
import Paradigm.Document

namespace Paradigm

/-! ### Collections -/

/-- Whether two lists agree element by element. -/
def sameLists {α : Type} (same : α → α → Bool) : List α → List α → Bool
  | [], [] => true
  | x :: xs, y :: ys => same x y && sameLists same xs ys
  | _, _ => false

/-- Whether two values are both missing or both there and the same. -/
def sameOptions {α : Type} (same : α → α → Bool) : Option α → Option α → Bool
  | none, none => true
  | some x, some y => same x y
  | _, _ => false

/-- Whether two maps have the same names with the same values, in any order. -/
def Assoc.same {α : Type} (same : α → α → Bool) (m n : Assoc α) : Bool :=
  m.entries.length == n.entries.length
    && m.entries.all fun entry => (n.get? entry.1).any (same entry.2)

/-- Whether two labels are the same. -/
def sameTags (m n : Tags) : Bool := m.same (· == ·) n

/-! ### Banks and criteria -/

/-- Whether two values of banks are the same. -/
def BankEntry.same : BankEntry → BankEntry → Bool
  | .text x, .text y => x == y
  | .record x, .record y => x.same (· == ·) y
  | _, _ => false

/-- Whether two sets of banks are the same. -/
def sameBanks (m n : Banks) : Bool := m.same (sameLists BankEntry.same) n

/-- Whether two criteria are the same. -/
def Criterion.same : Criterion → Criterion → Bool
  | .streak x, .streak y => x == y
  | .proportion x, .proportion y => x.sameNumber y
  | _, _ => false

namespace Document

/-! ### Nodes -/

mutual

/-- Whether two feedbacks are the same. -/
def Feedback.same : Feedback → Feedback → Bool
  | .text x, .text y => x == y
  | .page x, .page y => x.same y
  | _, _ => false

/-- Whether feedbacks that may be missing are the same. -/
def Feedback.sameOption : Option Feedback → Option Feedback → Bool
  | none, none => true
  | some x, some y => x.same y
  | _, _ => false

/-- Whether two answer options are the same. -/
def Choice.same : Choice → Choice → Bool
  | c@{ feedback, .. }, d =>
    c.id == d.id && c.text == d.text && c.correct == d.correct
      && Feedback.sameOption feedback d.feedback && c.resources == d.resources
      && sameTags c.tags d.tags

/-- Whether lists of answer options are the same. -/
def Choice.sameList : List Choice → List Choice → Bool
  | [], [] => true
  | x :: xs, y :: ys => x.same y && Choice.sameList xs ys
  | _, _ => false

/-- Whether two pages are the same. -/
def Page.same : Page → Page → Bool
  | p@{ choices, feedback, .. }, q =>
    p.id == q.id && p.text == q.text && Choice.sameList choices q.choices
      && Feedback.sameOption feedback q.feedback && p.correct == q.correct
      && p.resources == q.resources && p.condition == q.condition && sameTags p.tags q.tags
      && p.ordered == q.ordered && p.exclusive == q.exclusive && p.freetext == q.freetext
      && p.keyboard == q.keyboard && p.guard == q.guard

end

/-- Whether two items are the same. -/
def Item.same (i j : Item) : Bool :=
  i.id == j.id && sameLists Page.same i.pages j.pages && i.condition == j.condition
    && sameTags i.tags j.tags && i.guard == j.guard

mutual

/-- Whether two blocks are the same. -/
def Block.same : Block → Block → Bool
  | b@{ blocks, .. }, c =>
    b.id == c.id && sameOptions (sameLists Page.same) b.pages c.pages
      && sameOptions (sameLists Item.same) b.items c.items
      && sameOptions (sameLists (sameLists Item.same)) b.groups c.groups
      && Block.sameOption blocks c.blocks && b.exchangeable == c.exchangeable
      && b.counterbalance == c.counterbalance && b.latinSquare == c.latinSquare
      && b.pseudorandom == c.pseudorandom && sameOptions Criterion.same b.criterion c.criterion
      && b.cutoff == c.cutoff && b.guard == c.guard && sameBanks b.banks c.banks

/-- Whether child blocks that may be missing are the same. -/
def Block.sameOption : Option (List Block) → Option (List Block) → Bool
  | none, none => true
  | some xs, some ys => Block.sameList xs ys
  | _, _ => false

/-- Whether lists of blocks are the same. -/
def Block.sameList : List Block → List Block → Bool
  | [], [] => true
  | x :: xs, y :: ys => x.same y && Block.sameList xs ys
  | _, _ => false

end

/-- Whether two documents are the same. -/
def Experiment.same (d e : Experiment) : Bool :=
  Block.sameList d.blocks e.blocks && d.exchangeable == e.exchangeable
    && d.counterbalance == e.counterbalance && sameBanks d.banks e.banks

end Document

end Paradigm
