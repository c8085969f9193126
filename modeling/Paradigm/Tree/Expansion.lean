/-
Module: Paradigm.Tree.Expansion
Layer: Compilation
Purpose: The expanded tree, in which every shorthand is written out: items hold lists of pages,
  feedback in items follows its trigger as a page of its own, treatments have become guards, and a
  text box page has the option that stands for the box. Blocks are checked on the way, before
  their treatments are used up.
Imports: Paradigm.Session, Paradigm.Rules.Block
Main exports: Page.withTextBox, Page.spliced, Item.expand, assignments, reassignments,
  Block.expand, Experiment.expand
-/
import Paradigm.Rules.Block
import Paradigm.Session

namespace Paradigm

/-! ### The state of expansion -/

/-- What expansion leaves behind whether it succeeds or not: the identifiers taken and the
warnings given. -/
structure Progress where
  ids : IdSource
  warnings : List Warning
deriving DecidableEq

/-- Steps of expansion, which may be refused. -/
abbrev Expanding := EStateM Failure Progress

namespace Expanding

/-- Takes identifiers. -/
def issuing {α : Type} (m : Issuing α) : Expanding α := fun p =>
  let (value, ids) := m p.ids
  .ok value { p with ids := ids }

/-- Gives warnings, in order. -/
def warn (warnings : List Warning) : Expanding Unit := fun p =>
  .ok () { p with warnings := p.warnings ++ warnings }

/-- Goes on if a check passes. -/
def check (verdict : Verdict) : Expanding Unit := fun p =>
  match verdict with
  | .ok _ => .ok () p
  | .error failure => .error failure p

end Expanding

/-! ### Pages -/

/-- Gives a text box page without options the one for the box. -/
def Page.withTextBox (page : Page) : Issuing Page := do
  if page.isFreetext && page.choices.isEmpty then
    let box ← Choice.create none
    return { page with choices := [box] }
  else return page

/-- The page that shows feedback: the one given, or a new one for a text. -/
def Feedback.toPage : Feedback → Issuing Page
  | .text label => Page.create (.single label)
  | .page shown => return shown

/-- The guard of feedback on an option: the page was answered by choosing it. -/
def choiceGuard (page choice : String) : Guard := { page := some page, choice := some choice }

/-- The feedback pages of options, in their order, each guarded by its option. -/
def choiceFeedback (page : String) : List Choice → Issuing (List Page)
  | [] => return []
  | choice :: rest =>
      match choice.feedback with
      | none => choiceFeedback page rest
      | some feedback => do
          let shown ← feedback.toPage
          return { shown with guard := some (choiceGuard page choice.id) }
            :: (← choiceFeedback page rest)

/-- The feedback page of a page itself, with the guard that it has. -/
def pageFeedback : Option Feedback → Issuing (List Page)
  | none => return []
  | some feedback => return [← feedback.toPage]

/-- A page without its feedback and that of its options. -/
def Page.plain (page : Page) : Page :=
  { page with
    feedback := none
    choices := page.choices.map fun choice => { choice with feedback := none } }

/-- A page followed by its feedback pages: its own first, then those of its options. -/
def Page.spliced (page : Page) : Issuing (List Page) := do
  let own ← pageFeedback page.feedback
  let ofChoices ← choiceFeedback page.id page.choices
  return page.plain :: own ++ ofChoices

/-! ### Items -/

/-- The pages that an item is given, with a new one for a text. -/
def ItemContents.toPages : ItemContents → Issuing (List Page)
  | .text label => return [← Page.create (.single label)]
  | .page single => return [single]
  | .pages several => return several

/-- An item as a list of pages with its feedback in place. -/
def Item.expand (item : Item) : Issuing Item := do
  let given ← item.contents.toPages
  let spliced ← given.mapM Page.spliced
  let pages ← spliced.flatten.mapM Page.withTextBox
  return { item with contents := .pages pages }

/-! ### Treatments -/

/-- The blocks named in treatments, each with the index of its sublist, in reading order. -/
def assignments (treatments : List (List String)) : List (String × Nat) :=
  treatments.zipIdx.flatMap fun entry => entry.1.map fun id => (id, entry.2)

/-- Warns of each block whose most recent index differs from the next one. The indices seen so far
come most recent first. -/
def reassignments (owner : String) (seen : List (String × Nat)) :
    List (String × Nat) → List Warning
  | [] => []
  | (id, index) :: rest =>
      let here := match seen.lookup id with
        | some previous => if previous = index then [] else [.reassigned owner id previous index]
        | none => []
      here ++ reassignments owner ((id, index) :: seen) rest

/-- The last index given to a block. -/
def finalIndex (given : List (String × Nat)) (id : String) : Option Nat :=
  given.reverse.lookup id

/-- Warns of a guard of the author that a treatment replaces, unless it is on the permutation
itself. -/
def Block.replacement (given : List (String × Nat)) (b : Block) : List Warning :=
  match finalIndex given b.id, b.guard with
  | some index, some guard =>
      if guard.permutation.isNone then [.guardReplaced b.id index] else []
  | _, _ => []

/-- The warnings of applying treatments to child blocks. -/
def treatmentWarnings (owner : String) (treatments : List (List String))
    (children : List Block) : List Warning :=
  let given := assignments treatments
  reassignments owner [] given ++ children.flatMap (Block.replacement given)

/-- A block under its treatment: it runs for one value of the permutation, a 32-bit number. -/
def Block.treated (b : Block) : Option Nat → Block
  | none => b
  | some index => { b with guard := some { permutation := some (UInt32.ofNat index) } }

/-! ### Blocks -/

/-- Expands a value that may be missing. -/
def expandOption {α : Type} (expand : α → Issuing α) : Option α → Issuing (Option α)
  | none => return none
  | some value => return some (← expand value)

mutual

/-- Expands a block under the treatment that its parent has for it. -/
def Block.expand (treatment : Option Nat) : Block → Expanding Block
  | block@{ blocks, .. } => do
    let own := block.treated treatment
    Expanding.warn own.notices
    Expanding.check own.check
    Expanding.warn (treatmentWarnings block.id block.treatments (block.blocks.getD []))
    let pages ← Expanding.issuing (expandOption (·.mapM Page.withTextBox) block.pages)
    let items ← Expanding.issuing (expandOption (·.mapM Item.expand) block.items)
    let groups ← Expanding.issuing (expandOption (·.mapM (·.mapM Item.expand)) block.groups)
    let children ← Block.expandChildren (assignments block.treatments) blocks
    return { own with
      pages := pages, items := items, groups := groups, blocks := children, treatments := [] }

/-- Expands child blocks where there are any. -/
def Block.expandChildren (given : List (String × Nat)) :
    Option (List Block) → Expanding (Option (List Block))
  | none => return none
  | some blocks => return some (← Block.expandList given blocks)

/-- Expands blocks in order, each under its own treatment. -/
def Block.expandList (given : List (String × Nat)) : List Block → Expanding (List Block)
  | [] => return []
  | block :: rest => do
    let expanded ← block.expand (finalIndex given block.id)
    return expanded :: (← Block.expandList given rest)

end

/-- Expands an experiment. -/
def Experiment.expand (e : Experiment) : Expanding Experiment := do
  Expanding.warn e.notices
  Expanding.check e.check
  Expanding.warn (treatmentWarnings Experiment.node e.treatments e.blocks)
  let blocks ← Block.expandList (assignments e.treatments) e.blocks
  return { e with blocks := blocks, treatments := [] }

end Paradigm
