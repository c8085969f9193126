/-
Module: Paradigm.Resolution
Layer: Compilation
Purpose: From the expanded tree to the document, in one pass from the left. Each node is checked by
  its own rules, its texts and resources are settled, its placeholders get their slots and are bound
  to the nearest declaration of their bank, and its guard is resolved.
Imports: Paradigm.BankScope, Paradigm.Tree.Index, Paradigm.Rules.Block, Paradigm.Session
Main exports: Resolving, Placeholder.slot, Page.resolve, Item.resolve, Block.resolve,
  Experiment.resolve
-/
import Paradigm.BankScope
import Paradigm.Rules.Block
import Paradigm.Session
import Paradigm.Tree.Index

namespace Paradigm

/-! ### The state of resolution -/

/-- What resolution refers to and does not change. -/
structure Surroundings where
  index : Index
  registry : Registry

/-- What resolution gathers on its way: the counters for the slots that it gives out itself, the
declarations around the node at hand, innermost first, and warnings. -/
structure Gathered where
  slots : SlotAllocator
  frames : List Frame := []
  warnings : List Warning := []

/-- Where resolution starts: its slots come after those that the registry has reserved. -/
def Gathered.start (registry : Registry) : Gathered := { slots := .ofRegistry registry }

/-- Steps of resolution, which may be refused. -/
abbrev Resolving := EStateM Failure Gathered

namespace Resolving

/-- Goes on with the value of a computation that succeeds. -/
def lift {α : Type} (outcome : Except Failure α) : Resolving α := fun g =>
  match outcome with
  | .ok value => .ok value g
  | .error failure => .error failure g

/-- Gives warnings, in order. -/
def warn (warnings : List Warning) : Resolving Unit := fun g =>
  .ok () { g with warnings := g.warnings ++ warnings }

/-- Opens the declarations of a node. -/
def openScope (owner : String) (banks : Banks) : Resolving Unit := fun g =>
  .ok () { g with frames := { owner := owner, banks := banks } :: g.frames }

/-- Closes the innermost declarations and checks them. -/
def closeScope : Resolving Unit := fun g =>
  match g.frames with
  | [] => .ok () g
  | frame :: outer =>
      match frame.check with
      | .ok _ => .ok () { g with frames := outer }
      | .error failure => .error failure { g with frames := outer }

/-- Gives out the next slot of a bank that no token and no earlier placeholder holds. -/
def freshSlot (bank : String) : Resolving Nat := fun g =>
  let (slot, slots) := g.slots.fresh bank
  .ok slot { g with slots := slots }

/-- Binds a placeholder of a node to a declaration. -/
def bind (bank : String) (use : Use) : Resolving Unit := fun g =>
  match Frame.bind? bank use g.frames with
  | some frames => .ok () { g with frames := frames }
  | none => .error (.rule use.node (.undeclaredBank bank)) g

end Resolving

variable (env : Surroundings)

/-! ### Placeholders and texts -/

/-- The slot of a token, which has to be registered. -/
def tokenSlot (registry : Registry) (node bank token : String) : Except Failure Nat :=
  match registry.slotOf bank token with
  | some slot => .ok slot
  | none => refuse node (.unregisteredToken token bank)

/-- The slot of a placeholder in a node. -/
def Placeholder.slot (node : String) (p : Placeholder) : Resolving Slot :=
  match p.draw with
  | .shared token => do
      return .holds (← Resolving.lift (tokenSlot env.registry node p.bank token))
  | .unlike token => do
      return .avoids (← Resolving.lift (tokenSlot env.registry node p.bank token))
  | .fresh => do return .holds (← Resolving.freshSlot p.bank)
  | .replacing => return .any

/-- A placeholder with its slot as the document has it. -/
def Placeholder.document (p : Placeholder) (slot : Slot) : Document.Sample :=
  { bank := p.bank
    slot := match slot with
      | .holds n => some n
      | _ => none
    avoids := match slot with
      | .avoids n => some n
      | _ => none
    field := p.field
    replacing := slot == .any }

/-- Resolves a placeholder of a node. -/
def Placeholder.resolve (node : String) (p : Placeholder) : Resolving Document.Sample := do
  let slot ← p.slot env node
  Resolving.bind p.bank { node := node, field := p.field, slot := slot }
  return p.document slot

/-- Resolves a text of a node. -/
def Text.resolve (node : String) : Text → Resolving Document.Text
  | .literal value => return .literal value
  | .sample p => return .sample (← p.resolve env node)

/-- Resolves a text that may be missing. -/
def Text.resolveOption (node : String) : Option Text → Resolving (Option Document.Text)
  | none => return none
  | some given => return some (← given.resolve env node)

/-- Resolves what a page shows. -/
def PageText.resolve (node : String) : PageText → Resolving Document.PageText
  | .single given => return .single (← given.resolve env node)
  | .lines several => return .lines (← several.mapM (Text.resolve env node))

/-- Resolves a resource. A file name alone stands for a record with the usual options. -/
def ResourceEntry.resolve (node : String) : ResourceEntry → Resolving Document.ResourceEntry
  | .file name =>
      return .record {
        source := .literal name, mediaType := none
        autoplay := false, controls := true, required := false }
  | .full resource => do
      let source ← resource.source.resolve env node
      return .record {
        source := source, mediaType := resource.mediaType
        autoplay := resource.autoplay, controls := resource.controls
        required := resource.required }
  | .sample p => return .sample (← p.resolve env node)

/-! ### Pages -/

/-- Resolves the guard of a node where there is one. -/
def Guard.resolveOption (node : String) (g : Option Guard) :
    Resolving (Option Document.Guard) :=
  Resolving.lift (env.index.resolveOption node g)

mutual

/-- Resolves feedback that is shown in place. -/
def Feedback.resolve (node : String) : Feedback → Resolving Document.Feedback
  | .text label => return .text (← label.resolve env node)
  | .page shown => return .page (← shown.resolve)

/-- Resolves feedback where there is any. -/
def Feedback.resolveOption (node : String) :
    Option Feedback → Resolving (Option Document.Feedback)
  | none => return none
  | some feedback => return some (← feedback.resolve node)

/-- Checks and resolves an answer option. -/
def Choice.resolve : Choice → Resolving Document.Choice
  | choice@{ feedback, .. } => do
    Resolving.lift choice.check
    let text ← Text.resolveOption env choice.id choice.text
    let shown ← Feedback.resolveOption choice.id feedback
    let resources ← choice.resources.mapM (ResourceEntry.resolve env choice.id)
    return {
      id := choice.id, text := text, correct := choice.correct, feedback := shown
      resources := resources, tags := choice.tags }

/-- Checks and resolves answer options in order. -/
def Choice.resolveList : List Choice → Resolving (List Document.Choice)
  | [] => return []
  | choice :: rest => return (← choice.resolve) :: (← Choice.resolveList rest)

/-- Checks and resolves a page. -/
def Page.resolve : Page → Resolving Document.Page
  | page@{ choices, feedback, .. } => do
    Resolving.lift page.check
    let text ← page.text.resolve env page.id
    let options ← Choice.resolveList choices
    let shown ← Feedback.resolveOption page.id feedback
    let resources ← page.resources.mapM (ResourceEntry.resolve env page.id)
    let condition ← Text.resolveOption env page.id page.condition
    let guard ← Guard.resolveOption env page.id page.guard
    return {
      id := page.id, text := text, choices := options, feedback := shown
      correct := page.correct, resources := resources, condition := condition
      tags := page.tags, ordered := page.ordered, exclusive := page.exclusive
      freetext := page.freetext, keyboard := page.keyboard, guard := guard }

end

/-! ### Items and blocks -/

/-- Checks and resolves an item. -/
def Item.resolve (item : Item) : Resolving Document.Item := do
  Resolving.lift item.check
  let pages ← item.pages.mapM (Page.resolve env)
  let condition ← Text.resolveOption env item.id item.condition
  let guard ← Guard.resolveOption env item.id item.guard
  return {
    id := item.id, pages := pages, condition := condition, tags := item.tags, guard := guard }

/-- Resolves a value that may be missing. -/
def resolveOption {α β : Type} (resolve : α → Resolving β) : Option α → Resolving (Option β)
  | none => return none
  | some value => return some (← resolve value)

mutual

/-- Checks and resolves a block. Its banks are in scope for its contents and are checked after
its guard is resolved. -/
def Block.resolve : Block → Resolving Document.Block
  | block@{ blocks, .. } => do
    Resolving.warn block.notices
    Resolving.lift block.check
    Resolving.openScope block.id block.banks
    let pages ← resolveOption (·.mapM (Page.resolve env)) block.pages
    let items ← resolveOption (·.mapM (Item.resolve env)) block.items
    let groups ← resolveOption (·.mapM (·.mapM (Item.resolve env))) block.groups
    let children ← Block.resolveChildren blocks
    let guard ← Guard.resolveOption env block.id block.guard
    Resolving.closeScope
    return {
      id := block.id, pages := pages, items := items, groups := groups, blocks := children
      exchangeable := block.exchangeable, counterbalance := block.counterbalance
      latinSquare := block.latinSquare, pseudorandom := block.pseudorandom
      criterion := block.criterion, cutoff := block.cutoff, guard := guard
      banks := block.banks }

/-- Checks and resolves child blocks where there are any. -/
def Block.resolveChildren : Option (List Block) → Resolving (Option (List Document.Block))
  | none => return none
  | some blocks => return some (← Block.resolveList blocks)

/-- Checks and resolves blocks in order. -/
def Block.resolveList : List Block → Resolving (List Document.Block)
  | [] => return []
  | block :: rest => return (← block.resolve) :: (← Block.resolveList rest)

end

/-- Resolves an expanded experiment. -/
def Experiment.resolve (e : Experiment) : Resolving Document.Experiment := do
  Resolving.openScope Experiment.node e.banks
  let blocks ← Block.resolveList env e.blocks
  Resolving.closeScope
  return {
    blocks := blocks, exchangeable := e.exchangeable, counterbalance := e.counterbalance
    banks := e.banks }

end Paradigm
