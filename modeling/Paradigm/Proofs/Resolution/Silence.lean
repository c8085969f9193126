/-
Module: Paradigm.Proofs.Resolution.Silence
Layer: Proofs
Purpose: What resolution warns of: only blocks are warned of, by the check that resolution makes of
  them. Where that check has nothing to warn of, no warnings are given, whether resolution succeeds
  or is refused.
Imports: Paradigm.Proofs.Step, Paradigm.Proofs.Tree.Nodes
Main exports: Resolving.Silent, Page.silent_resolve, Item.silent_resolve, Block.silent_resolve,
  Experiment.silent_resolve
-/
import Paradigm.Proofs.Step
import Paradigm.Proofs.Tree.Nodes

namespace Paradigm

/-! ### Silent steps -/

/-- Steps of resolution that give no warnings, whether they succeed or are refused. -/
def Resolving.Silent {α : Type} (m : Resolving α) : Prop :=
  ∀ g, (Step.left (m g)).warnings = g.warnings

namespace Resolving.Silent

variable {α β : Type}

theorem pure (value : α) : Silent (Pure.pure value : Resolving α) := fun _ => rfl

theorem bind {m : Resolving α} {next : α → Resolving β} (first : Silent m)
    (second : ∀ value, Silent (next value)) : Silent (m >>= next) := by
  intro g
  have hfirst := first g
  cases hm : m g with
  | error failure g₁ =>
      rw [Step.bind_of_error hm, Step.left]
      rwa [hm, Step.left] at hfirst
  | ok value g₁ =>
      rw [Step.bind_of_ok hm, second value g₁]
      rwa [hm, Step.left] at hfirst

theorem lift (outcome : Except Failure α) : Silent (Resolving.lift outcome) := by
  intro g
  cases outcome <;> rfl

theorem warn {warnings : List Warning} (h : warnings = []) : Silent (Resolving.warn warnings) := by
  intro g
  show g.warnings ++ warnings = g.warnings
  rw [h, List.append_nil]

theorem openScope (owner : String) (banks : Banks) : Silent (Resolving.openScope owner banks) :=
  fun _ => rfl

theorem closeScope : Silent Resolving.closeScope := by
  intro g
  unfold Resolving.closeScope
  split
  · rfl
  · split <;> rfl

theorem freshSlot (bank : String) : Silent (Resolving.freshSlot bank) := fun _ => rfl

theorem bindUse (bank : String) (use : Use) : Silent (Resolving.bind bank use) := by
  intro g
  unfold Resolving.bind
  split <;> rfl

theorem mapM {step : α → Resolving β} (h : ∀ x, Silent (step x)) (xs : List α) :
    Silent (xs.mapM step) := by
  induction xs with
  | nil =>
      rw [List.mapM_nil]
      exact .pure []
  | cons x rest ih =>
      rw [List.mapM_cons]
      exact (h x).bind fun _ => ih.bind fun _ => .pure _

theorem option {step : α → Resolving β} (h : ∀ x, Silent (step x)) (value : Option α) :
    Silent (resolveOption step value) := by
  cases value with
  | none => exact .pure none
  | some x => exact (h x).bind fun _ => .pure _

end Resolving.Silent

/-! ### Pages -/

section Silent

variable {env : Surroundings}

theorem Placeholder.silent_resolve (node : String) (p : Placeholder) :
    Resolving.Silent (p.resolve env node) := by
  have hslot : Resolving.Silent (p.slot env node) := by
    unfold Placeholder.slot
    cases p.draw with
    | fresh => exact .bind (.freshSlot _) fun _ => .pure _
    | shared token => exact .bind (.lift _) fun _ => .pure _
    | unlike token => exact .bind (.lift _) fun _ => .pure _
    | replacing => exact .pure _
  exact hslot.bind fun _ => .bind (.bindUse _ _) fun _ => .pure _

theorem Text.silent_resolve (node : String) (text : Text) :
    Resolving.Silent (text.resolve env node) := by
  cases text with
  | literal value => exact .pure _
  | sample p => exact .bind (p.silent_resolve node) fun _ => .pure _

theorem Text.silent_resolveOption (node : String) (text : Option Text) :
    Resolving.Silent (Text.resolveOption env node text) := by
  cases text with
  | none => exact .pure _
  | some text => exact .bind (text.silent_resolve node) fun _ => .pure _

theorem PageText.silent_resolve (node : String) (text : PageText) :
    Resolving.Silent (text.resolve env node) := by
  cases text with
  | single text => exact .bind (text.silent_resolve node) fun _ => .pure _
  | lines texts => exact .bind (.mapM (Text.silent_resolve node) texts) fun _ => .pure _

theorem ResourceEntry.silent_resolve (node : String) (entry : ResourceEntry) :
    Resolving.Silent (entry.resolve env node) := by
  cases entry with
  | file name => exact .pure _
  | full resource => exact .bind (resource.source.silent_resolve node) fun _ => .pure _
  | sample p => exact .bind (p.silent_resolve node) fun _ => .pure _

mutual

theorem Feedback.silent_resolve : ∀ (node : String) (feedback : Feedback),
    Resolving.Silent (feedback.resolve env node)
  | node, .text label => by
      rw [Feedback.resolve]
      exact .bind (label.silent_resolve node) fun _ => .pure _
  | _, .page shown => by
      rw [Feedback.resolve]
      exact .bind (Page.silent_resolve shown) fun _ => .pure _

theorem Feedback.silent_resolveOption : ∀ (node : String) (feedback : Option Feedback),
    Resolving.Silent (Feedback.resolveOption env node feedback)
  | _, none => by
      rw [Feedback.resolveOption]
      exact .pure _
  | node, some feedback => by
      rw [Feedback.resolveOption]
      exact .bind (Feedback.silent_resolve node feedback) fun _ => .pure _

theorem Choice.silent_resolve : ∀ (choice : Choice), Resolving.Silent (choice.resolve env)
  | ⟨id, text, _, feedback, resources, _⟩ => by
      rw [Choice.resolve]
      exact .bind (.lift _) fun _ => .bind (Text.silent_resolveOption id text) fun _ =>
        .bind (Feedback.silent_resolveOption id feedback) fun _ =>
        .bind (.mapM (ResourceEntry.silent_resolve id) resources) fun _ => .pure _

theorem Choice.silent_resolveList : ∀ (choices : List Choice),
    Resolving.Silent (Choice.resolveList env choices)
  | [] => by
      rw [Choice.resolveList]
      exact .pure _
  | choice :: rest => by
      rw [Choice.resolveList]
      exact .bind (Choice.silent_resolve choice) fun _ =>
        .bind (Choice.silent_resolveList rest) fun _ => .pure _

/-- Resolving a page gives no warnings. -/
theorem Page.silent_resolve : ∀ (page : Page), Resolving.Silent (page.resolve env)
  | ⟨id, text, choices, feedback, _, resources, condition, _, _, _, _, _, guard⟩ => by
      rw [Page.resolve]
      exact .bind (.lift _) fun _ => .bind (text.silent_resolve id) fun _ =>
        .bind (Choice.silent_resolveList choices) fun _ =>
        .bind (Feedback.silent_resolveOption id feedback) fun _ =>
        .bind (.mapM (ResourceEntry.silent_resolve id) resources) fun _ =>
        .bind (Text.silent_resolveOption id condition) fun _ => .bind (.lift _) fun _ => .pure _

end

/-! ### Items and blocks -/

theorem Item.silent_resolve (item : Item) : Resolving.Silent (item.resolve env) :=
  .bind (.lift _) fun _ => .bind (.mapM Page.silent_resolve item.pages) fun _ =>
    .bind (Text.silent_resolveOption item.id item.condition) fun _ =>
    .bind (.lift _) fun _ => .pure _

mutual

/-- Resolving a block gives no warnings if there is nothing to warn of in the block and in those
within it. -/
theorem Block.silent_resolve : ∀ (block : Block), (∀ inner ∈ block.within, inner.notices = []) →
    Resolving.Silent (block.resolve env)
  | ⟨id, pages, items, groups, blocks, exchangeable, counterbalance, treatments, latinSquare,
      pseudorandom, criterion, cutoff, guard, banks⟩, h => by
      rw [Block.within, List.forall_mem_cons] at h
      obtain ⟨hself, hinner⟩ := h
      rw [Block.resolve]
      exact .bind (.warn hself) fun _ => .bind (.lift _) fun _ =>
        .bind (.openScope id banks) fun _ =>
        .bind (.option (.mapM Page.silent_resolve) pages) fun _ =>
        .bind (.option (.mapM Item.silent_resolve) items) fun _ =>
        .bind (.option (.mapM (.mapM Item.silent_resolve)) groups) fun _ =>
        .bind (Block.silent_resolveChildren blocks hinner) fun _ => .bind (.lift _) fun _ =>
        .bind .closeScope fun _ => .pure _

theorem Block.silent_resolveChildren : ∀ (blocks : Option (List Block)),
    (∀ inner ∈ Block.withinOption blocks, inner.notices = []) →
      Resolving.Silent (Block.resolveChildren env blocks)
  | none, _ => by
      rw [Block.resolveChildren]
      exact .pure _
  | some blocks, h => by
      rw [Block.withinOption] at h
      rw [Block.resolveChildren]
      exact .bind (Block.silent_resolveList blocks h) fun _ => .pure _

theorem Block.silent_resolveList : ∀ (blocks : List Block),
    (∀ inner ∈ Block.withinList blocks, inner.notices = []) →
      Resolving.Silent (Block.resolveList env blocks)
  | [], _ => by
      rw [Block.resolveList]
      exact .pure _
  | block :: rest, h => by
      rw [Block.withinList, List.forall_mem_append] at h
      rw [Block.resolveList]
      exact .bind (Block.silent_resolve block h.1) fun _ =>
        .bind (Block.silent_resolveList rest h.2) fun _ => .pure _

end

/-- Resolving a tree gives no warnings if there is nothing to warn of in its blocks. -/
theorem Experiment.silent_resolve {e : Experiment}
    (h : ∀ block ∈ e.allBlocks, block.notices = []) : Resolving.Silent (e.resolve env) :=
  .bind (.openScope _ _) fun _ => .bind (Block.silent_resolveList e.blocks h) fun _ =>
    .bind .closeScope fun _ => .pure _

end Silent

end Paradigm
