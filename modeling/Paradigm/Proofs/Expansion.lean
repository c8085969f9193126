/-
Module: Paradigm.Proofs.Expansion
Layer: Proofs
Purpose: What expansion gives. A block is related to its expanded form, with the source of
  identifiers before and after; the block passed its check under its treatment, and its contents
  were expanded in order.
Imports: Paradigm.Proofs.Rules
Main exports: Block.expand_eq, Block.Expanded, Experiment.Expanded, Block.expand_ok,
  Experiment.expand_ok, Block.ExpandedList.map_id, Block.ExpandedOption.map_id,
  Experiment.treatments_of_expand
-/
import Paradigm.Proofs.Rules

namespace Paradigm

/-! ### Expanded blocks -/

theorem Block.expand_eq (block : Block) (treatment : Option Nat) : block.expand treatment = (do
    let own := block.treated treatment
    Expanding.warn own.notices
    Expanding.check own.check
    Expanding.warn (treatmentWarnings block.id block.treatments (block.blocks.getD []))
    let pages ← Expanding.issuing (expandOption (·.mapM Page.withTextBox) block.pages)
    let items ← Expanding.issuing (expandOption (·.mapM Item.expand) block.items)
    let groups ← Expanding.issuing (expandOption (·.mapM (·.mapM Item.expand)) block.groups)
    let children ← Block.expandChildren (assignments block.treatments) block.blocks
    return { own with
      pages := pages
      items := items
      groups := groups
      blocks := children
      treatments := [] }) := by
  cases block
  rw [Block.expand]

mutual

/-- A block under its treatment beside its expanded form, between two states of the source of
identifiers. -/
inductive Block.Expanded : Option Nat → IdSource → Block → Block → IdSource → Prop where
  | mk {treatment : Option Nat} {ids ids₁ ids₂ ids₃ ids₄ : IdSource} {block : Block}
      {pages : Option (List Page)} {items : Option (List Item)}
      {groups : Option (List (List Item))} {blocks : Option (List Block)} {expanded : Block}
      (checked : (block.treated treatment).check = .ok ())
      (ofPages : expandOption (·.mapM Page.withTextBox) block.pages ids = (pages, ids₁))
      (ofItems : expandOption (·.mapM Item.expand) block.items ids₁ = (items, ids₂))
      (ofGroups : expandOption (·.mapM (·.mapM Item.expand)) block.groups ids₂ = (groups, ids₃))
      (children :
        Block.ExpandedOption (assignments block.treatments) ids₃ block.blocks blocks ids₄)
      (shape : expanded =
        { block.treated treatment with
          pages := pages, items := items, groups := groups, blocks := blocks, treatments := [] }) :
      Block.Expanded treatment ids block expanded ids₄

/-- Child blocks, where there are any, beside their expanded forms. -/
inductive Block.ExpandedOption : List (String × Nat) → IdSource → Option (List Block) →
    Option (List Block) → IdSource → Prop where
  | none {given : List (String × Nat)} {ids : IdSource} :
      Block.ExpandedOption given ids none none ids
  | some {given : List (String × Nat)} {ids ids₁ : IdSource} {blocks expanded : List Block}
      (list : Block.ExpandedList given ids blocks expanded ids₁) :
      Block.ExpandedOption given ids (some blocks) (some expanded) ids₁

/-- Blocks beside their expanded forms, each under its own treatment. -/
inductive Block.ExpandedList : List (String × Nat) → IdSource → List Block → List Block →
    IdSource → Prop where
  | nil {given : List (String × Nat)} {ids : IdSource} : Block.ExpandedList given ids [] [] ids
  | cons {given : List (String × Nat)} {ids ids₁ ids₂ : IdSource} {block expanded : Block}
      {rest others : List Block}
      (head : Block.Expanded (finalIndex given block.id) ids block expanded ids₁)
      (tail : Block.ExpandedList given ids₁ rest others ids₂) :
      Block.ExpandedList given ids (block :: rest) (expanded :: others) ids₂

end

/-- An experiment beside its expanded form. -/
structure Experiment.Expanded (ids : IdSource) (e expanded : Experiment) (ids' : IdSource) :
    Prop where
  checked : e.check = .ok ()
  blocks : Block.ExpandedList (assignments e.treatments) ids e.blocks expanded.blocks ids'
  exchangeable : expanded.exchangeable = e.exchangeable
  counterbalance : expanded.counterbalance = e.counterbalance
  banks : expanded.banks = e.banks

mutual

/-- A block that expands is related to its expanded form. -/
theorem Block.expand_ok : ∀ {block expanded : Block} {treatment : Option Nat} {p p' : Progress},
    block.expand treatment p = .ok expanded p' →
      Block.Expanded treatment p.ids block expanded p'.ids
  | ⟨id, pages, items, groups, blocks, exchangeable, counterbalance, treatments, latinSquare,
      pseudorandom, criterion, cutoff, guard, banks⟩, expanded, treatment, p, p', h => by
      simp only [Block.expand, Step.bind_eq_ok_iff, Step.pure_eq_ok_iff,
        Expanding.issuing_eq_ok_iff, Expanding.warn_eq_ok_iff, Expanding.check_eq_ok_iff] at h
      obtain ⟨_, _, rfl, _, _, ⟨hcheck, rfl⟩, _, _, rfl, _, _, ⟨rfl, rfl⟩, _, _, ⟨rfl, rfl⟩, _, _,
        ⟨rfl, rfl⟩, children, _, hchildren, rfl, rfl⟩ := h
      exact .mk hcheck rfl rfl rfl (Block.expandChildren_ok hchildren) rfl

theorem Block.expandChildren_ok : ∀ {blocks expanded : Option (List Block)}
    {given : List (String × Nat)} {p p' : Progress},
    Block.expandChildren given blocks p = .ok expanded p' →
      Block.ExpandedOption given p.ids blocks expanded p'.ids
  | none, expanded, given, p, p', h => by
      simp only [Block.expandChildren, Step.pure_eq_ok_iff] at h
      obtain ⟨rfl, rfl⟩ := h
      exact .none
  | some blocks, expanded, given, p, p', h => by
      simp only [Block.expandChildren, Step.bind_eq_ok_iff, Step.pure_eq_ok_iff] at h
      obtain ⟨list, _, hlist, rfl, rfl⟩ := h
      exact .some (Block.expandList_ok hlist)

theorem Block.expandList_ok : ∀ {blocks expanded : List Block} {given : List (String × Nat)}
    {p p' : Progress}, Block.expandList given blocks p = .ok expanded p' →
      Block.ExpandedList given p.ids blocks expanded p'.ids
  | [], expanded, given, p, p', h => by
      simp only [Block.expandList, Step.pure_eq_ok_iff] at h
      obtain ⟨rfl, rfl⟩ := h
      exact .nil
  | block :: rest, expanded, given, p, p', h => by
      simp only [Block.expandList, Step.bind_eq_ok_iff, Step.pure_eq_ok_iff] at h
      obtain ⟨first, _, hfirst, others, _, hothers, rfl, rfl⟩ := h
      exact .cons (Block.expand_ok hfirst) (Block.expandList_ok hothers)

end

/-- An experiment that expands is related to its expanded form. -/
theorem Experiment.expand_ok {e expanded : Experiment} {p p' : Progress}
    (h : e.expand p = .ok expanded p') : Experiment.Expanded p.ids e expanded p'.ids := by
  unfold Experiment.expand at h
  simp only [Step.bind_eq_ok_iff, Step.pure_eq_ok_iff, Expanding.warn_eq_ok_iff,
    Expanding.check_eq_ok_iff] at h
  obtain ⟨_, _, rfl, _, _, ⟨hcheck, rfl⟩, _, _, rfl, blocks, _, hblocks, rfl, rfl⟩ := h
  have hlist := Block.expandList_ok hblocks
  exact ⟨hcheck, hlist, rfl, rfl, rfl⟩

/-- A treatment changes nothing but the guard of a block. -/
theorem Block.treated_eq (b : Block) (treatment : Option Nat) :
    ∃ guard, b.treated treatment = { b with guard := guard } := by
  cases treatment with
  | none =>
      cases b
      exact ⟨_, rfl⟩
  | some index => exact ⟨_, rfl⟩

/-- Expansion keeps the identifier of a block. -/
theorem Block.Expanded.id_eq {treatment : Option Nat} {ids ids' : IdSource}
    {block expanded : Block} (h : Block.Expanded treatment ids block expanded ids') :
    expanded.id = block.id := by
  cases h with
  | mk checked ofPages ofItems ofGroups children shape =>
      obtain ⟨guard, htreated⟩ := block.treated_eq treatment
      rw [shape, htreated]

/-- The guard of an expanded block is the one under its treatment. -/
theorem Block.Expanded.guard_eq {treatment : Option Nat} {ids ids' : IdSource}
    {block expanded : Block} (h : Block.Expanded treatment ids block expanded ids') :
    expanded.guard = (block.treated treatment).guard := by
  cases h with
  | mk checked ofPages ofItems ofGroups children shape => rw [shape]

/-- Expansion keeps the identifiers of blocks and their order. -/
theorem Block.ExpandedList.map_id {given : List (String × Nat)} :
    ∀ {blocks expanded : List Block} {ids ids' : IdSource},
      Block.ExpandedList given ids blocks expanded ids' →
        expanded.map (·.id) = blocks.map (·.id)
  | [], _, _, _, h => by
      cases h
      rfl
  | block :: rest, _, _, _, h => by
      cases h with
      | cons head tail => rw [List.map_cons, List.map_cons, head.id_eq, tail.map_id]

theorem Block.ExpandedOption.map_id {given : List (String × Nat)}
    {blocks expanded : Option (List Block)} {ids ids' : IdSource}
    (h : Block.ExpandedOption given ids blocks expanded ids') :
    (expanded.getD []).map (·.id) = (blocks.getD []).map (·.id) := by
  cases h with
  | none => rfl
  | some list => exact list.map_id

theorem Block.ExpandedOption.isSome_eq {given : List (String × Nat)}
    {blocks expanded : Option (List Block)} {ids ids' : IdSource}
    (h : Block.ExpandedOption given ids blocks expanded ids') :
    expanded.isSome = blocks.isSome := by
  cases h <;> rfl

/-- An expanded experiment has no treatments left. -/
theorem Experiment.treatments_of_expand {e expanded : Experiment} {p p' : Progress}
    (h : e.expand p = .ok expanded p') : expanded.treatments = [] := by
  unfold Experiment.expand at h
  simp only [Step.bind_eq_ok_iff, Step.pure_eq_ok_iff] at h
  obtain ⟨_, _, _, _, _, _, _, _, _, blocks, _, _, rfl, _⟩ := h
  rfl

/-- The banks at the root of an expanded experiment passed their check. -/
theorem Experiment.Expanded.checkBanks {e expanded : Experiment} {ids ids' : IdSource}
    (h : Experiment.Expanded ids e expanded ids') :
    checkBanks Experiment.node expanded.banks = .ok () := by
  rw [h.banks]
  exact (Experiment.check_eq_ok_iff.mp h.checked).banks

end Paradigm
