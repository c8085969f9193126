/-
Module: Paradigm.Proofs.SecondChecks
Layer: Proofs
Purpose: Rules that are asked twice. The root and every block pass their checks before their
  treatments are used up, and blocks are asked again as they are resolved. What their policies read
  of a block stays as it is in expansion, and the guard under the treatment is the one that was
  asked about, so what passed once passes again. With the treatments gone there is nothing left to
  warn of.
Imports: Paradigm.Proofs.Policies
Main exports: Item.effectiveCondition_expand, Block.Expanded.form_eq, Block.Expanded.check_eq_ok,
  Experiment.checks_of_expand, Block.resolve_eq_of_check, Experiment.expand_rechecks
-/
import Paradigm.Proofs.Policies

namespace Paradigm

/-! ### Conditions after expansion -/

theorem Page.BoxedAs.condition_eq {fresh : String → Prop} {page boxed : Page}
    (h : page.BoxedAs fresh boxed) : boxed.condition = page.condition := by
  cases h with
  | boxed freetext without new => rfl
  | kept other => rfl

/-- The first page of an item after expansion has the condition of the first page that the item was
given. A text was given no page, and the page made for it has no condition. -/
theorem Item.UnfoldsTo.condition_eq {fresh : String → Prop} {item : Item} {pages : List Page}
    (h : item.UnfoldsTo fresh pages) :
    pages.head?.bind (·.condition) = item.pages.head?.bind (·.condition) := by
  cases h with
  | @mk given _ unfolded contents sites boxes =>
      have hgiven : given.head?.bind (·.condition) = item.pages.head?.bind (·.condition) := by
        unfold Item.pages
        generalize item.contents = contents at contents
        cases contents <;> rfl
      rw [← hgiven]
      cases sites with
      | nil =>
          cases boxes
          rfl
      | cons first rest =>
          cases first with
          | mk shown =>
              cases boxes with
              | cons head tail => exact head.condition_eq

theorem Page.condition_withTextBox (page : Page) (ids : IdSource) :
    (page.withTextBox ids).1.condition = page.condition := by
  rw [Page.withTextBox_run]
  split <;> rfl

/-- The condition that counts for an item is the same after expansion. -/
theorem Item.effectiveCondition_expand (item : Item) (ids : IdSource) :
    (item.expand ids).1.effectiveCondition = item.effectiveCondition := by
  have hexpanded := (Item.unfolds_expand item ids).2 (fun _ => True) fun _ _ => trivial
  rw [Item.effectiveCondition, hexpanded.unfolds.condition_eq, hexpanded.shape]
  rfl

/-! ### Blocks after expansion -/

section Expanded

variable {treatment : Option Nat} {ids ids' : IdSource} {block expanded : Block}

/-- What policies read of a block stays as it is. -/
theorem Block.Expanded.form_eq (h : Block.Expanded treatment ids block expanded ids') :
    expanded.form = block.form := by
  obtain ⟨guard, htreated⟩ := block.treated_eq treatment
  cases h with
  | @mk _ _ ids₁ ids₂ ids₃ _ _ _ _ _ _ _ checked ofPages ofItems ofGroups children shape =>
      obtain ⟨hpages, hitems, hgroups⟩ := Issuing.map_literal_conditions Page.condition_withTextBox
        Item.effectiveCondition_expand
      have hpages := hpages block.pages ids
      have hitems := hitems block.items ids₁
      have hgroups := hgroups block.groups ids₂
      rw [ofPages] at hpages
      rw [ofItems] at hitems
      rw [ofGroups] at hgroups
      subst shape
      rw [htreated]
      simp only [Block.form, hpages, hitems, hgroups, children.isSome_eq]

/-- A block that uses up its treatments refers to its children only, if it did so before. -/
theorem Block.Expanded.checkReferences_eq_ok
    (h : Block.Expanded treatment ids block expanded ids') :
    expanded.checkReferences = .ok () := by
  obtain ⟨guard, htreated⟩ := block.treated_eq treatment
  cases h with
  | mk checked ofPages ofItems ofGroups children shape =>
      have hgiven := (Block.check_eq_ok_iff.mp checked).references
      rw [htreated, Block.checkReferences_eq_ok_iff] at hgiven
      obtain ⟨hblocks, hnamed⟩ := hgiven
      subst shape
      rw [htreated, Block.checkReferences_eq_ok_iff]
      constructor
      · intro hlists
        have hsome : block.blocks.isSome = true := by
          apply hblocks
          simp only [Block.hasReferences, List.isEmpty_nil, Bool.not_true, Bool.or_false,
            Bool.or_eq_true] at hlists ⊢
          exact .inl hlists
        exact children.isSome_eq.trans hsome
      · intro ref href
        rw [children.map_id]
        exact hnamed ref (mem_references_of_untreated href block.treatments)

/-- A block passes its check again after expansion. -/
theorem Block.Expanded.check_eq_ok (h : Block.Expanded treatment ids block expanded ids') :
    expanded.check = .ok () := by
  have hform := h.form_eq
  have hreferences := h.checkReferences_eq_ok
  have hid := h.id_eq
  have hguard := h.guard_eq
  cases h with
  | mk checked ofPages ofItems ofGroups children shape =>
      obtain ⟨hfits, _, hguards⟩ := Block.check_eq_ok_iff_fits.mp checked
      have htreated : (block.treated treatment).form = block.form := by
        cases treatment <;> rfl
      have hsame : (block.treated treatment).id = block.id := by
        cases treatment <;> rfl
      refine Block.check_eq_ok_iff_fits.mpr ⟨?_, hreferences, ?_⟩
      · rw [hform, ← htreated]
        exact hfits
      · rw [hguard, hid, ← hsame]
        exact hguards

/-- There is nothing to warn of in a block without treatments. -/
theorem Block.notices_eq_nil {block : Block} (h : block.treatments = []) : block.notices = [] := by
  unfold Block.notices
  split
  · simp [sharedPermutation, h]
  · rfl

theorem Block.Expanded.notices_eq_nil (h : Block.Expanded treatment ids block expanded ids') :
    expanded.notices = [] := by
  apply Block.notices_eq_nil
  cases h with
  | mk checked ofPages ofItems ofGroups children shape => rw [shape]

end Expanded

/-! ### The root after expansion -/

section Root

variable {e expanded : Experiment} {p p' : Progress}

/-- The root passes its check again after expansion. -/
theorem Experiment.check_of_expand (h : e.expand p = .ok expanded p') :
    expanded.check = .ok () := by
  have hexpanded := Experiment.expand_ok h
  have hnamed :=
    checkReferences_eq_ok_iff.mp (Experiment.check_eq_ok_iff.mp hexpanded.checked).references
  rw [Experiment.check_eq_ok_iff]
  constructor
  · apply checkReferences_eq_ok_iff.mpr
    intro ref href
    rw [hexpanded.blocks.map_id]
    rw [hexpanded.exchangeable, hexpanded.counterbalance, Experiment.treatments_of_expand h] at href
    exact hnamed ref (mem_references_of_untreated href e.treatments)
  · exact hexpanded.checkBanks

/-- There is nothing to warn of in a root without treatments. -/
theorem Experiment.notices_eq_nil {e : Experiment} (h : e.treatments = []) : e.notices = [] := by
  unfold Experiment.notices
  split
  · simp [sharedPermutation, h]
  · rfl

theorem Experiment.notices_of_expand (h : e.expand p = .ok expanded p') :
    expanded.notices = [] :=
  Experiment.notices_eq_nil (Experiment.treatments_of_expand h)

/-- All blocks of an expanded tree pass their checks again, and there is nothing to warn of. -/
theorem Experiment.checks_of_expand (h : e.expand p = .ok expanded p') :
    ∀ block ∈ expanded.allBlocks, block.check = .ok () ∧ block.notices = [] := by
  intro block hblock
  obtain ⟨given, _, _, _, _, _, _, hgiven⟩ :=
    exists_left_of_forall₂ (Experiment.expand_ok h).allBlocks block hblock
  exact ⟨hgiven.check_eq_ok, hgiven.notices_eq_nil⟩

end Root

/-! ### Resolution after expansion -/

section Resolution

variable (env : Surroundings)

/-- Resolves a block without asking for its rules again. -/
def Block.resolveUnasked (block : Block) : Resolving Document.Block := do
  Resolving.openScope block.id block.banks
  let pages ← resolveOption (·.mapM (Page.resolve env)) block.pages
  let items ← resolveOption (·.mapM (Item.resolve env)) block.items
  let groups ← resolveOption (·.mapM (·.mapM (Item.resolve env))) block.groups
  let children ← Block.resolveChildren env block.blocks
  let guard ← Guard.resolveOption env block.id block.guard
  Resolving.closeScope
  return {
    id := block.id, pages := pages, items := items, groups := groups, blocks := children
    exchangeable := block.exchangeable, counterbalance := block.counterbalance
    latinSquare := block.latinSquare, pseudorandom := block.pseudorandom
    criterion := block.criterion, cutoff := block.cutoff, guard := guard
    banks := block.banks }

/-- Asking a block that passes its check and has nothing to warn of makes no difference. -/
theorem Block.resolve_eq_of_check {block : Block} (hcheck : block.check = .ok ())
    (hnotices : block.notices = []) : block.resolve env = block.resolveUnasked env := by
  have hsteps : block.resolve env = (do
      Resolving.warn block.notices
      Resolving.lift block.check
      block.resolveUnasked env) := by
    cases block
    rw [Block.resolve]
    rfl
  funext g
  have hwarn : Resolving.warn block.notices g = .ok () g := by
    rw [Resolving.warn_eq_ok_iff, hnotices, List.append_nil]
  have hlift : Resolving.lift block.check g = .ok () g :=
    Resolving.lift_eq_ok_iff.mpr ⟨hcheck, rfl⟩
  rw [hsteps, Step.bind_of_ok hwarn, Step.bind_of_ok hlift]

end Resolution

/-- A tree that was expanded passes all checks again: its root and each of its blocks, at any depth,
are in order and leave nothing to warn of. So resolution may as well not ask its blocks again. -/
theorem Experiment.expand_rechecks {e expanded : Experiment} {p p' : Progress}
    (h : e.expand p = .ok expanded p') :
    expanded.check = .ok () ∧ expanded.notices = [] ∧
      (∀ block ∈ expanded.allBlocks, block.check = .ok () ∧ block.notices = []) ∧
      ∀ env, ∀ block ∈ expanded.allBlocks, block.resolve env = block.resolveUnasked env := by
  have hblocks := Experiment.checks_of_expand h
  refine ⟨Experiment.check_of_expand h, Experiment.notices_of_expand h, hblocks, ?_⟩
  intro env block hblock
  obtain ⟨hcheck, hnotices⟩ := hblocks block hblock
  exact Block.resolve_eq_of_check env hcheck hnotices

/-! ### Two rounds -/

/-- A practice and a test in an order that depends on the permutation. Both treatments name the
practice, which has a guard of its own and asks for a name in a text box. The test orders a latin
square by conditions; two of its items show feedback. -/
def Experiment.rounds : Experiment where
  blocks := [
    { id := "rounds"
      blocks := some [
        { id := "practice"
          pages := some [
            { id := "name", text := .single (.literal "Name?"), freetext := some true }]
          guard := some { page := some "name" } },
        { id := "test"
          groups := some [
            [.trial "ant" "short", .trialWithFeedback "antelope" "p" "long"],
            [.trialWithFeedback "bee" "q" "short", .trial "beetroot" "long"]]
          latinSquare := some true
          pseudorandom := some true }]
      counterbalance := ["practice", "test"]
      treatments := [["practice"], ["test", "practice"]]
      banks := .frames }]

/-- A word shown on a page of its own. -/
def Item.trialExpanded (word page condition : String) : Item where
  id := word
  contents := .pages [{ id := page, text := .single (.literal word) }]
  condition := some (.literal condition)

/-- A word shown on a page that is followed by its feedback. -/
def Item.trialWithFeedbackExpanded (word page feedback condition : String) : Item where
  id := word
  contents := .pages [
    { id := page
      text := .single (.sample { bank := "frames", draw := .replacing, field := some "frame" })
      condition := some (.literal condition) },
    { id := feedback, text := .single (.literal "Well done") }]

/-- The rounds after expansion. -/
def Experiment.roundsExpanded : Experiment where
  blocks := [
    { id := "rounds"
      blocks := some [
        { id := "practice"
          pages := some [
            { id := "name", text := .single (.literal "Name?"), choices := [{ id := "1" }]
              freetext := some true }]
          guard := some { permutation := some 1 } },
        { id := "test"
          groups := some [
            [.trialExpanded "ant" "2" "short",
              .trialWithFeedbackExpanded "antelope" "p" "3" "long"],
            [.trialWithFeedbackExpanded "bee" "q" "4" "short",
              .trialExpanded "beetroot" "5" "long"]]
          latinSquare := some true
          pseudorandom := some true
          guard := some { permutation := some 1 } }]
      counterbalance := ["practice", "test"]
      banks := .frames }]

/-- The warnings of expanding the rounds. -/
def Progress.rounds : Progress where
  ids := { last := 5 }
  warnings := [.sharedPermutation "rounds", .reassigned "rounds" "practice" 0 1,
    .guardReplaced "practice" 1]

/-- The rounds expand. -/
theorem Experiment.expand_rounds : Experiment.rounds.expand { ids := {}, warnings := [] }
    = .ok Experiment.roundsExpanded Progress.rounds := by
  cbv

/-- The practice and the test are in order under their new guards, and the three warnings are not
given again. -/
theorem Experiment.expand_rechecks_rounds :
    Experiment.rounds.expand { ids := {}, warnings := [] }
        = .ok Experiment.roundsExpanded Progress.rounds ∧
      Experiment.roundsExpanded.check = .ok () ∧ Experiment.roundsExpanded.notices = [] ∧
      (∀ block ∈ Experiment.roundsExpanded.allBlocks, block.check = .ok () ∧ block.notices = []) ∧
      ∀ env, ∀ block ∈ Experiment.roundsExpanded.allBlocks,
        block.resolve env = block.resolveUnasked env :=
  ⟨Experiment.expand_rounds, Experiment.expand_rechecks Experiment.expand_rounds⟩

end Paradigm
