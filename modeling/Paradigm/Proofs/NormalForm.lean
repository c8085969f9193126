/-
Module: Paradigm.Proofs.NormalForm
Layer: Proofs
Purpose: Expansion is done in one pass. A tree is settled when nothing in it is left to write out:
  its items hold pages without feedback, text boxes have their options, there are no treatments, and
  all checks pass. Expansion leaves settled trees as they are. Expanded trees are settled, unless a
  page that was attached as feedback carries feedback itself.
Imports: Paradigm.Proofs.FeedbackPages, Paradigm.Proofs.SecondChecks
Main exports: Item.Settled, Block.Settled, Experiment.Settled, Experiment.Settled.expand_eq,
  Experiment.settled_of_expand, Experiment.expand_twice
-/
import Paradigm.Proofs.FeedbackPages
import Paradigm.Proofs.SecondChecks

namespace Paradigm

/-! ### Settled trees -/

/-- An item with a list of pages, none of which carries feedback or lacks an option for its text
box. -/
structure Item.Settled (item : Item) : Prop where
  contents : item.contents = .pages item.pages
  plain : ∀ page ∈ item.pages, page.feedbackSites = []
  boxed : ∀ page ∈ item.pages, page.lacksBox = false

/-- A block in order whose treatments are used up and whose pages and items are settled. Pages that
stand in a block directly keep their feedback. -/
structure Block.Settled (block : Block) : Prop where
  checked : block.check = .ok ()
  treatments : block.treatments = []
  boxed : ∀ page ∈ block.pages.getD [], page.lacksBox = false
  items : ∀ item ∈ block.ownItems, item.Settled

/-- An experiment in order whose treatments are used up and whose blocks are settled. -/
structure Experiment.Settled (e : Experiment) : Prop where
  checked : e.check = .ok ()
  treatments : e.treatments = []
  blocks : ∀ block ∈ e.allBlocks, block.Settled

/-! ### Steps that leave things as they are -/

/-- A step leaves a value as it is and issues no identifiers. -/
def Leaves {α : Type} (step : α → Issuing α) (x : α) : Prop := ∀ ids, step x ids = (x, ids)

/-- Steps over a list that issue no identifiers. -/
theorem Issuing.mapM_eq_map {α β : Type} {step : α → Issuing β} {f : α → β} {xs : List α}
    {ids : IdSource} (h : ∀ x ∈ xs, step x ids = (f x, ids)) :
    (xs.mapM step : Issuing (List β)) ids = (xs.map f, ids) := by
  induction xs with
  | nil => rfl
  | cons x rest ih =>
      rw [List.forall_mem_cons] at h
      rw [Issuing.mapM_cons_run, h.1, ih h.2, List.map_cons]

section Leaves

variable {α : Type} {step : α → Issuing α}

theorem Leaves.mapM {xs : List α} (h : ∀ x ∈ xs, Leaves step x) :
    Leaves (fun xs : List α => xs.mapM step) xs := by
  intro ids
  have hmap := Issuing.mapM_eq_map (f := id) fun x hx => h x hx ids
  rwa [List.map_id] at hmap

theorem Leaves.option {x : Option α} (h : ∀ value ∈ x, Leaves step value) :
    Leaves (expandOption step) x := by
  intro ids
  cases x with
  | none => rfl
  | some value =>
      show (some (step value ids).1, (step value ids).2) = (some value, ids)
      rw [h value rfl]

/-- In expansion, a step that leaves a value as it is changes nothing. -/
theorem Leaves.issuing {x : α} (h : Leaves step x) (p : Progress) :
    Expanding.issuing (step x) p = .ok x p := by
  rw [Expanding.issuing_eq_ok_iff, h p.ids]
  exact ⟨rfl, rfl⟩

end Leaves

/-! ### Pages and items -/

theorem Page.leaves_withTextBox {page : Page} (h : page.lacksBox = false) :
    Leaves Page.withTextBox page := by
  intro ids
  rw [Page.withTextBox_run, ← Page.lacksBox, h, if_neg Bool.false_ne_true]

/-- A page carries no feedback where neither the page itself nor one of its options does. -/
theorem Page.feedbackSites_eq_nil_iff {page : Page} : page.feedbackSites = [] ↔
    page.feedback = none ∧ ∀ choice ∈ page.choices, choice.feedback = none := by
  simp [Page.feedbackSites]

theorem Page.plain_eq {page : Page} (h : page.feedbackSites = []) : page.plain = page := by
  obtain ⟨hown, hchoices⟩ := Page.feedbackSites_eq_nil_iff.mp h
  have hsame : page.choices.map (fun choice => { choice with feedback := none })
      = page.choices := by
    conv => rhs; rw [← List.map_id page.choices]
    apply List.map_congr_left
    intro choice hchoice
    have hnone := hchoices choice hchoice
    cases choice
    simp only at hnone
    rw [hnone]
    rfl
  rw [Page.plain, hsame]
  cases page
  simp only at hown
  rw [hown]

theorem choiceFeedback_eq_nil {page : String} {choices : List Choice} (ids : IdSource)
    (h : ∀ choice ∈ choices, choice.feedback = none) :
    choiceFeedback page choices ids = ([], ids) := by
  induction choices with
  | nil => rfl
  | cons choice rest ih =>
      rw [List.forall_mem_cons] at h
      rw [choiceFeedback_run_none ids h.1]
      exact ih h.2

/-- A page without feedback stands alone. -/
theorem Page.spliced_eq {page : Page} (h : page.feedbackSites = []) (ids : IdSource) :
    page.spliced ids = ([page], ids) := by
  obtain ⟨hown, hchoices⟩ := Page.feedbackSites_eq_nil_iff.mp h
  have hnone : pageFeedback page.feedback ids = ([], ids) := by
    rw [hown]
    rfl
  rw [Page.spliced_run, Page.plain_eq h, hnone]
  simp only [choiceFeedback_eq_nil ids hchoices, List.append_nil]

/-- A settled item expands to itself. -/
theorem Item.Settled.leaves_expand {item : Item} (h : item.Settled) : Leaves Item.expand item := by
  intro ids
  have hgiven : item.contents.toPages ids = (item.pages, ids) := by
    rw [h.contents]
    rfl
  have hspliced := Issuing.mapM_eq_map fun page hpage => Page.spliced_eq (h.plain page hpage) ids
  have hflatten : (item.pages.map ([·])).flatten = item.pages := by
    rw [← List.flatMap_def, List.flatMap_singleton']
  have hboxed := Leaves.mapM fun page hpage => Page.leaves_withTextBox (h.boxed page hpage)
  rw [Item.expand_run]
  simp only [hgiven, hspliced, hflatten, hboxed ids]
  rw [← h.contents]

/-! ### Blocks -/

/-- Without treatments there is nothing to warn of in child blocks. -/
theorem treatmentWarnings_nil (owner : String) (children : List Block) :
    treatmentWarnings owner [] children = [] := by
  show children.flatMap (Block.replacement []) = []
  rw [List.flatMap_eq_nil_iff]
  intro child _
  rfl

/-- The contents of a settled block stay as they are. -/
theorem Block.Settled.leaves {block : Block} (h : block.Settled) :
    Leaves (expandOption (·.mapM Page.withTextBox)) block.pages ∧
      Leaves (expandOption (·.mapM Item.expand)) block.items ∧
      Leaves (expandOption (·.mapM (·.mapM Item.expand))) block.groups := by
  have hitems := h.items
  simp only [Block.ownItems, List.forall_mem_append, List.forall_mem_flatten] at hitems
  obtain ⟨hitems, hgroups⟩ := hitems
  refine ⟨.option ?_, .option ?_, .option ?_⟩
  · intro pages hpages
    apply Leaves.mapM
    intro page hpage
    apply Page.leaves_withTextBox
    apply h.boxed page
    rwa [hpages]
  · intro items hsome
    apply Leaves.mapM
    intro item hitem
    apply Item.Settled.leaves_expand
    apply hitems item
    rwa [hsome]
  · intro groups hsome
    apply Leaves.mapM
    intro group hgroup
    apply Leaves.mapM
    intro item hitem
    apply Item.Settled.leaves_expand
    apply hgroups group _ item hitem
    rwa [hsome]

mutual

/-- A settled block expands to itself where no treatment names it: no identifiers are issued, and no
warnings are given. -/
theorem Block.expand_of_settled : ∀ (block : Block) (p : Progress),
    (∀ inner ∈ block.within, inner.Settled) → block.expand none p = .ok block p
  | ⟨id, pages, items, groups, blocks, exchangeable, counterbalance, treatments, latinSquare,
      pseudorandom, criterion, cutoff, guard, banks⟩, p, h => by
      rw [Block.within, List.forall_mem_cons] at h
      obtain ⟨hself, hinner⟩ := h
      obtain ⟨hpages, hitems, hgroups⟩ := hself.leaves
      have hnotices := Block.notices_eq_nil hself.treatments
      have hchecked := hself.checked
      have htreatments := hself.treatments
      simp only at hpages hitems hgroups htreatments
      subst htreatments
      have hchildren := Block.expandChildren_of_settled blocks p hinner
      simp only [Block.expand, Block.treated, Step.bind_eq_ok_iff, Step.pure_eq_ok_iff,
        Expanding.warn_eq_ok_iff, Expanding.check_eq_ok_iff]
      refine ⟨(), p, ?_, (), p, ⟨hchecked, rfl⟩, (), p, ?_, pages, p, hpages.issuing p, items, p,
        hitems.issuing p, groups, p, hgroups.issuing p, blocks, p, hchildren, rfl, rfl⟩
      · rw [hnotices, List.append_nil]
      · rw [treatmentWarnings_nil, List.append_nil]

theorem Block.expandChildren_of_settled : ∀ (blocks : Option (List Block)) (p : Progress),
    (∀ inner ∈ Block.withinOption blocks, inner.Settled) →
      Block.expandChildren [] blocks p = .ok blocks p
  | none, p, _ => rfl
  | some blocks, p, h => by
      rw [Block.withinOption] at h
      rw [Block.expandChildren, Step.bind_of_ok (Block.expandList_of_settled blocks p h)]
      rfl

theorem Block.expandList_of_settled : ∀ (blocks : List Block) (p : Progress),
    (∀ inner ∈ Block.withinList blocks, inner.Settled) →
      Block.expandList [] blocks p = .ok blocks p
  | [], p, _ => rfl
  | block :: rest, p, h => by
      rw [Block.withinList, List.forall_mem_append] at h
      have hnone : finalIndex [] block.id = none := rfl
      rw [Block.expandList, hnone, Step.bind_of_ok (Block.expand_of_settled block p h.1),
        Step.bind_of_ok (Block.expandList_of_settled rest p h.2)]
      rfl

end

/-- A settled experiment expands to itself: no identifiers are issued, and no warnings are given. -/
theorem Experiment.Settled.expand_eq {e : Experiment} (h : e.Settled) (p : Progress) :
    e.expand p = .ok e p := by
  have hnotices := Experiment.notices_eq_nil h.treatments
  have hblocks : Block.expandList (assignments e.treatments) e.blocks p = .ok e.blocks p := by
    rw [h.treatments]
    exact Block.expandList_of_settled e.blocks p h.blocks
  unfold Experiment.expand
  simp only [Step.bind_eq_ok_iff, Step.pure_eq_ok_iff, Expanding.warn_eq_ok_iff,
    Expanding.check_eq_ok_iff]
  refine ⟨(), p, ?_, (), p, ⟨h.checked, rfl⟩, (), p, ?_, e.blocks, p, hblocks, ?_, rfl⟩
  · rw [hnotices, List.append_nil]
  · rw [h.treatments, treatmentWarnings_nil, List.append_nil]
  · rw [← h.treatments]

/-! ### Expanded trees are settled -/

section Expanded

variable {fresh : String → Prop}

theorem Page.BoxedAs.lacksBox_eq {page boxed : Page} (h : page.BoxedAs fresh boxed) :
    boxed.lacksBox = false := by
  cases h with
  | boxed freetext without new => simp [Page.lacksBox]
  | kept other => simpa [Page.lacksBox] using other

/-- An expanded item is settled if the pages attached to its pages carry no feedback themselves:
these are the only pages that come into it as they are. -/
theorem Item.ExpandedAs.settled {item expanded : Item} (h : item.ExpandedAs fresh expanded)
    (hflat : ∀ shown ∈ item.attached, shown.feedbackSites = []) : expanded.Settled := by
  constructor
  · rw [h.shape]
    rfl
  · rw [← List.flatMap_eq_nil_iff, h.unfolds.feedbackSites_eq, List.flatMap_eq_nil_iff]
    exact hflat
  · intro page hpage
    cases h.unfolds with
    | mk contents sites boxes =>
        obtain ⟨given, _, hboxed⟩ := exists_left_of_forall₂ boxes page hpage
        exact hboxed.lacksBox_eq

theorem Block.Expanded.treatments_eq {treatment : Option Nat} {ids ids' : IdSource}
    {block expanded : Block} (h : Block.Expanded treatment ids block expanded ids') :
    expanded.treatments = [] := by
  cases h with
  | mk checked ofPages ofItems ofGroups children shape => rw [shape]

/-- An expanded block is settled if the pages attached to the pages of its items carry no feedback
themselves. -/
theorem Block.Expanded.settled {treatment : Option Nat} {ids ids' : IdSource}
    {block expanded : Block} (h : Block.Expanded treatment ids block expanded ids')
    (hflat : ∀ item ∈ block.ownItems, ∀ shown ∈ item.attached, shown.feedbackSites = []) :
    expanded.Settled := by
  have hheld : block.HeldAs (fun _ => True) expanded := h.heldAs fun _ _ => trivial
  constructor
  · exact h.check_eq_ok
  · exact h.treatments_eq
  · intro page hpage
    obtain ⟨given, _, hboxed⟩ := exists_left_of_forall₂ hheld.pages page hpage
    exact hboxed.lacksBox_eq
  · intro item hitem
    obtain ⟨given, hgiven, hexpanded⟩ := exists_left_of_forall₂ hheld.items item hitem
    exact hexpanded.settled (hflat given hgiven)

end Expanded

/-- An expanded experiment is settled if the pages attached to the pages of its items carry no
feedback themselves. -/
theorem Experiment.settled_of_expand {e expanded : Experiment} {p p' : Progress}
    (h : e.expand p = .ok expanded p')
    (hflat : ∀ item ∈ e.allItems, ∀ shown ∈ item.attached, shown.feedbackSites = []) :
    expanded.Settled := by
  rw [Experiment.allItems_eq] at hflat
  constructor
  · exact Experiment.check_of_expand h
  · exact Experiment.treatments_of_expand h
  · intro block hblock
    obtain ⟨given, hgiven, _, _, _, _, _, hexpanded⟩ :=
      exists_left_of_forall₂ (Experiment.expand_ok h).allBlocks block hblock
    apply hexpanded.settled
    intro item hitem
    exact hflat item (List.mem_flatMap_of_mem hgiven hitem)

/-- Expansion reaches its normal form in one pass, if the pages attached to the pages of items carry
no feedback themselves: the tree is settled, and expanding it again leaves it as it is, issues no
identifiers and gives no warnings, from wherever it starts. -/
theorem Experiment.expand_twice {e expanded : Experiment} {p p' : Progress}
    (h : e.expand p = .ok expanded p')
    (hflat : ∀ item ∈ e.allItems, ∀ shown ∈ item.attached, shown.feedbackSites = []) :
    expanded.Settled ∧ ∀ q, expanded.expand q = .ok expanded q := by
  have hsettled := Experiment.settled_of_expand h hflat
  exact ⟨hsettled, hsettled.expand_eq⟩

/-! ### A riddle -/

/-- A riddle for one value of the permutation. Those who are unsure get a hint, and a text box for
their guess. -/
def Experiment.riddle : Experiment where
  blocks := [
    { id := "game"
      items := some [
        { id := "riddle"
          contents := .page {
            id := "question"
            text := .single (.literal "What has keys but no locks?")
            choices := [
              { id := "unsure"
                feedback := some (.page {
                  id := "hint"
                  text := .single (.literal "It makes music")
                  freetext := some true }) }] } }] }]
  treatments := [["game"]]

/-- The riddle after expansion. -/
def Experiment.riddleExpanded : Experiment where
  blocks := [
    { id := "game"
      items := some [
        { id := "riddle"
          contents := .pages [
            { id := "question"
              text := .single (.literal "What has keys but no locks?")
              choices := [{ id := "unsure" }] },
            { id := "hint"
              text := .single (.literal "It makes music")
              choices := [{ id := "1" }]
              freetext := some true
              guard := some { page := some "question", choice := some "unsure" } }] }]
      guard := some { permutation := some 0 } }]

/-- The riddle expands. -/
theorem Experiment.expand_riddle : Experiment.riddle.expand { ids := {}, warnings := [] }
    = .ok Experiment.riddleExpanded { ids := { last := 1 }, warnings := [] } := by
  cbv

/-- The hint is attached to a page of an item and carries no feedback, so that one expansion
does. -/
theorem Experiment.expand_twice_riddle :
    Experiment.riddle.expand { ids := {}, warnings := [] }
        = .ok Experiment.riddleExpanded { ids := { last := 1 }, warnings := [] } ∧
      (∀ item ∈ Experiment.riddle.allItems, ∀ shown ∈ item.attached, shown.feedbackSites = []) ∧
      Experiment.riddleExpanded.Settled ∧
      ∀ q, Experiment.riddleExpanded.expand q = .ok Experiment.riddleExpanded q := by
  have hflat : ∀ item ∈ Experiment.riddle.allItems, ∀ shown ∈ item.attached,
      shown.feedbackSites = [] := by
    have hsites : (Experiment.riddle.allItems.flatMap Item.attached).flatMap Page.feedbackSites
        = [] := rfl
    rw [List.flatMap_eq_nil_iff] at hsites
    intro item hitem shown hshown
    exact hsites shown (List.mem_flatMap_of_mem hitem hshown)
  exact ⟨Experiment.expand_riddle, hflat, Experiment.expand_twice Experiment.expand_riddle hflat⟩

end Paradigm
