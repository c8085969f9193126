/-
Module: Paradigm.Proofs.Expansion.Contents
Layer: Proofs
Purpose: What expansion keeps of a tree. Steps that issue identifiers are looked at by what reads
  the same before and after: expansion keeps the placeholders of a tree in the order in which the
  document emits them.
Imports: Paradigm.Proofs.Expansion, Paradigm.Proofs.Tree.Placeholders
Main exports: Issuing.map_mapM, Keeps, Page.withTextBox_run, choiceFeedback_run_some,
  Page.spliced_run, Item.expand_run, Item.keeps_placeholders, Experiment.Expanded.placeholders_eq
-/
import Paradigm.Proofs.Expansion
import Paradigm.Proofs.Tree.Placeholders

namespace Paradigm

/-! ### Steps that keep what is read off -/

section Issuing

variable {α β γ : Type} {step : α → Issuing β}

theorem Issuing.mapM_cons_run (x : α) (xs : List α) (ids : IdSource) :
    ((x :: xs).mapM step : Issuing (List β)) ids
      = ((step x ids).1 :: (xs.mapM step (step x ids).2).1, (xs.mapM step (step x ids).2).2) := by
  rw [List.mapM_cons]
  rfl

/-- What is read of single results is read of all of them. -/
theorem Issuing.map_mapM (read : β → γ) {before : α → γ}
    (h : ∀ x ids, read (step x ids).1 = before x) (xs : List α) (ids : IdSource) :
    ((xs.mapM step : Issuing (List β)) ids).1.map read = xs.map before := by
  induction xs generalizing ids with
  | nil => rfl
  | cons x rest ih => rw [Issuing.mapM_cons_run, List.map_cons, List.map_cons, h, ih]

theorem map_expandOption {step : α → Issuing α} (read : α → γ) {before : α → γ}
    (h : ∀ x ids, read (step x ids).1 = before x) (x : Option α) (ids : IdSource) :
    (expandOption step x ids).1.map read = x.map before := by
  cases x with
  | none => rfl
  | some a => exact congrArg some (h a ids)

/-- Steps that keep what is read off: it reads the same after as before. -/
def Keeps (step : α → Issuing β) (before : α → List γ) (after : β → List γ) : Prop :=
  ∀ x ids, after (step x ids).1 = before x

variable {before : α → List γ} {after : β → List γ}

/-- Steps over a list keep what is read off its elements in order. -/
theorem Keeps.flatMap_mapM (h : Keeps step before after) (xs : List α) (ids : IdSource) :
    ((xs.mapM step : Issuing (List β)) ids).1.flatMap after = xs.flatMap before := by
  induction xs generalizing ids with
  | nil => rfl
  | cons x rest ih =>
      rw [Issuing.mapM_cons_run, List.flatMap_cons, List.flatMap_cons, h, ih]

theorem Keeps.mapM (h : Keeps step before after) :
    Keeps (fun xs : List α => xs.mapM step) (·.flatMap before) (·.flatMap after) :=
  fun xs ids => h.flatMap_mapM xs ids

theorem Keeps.option {step : α → Issuing α} {before after : α → List γ}
    (h : Keeps step before after) :
    Keeps (expandOption step) (fun x => x.toList.flatMap before)
      (fun y => y.toList.flatMap after) := by
  intro x ids
  cases x with
  | none => rfl
  | some a =>
      show [(step a ids).1].flatMap after = [a].flatMap before
      simpa using h a ids

end Issuing

/-! ### Placeholders of pages and items -/

theorem Page.withTextBox_run (page : Page) (ids : IdSource) :
    page.withTextBox ids =
      if page.isFreetext && page.choices.isEmpty then
        ({ page with choices := [{ id := ids.next.1, text := none }] }, ids.next.2)
      else (page, ids) := by
  unfold Page.withTextBox
  split <;> rfl

theorem Page.keeps_withTextBox : Keeps Page.withTextBox (fun p => p.placeholders)
    (fun p => p.placeholders) := by
  intro page ids
  rw [Page.withTextBox_run]
  split
  · rename_i h
    obtain ⟨id, text, choices⟩ := page
    simp only [Bool.and_eq_true, List.isEmpty_iff] at h
    simp [Page.placeholders, h.2, Choice.placeholdersList, Choice.placeholders,
      Feedback.placeholdersOption]
  · rfl

theorem Feedback.keeps_toPage : Keeps Feedback.toPage Feedback.placeholders Page.placeholders := by
  intro feedback ids
  cases feedback with
  | text label =>
      show Page.placeholders { id := ids.next.1, text := .single label } = label.placeholders
      simp [Page.placeholders, PageText.placeholders, Choice.placeholdersList,
        Feedback.placeholdersOption]
  | page shown => rfl

theorem Page.placeholders_guard (page : Page) (guard : Option Guard) :
    Page.placeholders { page with guard := guard } = page.placeholders := by
  cases page
  rfl

theorem keeps_pageFeedback : Keeps pageFeedback Feedback.placeholdersOption
    (·.flatMap Page.placeholders) := by
  intro feedback ids
  cases feedback with
  | none => rfl
  | some feedback =>
      show [(feedback.toPage ids).1].flatMap Page.placeholders = feedback.placeholders
      simpa using Feedback.keeps_toPage feedback ids

theorem choiceFeedback_run_none {page : String} {choice : Choice} {rest : List Choice}
    (ids : IdSource) (h : choice.feedback = none) :
    choiceFeedback page (choice :: rest) ids = choiceFeedback page rest ids := by
  simp only [choiceFeedback, h]

theorem choiceFeedback_run_some {page : String} {choice : Choice} {rest : List Choice}
    {feedback : Feedback} (ids : IdSource) (h : choice.feedback = some feedback) :
    choiceFeedback page (choice :: rest) ids =
      let shown := feedback.toPage ids
      let others := choiceFeedback page rest shown.2
      ({ shown.1 with guard := some (choiceGuard page choice.id) } :: others.1, others.2) := by
  simp only [choiceFeedback, h]
  rfl

theorem keeps_choiceFeedback (page : String) : Keeps (choiceFeedback page)
    (·.flatMap fun choice => Feedback.placeholdersOption choice.feedback)
    (·.flatMap Page.placeholders) := by
  intro choices
  induction choices with
  | nil => intro ids; rfl
  | cons choice rest ih =>
      intro ids
      show (choiceFeedback page (choice :: rest) ids).1.flatMap Page.placeholders
        = Feedback.placeholdersOption choice.feedback
          ++ rest.flatMap fun choice => Feedback.placeholdersOption choice.feedback
      cases hfeedback : choice.feedback with
      | none =>
          rw [choiceFeedback_run_none ids hfeedback]
          exact ih ids
      | some feedback =>
          rw [choiceFeedback_run_some ids hfeedback]
          simp only [List.flatMap_cons]
          rw [Page.placeholders_guard, Feedback.keeps_toPage]
          exact congrArg (feedback.placeholders ++ ·) (ih _)

theorem Page.spliced_run (page : Page) (ids : IdSource) :
    page.spliced ids =
      let own := pageFeedback page.feedback ids
      let ofChoices := choiceFeedback page.id page.choices own.2
      (page.plain :: own.1 ++ ofChoices.1, ofChoices.2) := rfl

theorem Page.keeps_spliced : Keeps Page.spliced Page.unfolded (·.flatMap Page.placeholders) := by
  intro page ids
  rw [Page.spliced_run]
  simp only [List.flatMap_append, List.flatMap_cons, keeps_pageFeedback _ _,
    keeps_choiceFeedback page.id _ _]
  rfl

theorem ItemContents.keeps_toPages : Keeps ItemContents.toPages ItemContents.unfolded
    (·.flatMap Page.unfolded) := by
  intro contents ids
  cases contents with
  | text label =>
      show [({ id := ids.next.1, text := .single label } : Page)].flatMap Page.unfolded
        = label.placeholders
      simp [Page.unfolded, Page.plain, Page.placeholders, PageText.placeholders,
        Choice.placeholdersList, Feedback.placeholdersOption]
  | page single =>
      show [single].flatMap Page.unfolded = single.unfolded
      simp
  | pages several => rfl

theorem Item.expand_run (item : Item) (ids : IdSource) :
    item.expand ids =
      let given := item.contents.toPages ids
      let spliced := given.1.mapM Page.spliced given.2
      let pages := spliced.1.flatten.mapM Page.withTextBox spliced.2
      ({ item with contents := .pages pages.1 }, pages.2) := rfl

/-- Expanding an item keeps its placeholders, with feedback after its trigger. -/
theorem Item.keeps_placeholders : Keeps Item.expand Item.unfolded Item.placeholders := by
  intro item ids
  rw [Item.expand_run]
  unfold Item.placeholders Item.unfolded
  simp only [Item.pages]
  rw [Page.keeps_withTextBox.flatMap_mapM, flatMap_flatten_eq, Page.keeps_spliced.flatMap_mapM]
  exact congrArg (· ++ item.condition.toList.flatMap Text.placeholders)
    (ItemContents.keeps_toPages item.contents ids)

/-! ### Placeholders of blocks -/

/-- The pages, items and groups of a block keep their placeholders. -/
theorem Block.Expanded.own_placeholders {treatment : Option Nat} {ids ids' : IdSource}
    {block expanded : Block} (h : Block.Expanded treatment ids block expanded ids') :
    (expanded.pages.getD []).flatMap Page.placeholders
        ++ expanded.ownItems.flatMap Item.placeholders
      = (block.pages.getD []).flatMap Page.placeholders
        ++ block.ownItems.flatMap Item.unfolded := by
  cases h with
  | @mk _ ids ids₁ ids₂ ids₃ _ _ pages items groups _ _ checked ofPages ofItems ofGroups children
      shape =>
      have hpages := Page.keeps_withTextBox.mapM.option block.pages ids
      have hitems := Item.keeps_placeholders.mapM.option block.items ids₁
      have hgroups := Item.keeps_placeholders.mapM.mapM.option block.groups ids₂
      rw [ofPages] at hpages
      rw [ofItems] at hitems
      rw [ofGroups] at hgroups
      simp only [flatMap_toList_eq] at hpages hitems hgroups
      subst shape
      simp only [Block.ownItems, List.flatMap_append, flatMap_flatten_eq]
      rw [hpages, hitems, hgroups]

mutual

/-- Expanding a block keeps its placeholders, in the order in which the document emits them. -/
theorem Block.Expanded.placeholders_eq : ∀ {block expanded : Block} {treatment : Option Nat}
    {ids ids' : IdSource}, Block.Expanded treatment ids block expanded ids' →
      expanded.placeholders Item.placeholders = block.placeholders Item.unfolded
  | ⟨_, _, _, _, blocks, _, _, _, _, _, _, _, _, _⟩, expanded, _, _, _, h => by
      have hown := h.own_placeholders
      cases h with
      | mk checked ofPages ofItems ofGroups children shape =>
          have hchildren := Block.ExpandedOption.placeholders_eq children
          subst shape
          simp only [Block.placeholders]
          rw [hchildren]
          exact congrArg (· ++ Block.placeholdersOption Item.unfolded blocks) hown

theorem Block.ExpandedOption.placeholders_eq : ∀ {blocks expanded : Option (List Block)}
    {given : List (String × Nat)} {ids ids' : IdSource},
    Block.ExpandedOption given ids blocks expanded ids' →
      Block.placeholdersOption Item.placeholders expanded
        = Block.placeholdersOption Item.unfolded blocks
  | none, _, _, _, _, .none => rfl
  | some _, _, _, _, _, .some list => Block.ExpandedList.placeholders_eq list

theorem Block.ExpandedList.placeholders_eq : ∀ {blocks expanded : List Block}
    {given : List (String × Nat)} {ids ids' : IdSource},
    Block.ExpandedList given ids blocks expanded ids' →
      Block.placeholdersList Item.placeholders expanded
        = Block.placeholdersList Item.unfolded blocks
  | [], _, _, _, _, .nil => rfl
  | _ :: _, _, _, _, _, .cons head tail => by
      simp only [Block.placeholdersList]
      rw [Block.Expanded.placeholders_eq head, Block.ExpandedList.placeholders_eq tail]

end

/-- Expansion keeps the placeholders of a tree, in the order in which the document emits them. -/
theorem Experiment.Expanded.placeholders_eq {e expanded : Experiment} {ids ids' : IdSource}
    (h : Experiment.Expanded ids e expanded ids') :
    Block.placeholdersList Item.placeholders expanded.blocks = e.placeholders :=
  Block.ExpandedList.placeholders_eq h.blocks

end Paradigm
