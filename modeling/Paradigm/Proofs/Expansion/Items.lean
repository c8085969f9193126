/-
Module: Paradigm.Proofs.Expansion.Items
Layer: Proofs
Purpose: Which pages blocks and items have after expansion. Feedback stands on a page itself and on
  its options; in items, expansion takes it off and puts the pages that show it behind the page, in
  this order. Then it gives text boxes without options the option that stands for the box. New nodes
  have issued identifiers. What each block of a tree holds is beside its expanded form.
Imports: Paradigm.Proofs.Expansion.Minting, Paradigm.Proofs.Resolution.Nodes
Main exports: Page.UnfoldsTo, Page.BoxedAs, Item.UnfoldsTo, Item.UnfoldsTo.length_eq,
  Item.ExpandedAs, Block.HeldAs, Experiment.Expanded.heldAs, Experiment.Expanded.expandedAs,
  Experiment.Expanded.holdsPages
-/
import Paradigm.Proofs.Expansion.Minting
import Paradigm.Proofs.Resolution.Nodes

namespace Paradigm

/-! ### What expansion leaves -/

section Unfolding

variable (fresh : String → Prop)

/-- The page that shows feedback: the one given, or a new one with a text and nothing else. -/
inductive Feedback.ShownAs : Feedback → Page → Prop where
  | text {label : Text} {id : String} (new : fresh id) :
      Feedback.ShownAs (.text label) { id := id, text := .single label }
  | page (shown : Page) : Feedback.ShownAs (.page shown) shown

/-- The page that shows the feedback of a site, under the guard of the site if it has one. -/
inductive FeedbackSite.ShownAs : FeedbackSite → Page → Prop where
  | mk {site : FeedbackSite} {shown : Page} (feedback : site.feedback.ShownAs fresh shown) :
      FeedbackSite.ShownAs site { shown with guard := site.guard.or shown.guard }

/-- A page without feedback, followed by the pages that show the feedback of its sites. -/
inductive Page.UnfoldsTo : Page → List Page → Prop where
  | mk {page : Page} {shown : List Page}
      (sites : List.Forall₂ (FeedbackSite.ShownAs fresh) page.feedbackSites shown) :
      Page.UnfoldsTo page (page.plain :: shown)

/-- A text box page without options has a blank option; any other page stays as it is. -/
inductive Page.BoxedAs : Page → Page → Prop where
  | boxed {page : Page} {id : String} (freetext : page.isFreetext = true)
      (without : page.choices = []) (new : fresh id) :
      Page.BoxedAs page { page with choices := [{ id := id }] }
  | kept {page : Page} (other : ¬ (page.isFreetext = true ∧ page.choices = [])) :
      Page.BoxedAs page page

/-- The pages that an item is given, with a new one for a text. -/
inductive ItemContents.Gives : ItemContents → List Page → Prop where
  | text {label : Text} {id : String} (new : fresh id) :
      ItemContents.Gives (.text label) [{ id := id, text := .single label }]
  | page (single : Page) : ItemContents.Gives (.page single) [single]
  | pages (several : List Page) : ItemContents.Gives (.pages several) several

/-- The pages of an item once its feedback is in place: the pages that it is given, each followed by
the pages that show its feedback, with an option for every text box. -/
inductive Item.UnfoldsTo : Item → List Page → Prop where
  | mk {item : Item} {given pages : List Page} {unfolded : List (List Page)}
      (contents : item.contents.Gives fresh given)
      (sites : List.Forall₂ (Page.UnfoldsTo fresh) given unfolded)
      (boxes : List.Forall₂ (Page.BoxedAs fresh) unfolded.flatten pages) :
      Item.UnfoldsTo item pages

/-- An item beside its expanded form, which differs in its pages only. -/
structure Item.ExpandedAs (item expanded : Item) : Prop where
  shape : expanded = { item with contents := .pages expanded.pages }
  unfolds : item.UnfoldsTo fresh expanded.pages

end Unfolding

/-! ### How many pages there are -/

section Counting

variable {fresh : String → Prop}

theorem Page.UnfoldsTo.length_eq {page : Page} {pages : List Page}
    (h : page.UnfoldsTo fresh pages) : pages.length = page.feedbackSites.length + 1 := by
  cases h with
  | mk sites => rw [List.length_cons, sites.length_eq]

theorem length_flatten_of_unfoldsTo {given : List Page} {unfolded : List (List Page)}
    (h : List.Forall₂ (Page.UnfoldsTo fresh) given unfolded) :
    unfolded.flatten.length = given.length + (given.flatMap Page.feedbackSites).length := by
  induction h with
  | nil => rfl
  | cons head _ ih =>
      rw [List.flatten_cons, List.length_append, head.length_eq, ih, List.flatMap_cons,
        List.length_append, List.length_cons]
      omega

theorem ItemContents.Gives.length_eq {item : Item} {given : List Page}
    (h : item.contents.Gives fresh given) :
    given.length = item.pageCount ∧ given.flatMap Page.feedbackSites = item.feedbackSites := by
  unfold Item.pageCount Item.feedbackSites Item.pages
  generalize item.contents = contents at h
  cases h with
  | text new => exact ⟨rfl, rfl⟩
  | page single => exact ⟨rfl, rfl⟩
  | pages several => exact ⟨rfl, rfl⟩

/-- An item gets one page for each page that it is given and one for each site of feedback on
them. -/
theorem Item.UnfoldsTo.length_eq {item : Item} {pages : List Page}
    (h : item.UnfoldsTo fresh pages) :
    pages.length = item.pageCount + item.feedbackSites.length := by
  cases h with
  | mk contents sites boxes =>
      obtain ⟨hcount, hsites⟩ := contents.length_eq
      rw [← boxes.length_eq, length_flatten_of_unfoldsTo sites, hcount, hsites]

end Counting

/-! ### Steps whose new identifiers are issued -/

/-- Steps that relate what they are given to what they give, whatever counts as a fresh identifier,
as long as the issued ones do. -/
def Unfolds {α β : Type} (step : α → Issuing β) (rel : (String → Prop) → α → β → Prop) : Prop :=
  ∀ x ids, ids.last ≤ (step x ids).2.last ∧
    ∀ fresh : String → Prop, (∀ id, ids.Issued (step x ids).2 id → fresh id) →
      rel fresh x (step x ids).1

section Unfolds

variable {α β : Type} {step : α → Issuing β} {rel : (String → Prop) → α → β → Prop}

/-- Steps over a list relate its elements one by one. -/
theorem Unfolds.mapM (h : Unfolds step rel) :
    Unfolds (fun xs : List α => xs.mapM step) fun fresh => List.Forall₂ (rel fresh) := by
  intro xs
  induction xs with
  | nil =>
      intro ids
      exact ⟨Nat.le_refl _, fun _ _ => .nil⟩
  | cons x rest ih =>
      intro ids
      show ids.last ≤ ((x :: rest).mapM step ids).2.last ∧ ∀ fresh : String → Prop,
        (∀ id, ids.Issued ((x :: rest).mapM step ids).2 id → fresh id) →
          List.Forall₂ (rel fresh) (x :: rest) ((x :: rest).mapM step ids).1
      rw [Issuing.mapM_cons_run]
      obtain ⟨hhead, hrel⟩ := h x ids
      obtain ⟨htail, hrels⟩ := ih (step x ids).2
      refine ⟨Nat.le_trans hhead htail, fun fresh hfresh => ?_⟩
      apply List.Forall₂.cons
      · exact hrel fresh fun id hid => hfresh id (hid.mono (Nat.le_refl _) htail)
      · exact hrels fresh fun id hid => hfresh id (hid.mono hhead (Nat.le_refl _))

/-- A step on a value that may be missing relates it where it is there. -/
theorem Unfolds.option {step : α → Issuing α} {rel : (String → Prop) → α → α → Prop}
    (h : Unfolds step rel) :
    Unfolds (expandOption step) fun fresh => Option.Rel (rel fresh) := by
  intro x ids
  cases x with
  | none => exact ⟨Nat.le_refl _, fun _ _ => .none⟩
  | some a =>
      obtain ⟨hforward, hrel⟩ := h a ids
      exact ⟨hforward, fun fresh hfresh => .some (hrel fresh hfresh)⟩

end Unfolds

/-! ### Expansion of items -/

theorem Feedback.unfolds_toPage : Unfolds Feedback.toPage Feedback.ShownAs := by
  intro feedback ids
  cases feedback with
  | text label =>
      refine ⟨Nat.le_succ _, fun fresh hfresh => ?_⟩
      exact .text (hfresh _ ids.issued_next)
  | page shown => exact ⟨Nat.le_refl _, fun _ _ => .page shown⟩

theorem FeedbackSite.ShownAs.of_unguarded {fresh : String → Prop} {feedback : Feedback}
    {shown : Page} (h : feedback.ShownAs fresh shown) :
    FeedbackSite.ShownAs fresh { feedback := feedback, guard := none } shown := by
  have hsite : FeedbackSite.ShownAs fresh { feedback := feedback, guard := none }
      { shown with guard := (none : Option Guard).or shown.guard } := .mk h
  cases shown
  exact hsite

theorem FeedbackSite.ShownAs.of_guarded {fresh : String → Prop} {feedback : Feedback}
    {guard : Guard} {shown : Page} (h : feedback.ShownAs fresh shown) :
    FeedbackSite.ShownAs fresh { feedback := feedback, guard := some guard }
      { shown with guard := some guard } := by
  have hsite : FeedbackSite.ShownAs fresh { feedback := feedback, guard := some guard }
      { shown with guard := (some guard).or shown.guard } := .mk h
  rwa [Option.some_or] at hsite

/-- The feedback of a page itself is shown under the guard of the page that shows it. -/
theorem unfolds_pageFeedback : Unfolds pageFeedback fun fresh feedback =>
    List.Forall₂ (FeedbackSite.ShownAs fresh)
      (feedback.toList.map fun feedback => { feedback := feedback, guard := none }) := by
  intro feedback ids
  cases feedback with
  | none => exact ⟨Nat.le_refl _, fun _ _ => .nil⟩
  | some feedback =>
      obtain ⟨hforward, hshown⟩ := Feedback.unfolds_toPage feedback ids
      refine ⟨hforward, fun fresh hfresh => ?_⟩
      show List.Forall₂ (FeedbackSite.ShownAs fresh) [{ feedback := feedback, guard := none }]
        [(feedback.toPage ids).1]
      exact .cons (.of_unguarded (hshown fresh hfresh)) .nil

/-- The feedback of options is shown under the guard that the option was chosen. -/
theorem unfolds_choiceFeedback (page : String) : Unfolds (choiceFeedback page)
    fun fresh choices => List.Forall₂ (FeedbackSite.ShownAs fresh)
      (choices.filterMap fun choice => choice.feedback.map fun feedback =>
        { feedback := feedback, guard := some (choiceGuard page choice.id) }) := by
  intro choices
  induction choices with
  | nil =>
      intro ids
      exact ⟨Nat.le_refl _, fun _ _ => .nil⟩
  | cons choice rest ih =>
      intro ids
      cases hfeedback : choice.feedback with
      | none =>
          rw [choiceFeedback_run_none ids hfeedback]
          simpa only [List.filterMap_cons, hfeedback, Option.map_none] using ih ids
      | some feedback =>
          rw [choiceFeedback_run_some ids hfeedback]
          obtain ⟨hhead, hshown⟩ := Feedback.unfolds_toPage feedback ids
          obtain ⟨htail, hrest⟩ := ih (feedback.toPage ids).2
          refine ⟨Nat.le_trans hhead htail, fun fresh hfresh => ?_⟩
          have hsite := hshown fresh fun id hid => hfresh id (hid.mono (Nat.le_refl _) htail)
          simp only [List.filterMap_cons, hfeedback, Option.map_some]
          apply List.Forall₂.cons
          · exact .of_guarded hsite
          · exact hrest fresh fun id hid => hfresh id (hid.mono hhead (Nat.le_refl _))

theorem Page.unfolds_spliced : Unfolds Page.spliced Page.UnfoldsTo := by
  intro page ids
  rw [Page.spliced_run]
  obtain ⟨hown, hself⟩ := unfolds_pageFeedback page.feedback ids
  obtain ⟨hof, hchoices⟩ :=
    unfolds_choiceFeedback page.id page.choices (pageFeedback page.feedback ids).2
  refine ⟨Nat.le_trans hown hof, fun fresh hfresh => ?_⟩
  apply Page.UnfoldsTo.mk
  apply List.rel_append
  · exact hself fresh fun id hid => hfresh id (hid.mono (Nat.le_refl _) hof)
  · exact hchoices fresh fun id hid => hfresh id (hid.mono hown (Nat.le_refl _))

theorem Page.unfolds_withTextBox : Unfolds Page.withTextBox Page.BoxedAs := by
  intro page ids
  rw [Page.withTextBox_run]
  split
  · rename_i h
    simp only [Bool.and_eq_true, List.isEmpty_iff] at h
    exact ⟨Nat.le_succ _, fun fresh hfresh => .boxed h.1 h.2 (hfresh _ ids.issued_next)⟩
  · rename_i h
    simp only [Bool.and_eq_true, List.isEmpty_iff] at h
    exact ⟨Nat.le_refl _, fun _ _ => .kept h⟩

theorem ItemContents.unfolds_toPages : Unfolds ItemContents.toPages ItemContents.Gives := by
  intro contents ids
  cases contents with
  | text label => exact ⟨Nat.le_succ _, fun fresh hfresh => .text (hfresh _ ids.issued_next)⟩
  | page single => exact ⟨Nat.le_refl _, fun _ _ => .page single⟩
  | pages several => exact ⟨Nat.le_refl _, fun _ _ => .pages several⟩

/-- Expanding an item unfolds its pages and changes nothing else. -/
theorem Item.unfolds_expand : Unfolds Item.expand Item.ExpandedAs := by
  intro item ids
  rw [Item.expand_run]
  simp only
  obtain ⟨hgiven, hcontents⟩ := ItemContents.unfolds_toPages item.contents ids
  generalize item.contents.toPages ids = given at hgiven hcontents ⊢
  obtain ⟨hspliced, hsites⟩ := Page.unfolds_spliced.mapM given.1 given.2
  simp only at hspliced hsites
  generalize given.1.mapM Page.spliced given.2 = spliced at hspliced hsites ⊢
  obtain ⟨hboxed, hboxes⟩ := Page.unfolds_withTextBox.mapM spliced.1.flatten spliced.2
  simp only at hboxed hboxes
  generalize spliced.1.flatten.mapM Page.withTextBox spliced.2 = boxed at hboxed hboxes ⊢
  refine ⟨Nat.le_trans hgiven (Nat.le_trans hspliced hboxed), fun fresh hfresh => ⟨rfl, ?_⟩⟩
  apply Item.UnfoldsTo.mk
  · apply hcontents fresh
    intro id hid
    exact hfresh id (hid.mono (Nat.le_refl _) (Nat.le_trans hspliced hboxed))
  · apply hsites fresh
    intro id hid
    exact hfresh id (hid.mono hgiven hboxed)
  · apply hboxes fresh
    intro id hid
    exact hfresh id (hid.mono (Nat.le_trans hgiven hspliced) (Nat.le_refl _))

/-! ### Pages and items of expanded trees -/

/-- What a block holds itself beside what its expanded form holds: the pages that stand in it
directly, and its items, those in groups included. -/
structure Block.HeldAs (fresh : String → Prop) (block expanded : Block) : Prop where
  pages : List.Forall₂ (Page.BoxedAs fresh) (block.pages.getD []) (expanded.pages.getD [])
  items : List.Forall₂ (Item.ExpandedAs fresh) block.ownItems expanded.ownItems

theorem Block.Expanded.heldAs {fresh : String → Prop} {treatment : Option Nat} {ids ids' : IdSource}
    {block expanded : Block} (h : Block.Expanded treatment ids block expanded ids')
    (hfresh : ∀ id, ids.Issued ids' id → fresh id) : block.HeldAs fresh expanded := by
  cases h with
  | @mk _ _ ids₁ ids₂ ids₃ _ _ _ _ _ _ _ checked ofPages ofItems ofGroups children shape =>
      obtain ⟨hpages, hofPages⟩ := Page.unfolds_withTextBox.mapM.option block.pages ids
      obtain ⟨hitems, hofItems⟩ := Item.unfolds_expand.mapM.option block.items ids₁
      obtain ⟨hgroups, hofGroups⟩ := Item.unfolds_expand.mapM.mapM.option block.groups ids₂
      have hchildren := children.minted.forward
      rw [ofPages] at hpages hofPages
      rw [ofItems] at hitems hofItems
      rw [ofGroups] at hgroups hofGroups
      subst shape
      -- Each step issues from where the one before it left off.
      constructor
      · apply forall₂_getD
        apply hofPages fresh
        intro id hid
        exact hfresh id (hid.mono (Nat.le_refl _)
          (Nat.le_trans hitems (Nat.le_trans hgroups hchildren)))
      · apply List.rel_append
        · apply forall₂_getD
          apply hofItems fresh
          intro id hid
          exact hfresh id (hid.mono hpages (Nat.le_trans hgroups hchildren))
        · apply List.rel_flatten
          apply forall₂_getD
          apply hofGroups fresh
          intro id hid
          exact hfresh id (hid.mono (Nat.le_trans hpages hitems) hchildren)

section Experiments

variable {e expanded : Experiment} {ids ids' : IdSource}

/-- The contents of the blocks of a tree are beside their expanded forms, in order. -/
theorem Experiment.Expanded.heldAs (h : Experiment.Expanded ids e expanded ids') :
    List.Forall₂ (Block.HeldAs (ids.Issued ids')) e.allBlocks expanded.allBlocks := by
  apply h.allBlocks.imp
  intro block expanded hblock
  obtain ⟨treatment, ids₁, ids₂, hfrom, hto, hexpanded⟩ := hblock
  exact hexpanded.heldAs fun id hid => hid.mono hfrom hto

/-- The items of a tree are beside their expanded forms, in order. -/
theorem Experiment.Expanded.expandedAs (h : Experiment.Expanded ids e expanded ids') :
    List.Forall₂ (Item.ExpandedAs (ids.Issued ids')) e.allItems expanded.allItems := by
  rw [Experiment.allItems_eq, Experiment.allItems_eq]
  exact List.rel_flatMap h.heldAs fun _ _ held => held.items

/-- The items of an expanded tree hold lists of pages. -/
theorem Experiment.Expanded.holdsPages (h : Experiment.Expanded ids e expanded ids') :
    ∀ item ∈ expanded.allItems, item.pageCount = item.pages.length := by
  intro item hitem
  obtain ⟨given, _, hgiven⟩ := exists_left_of_forall₂ h.expandedAs item hitem
  rw [hgiven.shape]
  rfl

end Experiments

end Paradigm
