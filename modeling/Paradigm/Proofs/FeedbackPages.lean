/-
Module: Paradigm.Proofs.FeedbackPages
Layer: Proofs
Purpose: Where feedback ends up in the document. Feedback that stands in place is there to be looked
  at: none of its pages, at any depth, offers answer options. In an item only the pages given by the
  author lose their feedback; a page attached to one of them becomes a page of the item with the
  options and the feedback that it has itself, as the chat does whose reply asks back.
Imports: Paradigm.Proofs.Compilation, Paradigm.Proofs.Expansion.Items
Main exports: Page.DisplaysFeedback, Page.Resolved.displaysFeedback, Item.ShowsAttached,
  Experiment.compile_feedback_pages, Item.UnfoldsTo.feedbackSites_eq, Item.KeepsFeedback,
  Experiment.compile_item_feedback
-/
import Paradigm.Proofs.Compilation
import Paradigm.Proofs.Expansion.Items

namespace Paradigm

/-! ### Feedback in place -/

/-- The pages given as feedback in a page, at any depth, offer no answer options. -/
def Page.DisplaysFeedback (page : Page) : Prop := ∀ shown ∈ page.feedbackPages, shown.choices = []

section Resolved

variable {index : Index}

mutual

/-- Feedback that passed the check of its owner and was resolved offers no options, and neither do
the pages in it. -/
theorem Feedback.ResolvedOption.choices_eq_nil : ∀ {feedback : Option Feedback}
    {shown : Option Document.Feedback} {owner : String},
    Feedback.check feedback owner = .ok () → Feedback.ResolvedOption index feedback shown →
      ∀ page ∈ Feedback.withinOption feedback, page.choices = []
  | _, _, _, _, .none, page, hpage => by simp [Feedback.withinOption] at hpage
  | _, _, _, _, .some (.text _), page, hpage => by
      simp [Feedback.withinOption, Feedback.within] at hpage
  | _, _, _, hcheck, .some (.page inner), page, hpage => by
      rw [Feedback.check, require_eq_ok_iff, List.isEmpty_iff] at hcheck
      rw [Feedback.withinOption, Feedback.within, Page.within_eq, List.mem_cons] at hpage
      rcases hpage with rfl | hpage
      · exact hcheck
      · exact inner.displaysFeedback page hpage

theorem Choice.ResolvedList.choices_eq_nil : ∀ {choices : List Choice}
    {shown : List Document.Choice}, Choice.ResolvedList index choices shown →
      ∀ page ∈ Choice.withinList choices, page.choices = []
  | _, _, .nil, page, hpage => by simp [Choice.withinList] at hpage
  | ⟨_, _, _, _, _, _⟩ :: _, _, .cons (.mk checked _ feedbacks _) tail, page, hpage => by
      rw [Choice.withinList, List.mem_append] at hpage
      rcases hpage with hpage | hpage
      · exact feedbacks.choices_eq_nil checked page hpage
      · exact tail.choices_eq_nil page hpage

/-- A page that resolves has no options on the feedback pages in it, at any depth: each of them
passed the check of the page or option that it is attached to. -/
theorem Page.Resolved.displaysFeedback : ∀ {page : Page} {shown : Document.Page},
    page.Resolved index shown → page.DisplaysFeedback
  | ⟨_, _, _, _, _, _, _, _, _, _, _, _, _⟩, _,
      .mk checked texts options feedbacks files conditions guards, page, hpage => by
      rw [Page.feedbackPages, List.mem_append] at hpage
      rcases hpage with hpage | hpage
      · exact feedbacks.choices_eq_nil (Page.check_eq_ok_iff.mp checked).feedback page hpage
      · exact options.choices_eq_nil page hpage

end

/-- The feedback that a page of the document carries is resolved, in order, from the feedback on the
page of the tree. -/
theorem Page.Resolved.feedbacks {page : Page} {shown : Document.Page}
    (h : page.Resolved index shown) :
    List.Forall₂ (fun site feedback => site.feedback.Resolved index feedback) page.feedbackSites
      shown.feedbacks := by
  cases h with
  | mk checked texts options feedbacks files conditions guards =>
      rw [Page.feedbackSites]
      apply List.rel_append
      · generalize page.feedback = given at feedbacks
        cases feedbacks with
        | none => exact .nil
        | some feedback => exact .cons feedback .nil
      · apply List.rel_filterMap _ options.forall₂
        intro choice shown hchoice
        cases hchoice with
        | mk _ _ feedbacks _ =>
            simp only
            generalize choice.feedback = given at feedbacks
            cases feedbacks with
            | none => exact .none
            | some feedback => exact .some feedback

end Resolved

/-! ### Feedback in expanded items -/

section Unfolded

variable {fresh : String → Prop}

theorem Page.BoxedAs.feedbackPages_eq {page boxed : Page} (h : page.BoxedAs fresh boxed) :
    boxed.feedbackPages = page.feedbackPages := by
  cases h with
  | boxed freetext without new =>
      simp [Page.feedbackPages, without, Choice.withinList, Feedback.withinOption]
  | kept other => rfl

theorem Page.BoxedAs.displaysFeedback {page boxed : Page} (h : page.BoxedAs fresh boxed)
    (hdisplays : boxed.DisplaysFeedback) : page.DisplaysFeedback := by
  unfold Page.DisplaysFeedback at hdisplays ⊢
  rwa [h.feedbackPages_eq] at hdisplays

theorem Page.BoxedAs.feedbackSites_eq {page boxed : Page} (h : page.BoxedAs fresh boxed) :
    boxed.feedbackSites = page.feedbackSites := by
  cases h with
  | boxed freetext without new => simp [Page.feedbackSites, without]
  | kept other => rfl

/-- A box is only added to a page without options. -/
theorem Page.BoxedAs.choices_eq {page boxed : Page} (h : page.BoxedAs fresh boxed)
    (hchoices : page.choices ≠ []) : boxed.choices = page.choices := by
  cases h with
  | boxed freetext without new => exact absurd without hchoices
  | kept other => rfl

theorem Page.BoxedAs.id_eq {page boxed : Page} (h : page.BoxedAs fresh boxed) :
    boxed.id = page.id := by
  cases h <;> rfl

/-- A page that shows feedback carries feedback only if it was attached. -/
theorem FeedbackSite.ShownAs.feedbackSites_eq {site : FeedbackSite} {shown : Page}
    (h : site.ShownAs fresh shown) :
    shown.feedbackSites = site.feedback.attached.flatMap Page.feedbackSites := by
  cases h with
  | mk feedback =>
      generalize site.feedback = given at feedback
      cases feedback with
      | text new => rfl
      | page shown => simp [Feedback.attached, Page.feedbackSites]

theorem Page.UnfoldsTo.feedbackSites_eq {page : Page} {pages : List Page}
    (h : page.UnfoldsTo fresh pages) : pages.flatMap Page.feedbackSites
      = page.feedbackSites.flatMap fun site =>
        site.feedback.attached.flatMap Page.feedbackSites := by
  cases h with
  | mk sites =>
      have hplain : page.plain.feedbackSites = [] := by simp [Page.plain, Page.feedbackSites]
      rw [List.flatMap_cons, hplain, List.nil_append]
      exact flatMap_eq_of_forall₂ sites fun _ _ => FeedbackSite.ShownAs.feedbackSites_eq

/-- The feedback left on the pages of an expanded item is that of the pages attached to the pages
that the author gave. -/
theorem Item.UnfoldsTo.feedbackSites_eq {item : Item} {pages : List Page}
    (h : item.UnfoldsTo fresh pages) :
    pages.flatMap Page.feedbackSites = item.attached.flatMap Page.feedbackSites := by
  cases h with
  | mk contents sites boxes =>
      rw [Item.attached, ← contents.length_eq.2, List.flatMap_assoc, List.flatMap_assoc,
        flatMap_eq_of_forall₂ boxes fun _ _ => Page.BoxedAs.feedbackSites_eq, flatMap_flatten_eq]
      exact flatMap_eq_of_forall₂ sites fun _ _ => Page.UnfoldsTo.feedbackSites_eq

/-- A page attached to a page of an item is among the pages that the item unfolds to, under another
guard and with a box if it needs one. -/
theorem Item.UnfoldsTo.exists_attached {item : Item} {pages : List Page}
    (h : item.UnfoldsTo fresh pages) : ∀ attached ∈ item.attached,
      ∃ guard, ∃ page ∈ pages, Page.BoxedAs fresh { attached with guard := guard } page := by
  intro attached hattached
  cases h with
  | mk contents sites boxes =>
      rw [Item.attached, ← contents.length_eq.2] at hattached
      obtain ⟨site, hsite, hattached⟩ := List.mem_flatMap.mp hattached
      obtain ⟨page, hpage, hsite⟩ := List.mem_flatMap.mp hsite
      obtain ⟨unfolded, hunfolded, hunfolds⟩ := exists_right_of_forall₂ sites page hpage
      cases hunfolds with
      | mk shownSites =>
          obtain ⟨shown, hshown, hsiteShown⟩ := exists_right_of_forall₂ shownSites site hsite
          have hmem := List.mem_flatten_of_mem hunfolded (List.mem_cons_of_mem _ hshown)
          obtain ⟨boxed, hboxed, hbox⟩ := exists_right_of_forall₂ boxes shown hmem
          cases hsiteShown with
          | mk feedback =>
              generalize site.feedback = given at feedback hattached
              cases feedback with
              | text new => simp [Feedback.attached] at hattached
              | page shown =>
                  rw [Feedback.attached, List.mem_singleton] at hattached
                  subst hattached
                  exact ⟨_, boxed, hboxed, hbox⟩

end Unfolded

/-! ### Feedback of compiled experiments -/

/-- Each page attached to a page of an item has become a page of the item in the document, and
offers the options that it has. What is attached to it in turn is there to be looked at. -/
def Item.ShowsAttached (item : Item) (shown : Document.Item) : Prop :=
  ∀ attached ∈ item.attached, attached.DisplaysFeedback ∧
    ∃ page ∈ shown.pages, page.id = attached.id ∧
      (attached.choices ≠ [] → page.choices.map (·.id) = attached.choices.map (·.id))

/-- An item of the document carries no feedback exactly where no page attached to a page of the item
does. -/
def Item.KeepsFeedback (item : Item) (shown : Document.Item) : Prop :=
  (∀ page ∈ shown.pages, page.feedbacks = []) ↔
    ∀ attached ∈ item.attached, attached.feedbackSites = []

section Items

variable {fresh : String → Prop} {index : Index} {item expanded : Item} {shown : Document.Item}

theorem Item.showsAttached_of_resolved (h : item.ExpandedAs fresh expanded)
    (hresolved : expanded.Resolved index shown) : item.ShowsAttached shown := by
  intro attached hattached
  obtain ⟨guard, boxed, hboxed, hbox⟩ := h.unfolds.exists_attached attached hattached
  obtain ⟨page, hpage, hrel⟩ := exists_right_of_forall₂ hresolved.pages boxed hboxed
  refine ⟨?_, page, hpage, ?_, ?_⟩
  · exact hbox.displaysFeedback hrel.displaysFeedback
  · rw [hrel.id_eq, hbox.id_eq]
  · intro hchoices
    rw [map_eq_of_forall₂ hrel.choices fun _ _ => Choice.Resolved.id_eq, hbox.choices_eq hchoices]

theorem Item.keepsFeedback_of_resolved (h : item.ExpandedAs fresh expanded)
    (hresolved : expanded.Resolved index shown) : item.KeepsFeedback shown := by
  have hlength : (shown.pages.flatMap Document.Page.feedbacks).length
      = (item.attached.flatMap Page.feedbackSites).length := by
    rw [← h.unfolds.feedbackSites_eq]
    have hfeedbacks := List.rel_flatMap hresolved.pages fun _ _ => Page.Resolved.feedbacks
    exact hfeedbacks.length_eq.symm
  unfold Item.KeepsFeedback
  rw [← List.flatMap_eq_nil_iff, ← List.flatMap_eq_nil_iff, ← List.length_eq_zero_iff, hlength,
    List.length_eq_zero_iff]

end Items

section Compiled

variable {e expanded : Experiment} {session : Session} {ids : IdSource} {index : Index}
  {slots : SlotAllocator} {document : Document.Experiment}

/-- What relates an item to its expanded form and what relates that to its item of the document
relate the items of the tree to those of the document, in order. -/
theorem Experiment.Compiled.allItems
    (h : e.Compiled session expanded ids index slots document) {both : Item → Document.Item → Prop}
    (hboth : ∀ item expanded shown, Item.ExpandedAs (session.ids.Issued ids) item expanded →
      Item.Resolved index expanded shown → both item shown) :
    List.Forall₂ both e.allItems document.allItems :=
  forall₂_comp h.expands.expandedAs h.resolves.allItems hboth

/-- Pages that stand in blocks directly are resolved, and have the feedback that the author gave. -/
theorem Experiment.Compiled.displaysFeedback
    (h : e.Compiled session expanded ids index slots document) :
    ∀ block ∈ e.allBlocks, ∀ page ∈ block.pages.getD [], page.DisplaysFeedback := by
  intro block hblock page hpage
  obtain ⟨other, hother, hheld⟩ := exists_right_of_forall₂ h.expands.heldAs block hblock
  obtain ⟨boxed, hboxed, hbox⟩ := exists_right_of_forall₂ hheld.pages page hpage
  obtain ⟨shown, _, hshown⟩ := exists_right_of_forall₂ h.resolves.allBlocks other hother
  have hown : boxed ∈ other.ownPages := List.mem_append_left _ hboxed
  obtain ⟨_, _, hrel⟩ := exists_right_of_forall₂ hshown.ownPages boxed hown
  exact hbox.displaysFeedback hrel.displaysFeedback

end Compiled

/-! ### A chat -/

/-- A question in an item whose feedback asks back and carries feedback itself. -/
def Experiment.chat : Experiment where
  blocks := [
    { id := "talk"
      items := some [
        { id := "greeting"
          contents := .page {
            id := "question"
            text := .single (.literal "How are you?")
            feedback := some (.page {
              id := "reply"
              text := .single (.literal "And how was the trip?")
              choices := [{ id := "fine" }]
              feedback := some (.text (.literal "Welcome back")) }) } }] }]

/-- The document of the chat: the reply is a page that offers its option and keeps its feedback. -/
def Document.Experiment.chat : Document.Experiment where
  blocks := [
    { id := "talk"
      items := some [
        { id := "greeting"
          pages := [
            { id := "question", text := .single (.literal "How are you?") },
            { id := "reply"
              text := .single (.literal "And how was the trip?")
              choices := [{ id := "fine" }]
              feedback := some (.text (.literal "Welcome back")) }] }] }]
  exchangeable := []
  counterbalance := []
  banks := .empty

/-- The chat compiles. -/
theorem Experiment.compile_chat :
    (Experiment.chat.compile {}).outcome = .ok Document.Experiment.chat := by
  cbv

/-! ### Compilation -/

/-- In a tree that compiles, feedback offers no answer options where it is shown in place: on the
pages that stand in blocks directly, and on the pages attached to those of items. The latter are
shown as pages of their own with the options that they have. -/
theorem Experiment.compile_feedback_pages {e : Experiment} {session : Session}
    {document : Document.Experiment} (h : (e.compile session).outcome = .ok document) :
    (∀ block ∈ e.allBlocks, ∀ page ∈ block.pages.getD [], page.DisplaysFeedback) ∧
      List.Forall₂ Item.ShowsAttached e.allItems document.allItems := by
  obtain ⟨expanded, ids, index, slots, hcompiled⟩ := e.compile_ok h
  constructor
  · exact hcompiled.displaysFeedback
  · exact hcompiled.allItems fun _ _ _ => Item.showsAttached_of_resolved

/-- The reply stands among the pages of its item. -/
theorem Experiment.compile_feedback_pages_chat :
    (Experiment.chat.compile {}).outcome = .ok Document.Experiment.chat ∧
      (∀ block ∈ Experiment.chat.allBlocks, ∀ page ∈ block.pages.getD [],
        page.DisplaysFeedback) ∧
      List.Forall₂ Item.ShowsAttached Experiment.chat.allItems
        Document.Experiment.chat.allItems :=
  ⟨Experiment.compile_chat, Experiment.compile_feedback_pages Experiment.compile_chat⟩

/-- The chat compiles although its feedback offers an answer option. -/
theorem Experiment.compile_answerable_reply :
    (∃ page ∈ Experiment.chat.feedbackPages, page.choices ≠ []) ∧
      ∃ document, (Experiment.chat.compile {}).outcome = .ok document := by
  refine ⟨?_, Document.Experiment.chat, Experiment.compile_chat⟩
  exact ⟨_, List.mem_cons_self, List.cons_ne_nil _ _⟩

/-- Feedback is left in an item of the document exactly where a page attached to a page of the item
carries feedback itself. -/
theorem Experiment.compile_item_feedback {e : Experiment} {session : Session}
    {document : Document.Experiment} (h : (e.compile session).outcome = .ok document) :
    List.Forall₂ Item.KeepsFeedback e.allItems document.allItems := by
  obtain ⟨expanded, ids, index, slots, hcompiled⟩ := e.compile_ok h
  exact hcompiled.allItems fun _ _ _ => Item.keepsFeedback_of_resolved

/-- The chat keeps feedback in its item, since the reply carries some. -/
theorem Experiment.compile_item_feedback_chat :
    (Experiment.chat.compile {}).outcome = .ok Document.Experiment.chat ∧
      List.Forall₂ Item.KeepsFeedback Experiment.chat.allItems
        Document.Experiment.chat.allItems :=
  ⟨Experiment.compile_chat, Experiment.compile_item_feedback Experiment.compile_chat⟩

/-- An item of the document of the chat has a page that carries feedback. -/
theorem Experiment.compile_reply_feedback :
    (Experiment.chat.compile {}).outcome = .ok Document.Experiment.chat ∧
      ∃ item ∈ Document.Experiment.chat.allItems, ∃ page ∈ item.pages,
        page.feedback.isSome = true :=
  ⟨Experiment.compile_chat, _, List.mem_cons_self, _,
    List.mem_cons_of_mem _ List.mem_cons_self, rfl⟩

end Paradigm
