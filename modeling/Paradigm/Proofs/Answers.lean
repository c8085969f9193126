/-
Module: Paradigm.Proofs.Answers
Layer: Proofs
Purpose: How the pages of a document are answered. The answer keys and key bindings of every page,
  feedback pages included, fit the way in which the page of the document is answered: pages are
  checked as they are emitted, with the text boxes that expansion gave them. Pages of blocks and of
  items own their text box; a page that shows feedback in place has none, as the survey shows whose
  thanks ask for a note.
Imports: Paradigm.Proofs.FeedbackPages, Paradigm.Proofs.References
Main exports: AnswerForm, AnswerForm.Fits, Page.answerForm_fits_iff, Page.Resolved.answerForm_eq,
  Experiment.compile_answers, Document.Page.OwnsTextBox, Experiment.compile_text_boxes
-/
import Paradigm.Proofs.FeedbackPages
import Paradigm.Proofs.References

namespace Paradigm

/-! ### Forms of answering -/

/-- The key of a text box is a regular expression. -/
def AnswerKey.FitsTextBox (key : AnswerKey) : Prop :=
  ∃ pattern, key = .pattern pattern ∧ Pattern.isValid pattern = true

/-- The key of a choice says whether it is correct. -/
def AnswerKey.FitsChoice (key : AnswerKey) : Prop := ∃ value, key = .flag value

/-- How a page is answered: whether in a text box, by how many options, with which answer keys and
which key bindings. -/
structure AnswerForm where
  freetext : Option Bool
  optionCount : Nat
  keys : List AnswerKey
  keyboard : Option Keyboard

/-- The parts of a form fit each other. -/
structure AnswerForm.Fits (form : AnswerForm) : Prop where
  /-- A text box is a single option. -/
  box : form.freetext = some true → form.optionCount ≤ 1
  boxKeys : form.freetext = some true → ∀ key ∈ form.keys, key.FitsTextBox
  choiceKeys : form.freetext ≠ some true → ∀ key ∈ form.keys, key.FitsChoice
  /-- One key is bound to each option. -/
  bindings : ∀ names, form.keyboard = some (.keys names) → names.length = form.optionCount
  /-- The standard pair of keys is for two options. -/
  pair : form.keyboard = some (.standard true) → form.optionCount = 2

/-- How a page of the tree is answered. -/
def Page.answerForm (page : Page) : AnswerForm where
  freetext := page.freetext
  optionCount := page.choices.length
  keys := page.answerKeys.filterMap (·.2)
  keyboard := page.keyboard

/-- How a page of the document is answered. -/
def Document.Page.answerForm (page : Document.Page) : AnswerForm where
  freetext := page.freetext
  optionCount := page.choices.length
  keys := page.choices.filterMap (·.correct) ++ page.correct.toList
  keyboard := page.keyboard

/-- The keys of the options come first. -/
theorem Page.answerKeys_filterMap (page : Page) :
    page.answerKeys.filterMap (·.2)
      = page.choices.filterMap (·.correct) ++ page.correct.toList := by
  rw [Page.answerKeys, List.filterMap_append, List.filterMap_map]
  cases page.correct <;> rfl

/-! ### Rules for answers -/

/-- A check of single keys passes for all keys where it passes for those that are given. -/
theorem checkAll_keys_eq_ok_iff {check : String × Option AnswerKey → Verdict}
    {fits : AnswerKey → Prop}
    (h : ∀ key, check key = .ok () ↔ ∀ given, key.2 = some given → fits given)
    {keys : List (String × Option AnswerKey)} :
    checkAll check keys = .ok () ↔ ∀ given ∈ keys.filterMap (·.2), fits given := by
  rw [checkAll_eq_ok_iff]
  constructor
  · intro hall given hgiven
    obtain ⟨key, hkey, hsome⟩ := List.mem_filterMap.mp hgiven
    exact (h key).mp (hall key hkey) given hsome
  · intro hall key hkey
    rw [h]
    intro given hsome
    exact hall given (List.mem_filterMap.mpr ⟨key, hkey, hsome⟩)

theorem checkTextBoxKey_eq_ok_iff (key : String × Option AnswerKey) :
    checkTextBoxKey key = .ok () ↔ ∀ given, key.2 = some given → given.FitsTextBox := by
  rcases key with ⟨node, _ | value | pattern⟩
  · simp [checkTextBoxKey]
  · simp [checkTextBoxKey, refuse, AnswerKey.FitsTextBox]
  · simp [checkTextBoxKey, checkPattern_eq_ok_iff, AnswerKey.FitsTextBox]

theorem checkChoiceKey_eq_ok_iff (key : String × Option AnswerKey) :
    checkChoiceKey key = .ok () ↔ ∀ given, key.2 = some given → given.FitsChoice := by
  rcases key with ⟨node, _ | value | pattern⟩
  · simp [checkChoiceKey]
  · simp [checkChoiceKey, AnswerKey.FitsChoice]
  · simp [checkChoiceKey, refuse, AnswerKey.FitsChoice]

theorem Page.isFreetext_iff {page : Page} : page.isFreetext = true ↔ page.freetext = some true := by
  rw [Page.isFreetext, beq_iff_eq]

theorem Page.checkAnswers_eq_ok_iff {page : Page} : page.checkAnswers = .ok () ↔
    (page.freetext = some true → page.choices.length ≤ 1 ∧
      ∀ key ∈ page.answerForm.keys, key.FitsTextBox) ∧
    (page.freetext ≠ some true → ∀ key ∈ page.answerForm.keys, key.FitsChoice) := by
  unfold Page.checkAnswers
  by_cases hbox : page.freetext = some true
  · rw [if_pos (Page.isFreetext_iff.mpr hbox), Verdict.seq_eq_ok_iff, require_eq_ok_iff,
      decide_eq_true_iff, checkAll_keys_eq_ok_iff checkTextBoxKey_eq_ok_iff]
    constructor
    · intro hchecks
      exact ⟨fun _ => hchecks, fun hother => absurd hbox hother⟩
    · intro hrules
      exact hrules.1 hbox
  · rw [if_neg (mt Page.isFreetext_iff.mp hbox), checkAll_keys_eq_ok_iff checkChoiceKey_eq_ok_iff]
    constructor
    · intro hchecks
      exact ⟨fun hother => absurd hother hbox, fun _ => hchecks⟩
    · intro hrules
      exact hrules.2 hbox

theorem Page.checkKeyboard_eq_ok_iff {page : Page} : page.checkKeyboard = .ok () ↔
    (∀ names, page.keyboard = some (.keys names) → names.length = page.choices.length) ∧
    (page.keyboard = some (.standard true) → page.choices.length = 2) := by
  unfold Page.checkKeyboard
  rcases page.keyboard with _ | on | names
  · simp
  · cases on <;> simp
  · simp

/-- The form of answering of a page fits exactly where its answers and its keyboard pass their
checks. -/
theorem Page.answerForm_fits_iff {page : Page} :
    page.answerForm.Fits ↔ page.checkAnswers = .ok () ∧ page.checkKeyboard = .ok () := by
  rw [Page.checkAnswers_eq_ok_iff, Page.checkKeyboard_eq_ok_iff]
  constructor
  · intro hfits
    exact ⟨⟨fun hbox => ⟨hfits.box hbox, hfits.boxKeys hbox⟩, hfits.choiceKeys⟩,
      hfits.bindings, hfits.pair⟩
  · intro hchecks
    obtain ⟨⟨hbox, hchoice⟩, hbindings, hpair⟩ := hchecks
    exact ⟨fun h => (hbox h).1, fun h => (hbox h).2, hchoice, hbindings, hpair⟩

/-! ### Answers of resolved pages -/

section Resolved

variable {index : Index}

theorem Choice.Resolved.correct_eq {choice : Choice} {shown : Document.Choice}
    (h : choice.Resolved index shown) : shown.correct = choice.correct := by
  cases h
  rfl

/-- A page of the document is answered as its page of the tree is. -/
theorem Page.Resolved.answerForm_eq {page : Page} {shown : Document.Page}
    (h : page.Resolved index shown) : shown.answerForm = page.answerForm := by
  have hcount := h.choices.length_eq
  have hkeys : shown.choices.filterMap (·.correct) = page.choices.filterMap (·.correct) := by
    rw [List.filterMap_eq_flatMap_toList, List.filterMap_eq_flatMap_toList]
    apply flatMap_eq_of_forall₂ h.choices
    intro choice shown hchoice
    rw [hchoice.correct_eq]
  cases h with
  | mk checked texts options feedbacks files conditions guards =>
      simp only [Document.Page.answerForm, Page.answerForm, Page.answerKeys_filterMap, hcount,
        hkeys]

/-- Pages are checked as they are emitted. -/
theorem Page.Resolved.answerForm_fits {page : Page} {shown : Document.Page}
    (h : page.Resolved index shown) : shown.answerForm.Fits := by
  rw [h.answerForm_eq, Page.answerForm_fits_iff]
  cases h with
  | mk checked texts options feedbacks files conditions guards =>
      have hchecked := Page.check_eq_ok_iff.mp checked
      exact ⟨hchecked.answers, hchecked.keyboard⟩

/-- The pages shown as feedback in place on a page, at any depth, offer no options. -/
theorem Page.Resolved.feedback_choices_eq_nil {page : Page} {shown : Document.Page}
    (h : page.Resolved index shown) : ∀ inner ∈ shown.feedbackPages, inner.choices = [] := by
  intro inner hinner
  obtain ⟨given, hgiven, hrel⟩ := exists_left_of_forall₂ h.feedbackPages inner hinner
  have hnone := h.displaysFeedback given hgiven
  rw [← List.length_eq_zero_iff, ← hrel.choices.length_eq, hnone, List.length_nil]

end Resolved

/-! ### Text boxes of expanded pages -/

section Expanded

variable {fresh : String → Prop}

theorem Page.BoxedAs.choices_ne_nil {page boxed : Page} (h : page.BoxedAs fresh boxed)
    (hfreetext : boxed.freetext = some true) : boxed.choices ≠ [] := by
  cases h with
  | boxed freetext without new => exact List.cons_ne_nil _ _
  | kept other =>
      intro hnil
      exact other ⟨Page.isFreetext_iff.mpr hfreetext, hnil⟩

theorem Item.UnfoldsTo.exists_boxedAs {item : Item} {pages : List Page}
    (h : item.UnfoldsTo fresh pages) :
    ∀ boxed ∈ pages, ∃ page, Page.BoxedAs fresh page boxed := by
  intro boxed hboxed
  cases h with
  | mk contents sites boxes =>
      obtain ⟨page, _, hbox⟩ := exists_left_of_forall₂ boxes boxed hboxed
      exact ⟨page, hbox⟩

/-- The pages of an expanded block and of its items went past the step that gives out text boxes. -/
theorem Block.HeldAs.exists_boxedAs {block expanded : Block} (h : block.HeldAs fresh expanded) :
    ∀ boxed ∈ expanded.ownPages, ∃ page, Page.BoxedAs fresh page boxed := by
  intro boxed hboxed
  rcases List.mem_append.mp hboxed with hboxed | hboxed
  · obtain ⟨page, _, hbox⟩ := exists_left_of_forall₂ h.pages boxed hboxed
    exact ⟨page, hbox⟩
  · obtain ⟨item, hitem, hboxed⟩ := List.mem_flatMap.mp hboxed
    obtain ⟨_, _, hexpanded⟩ := exists_left_of_forall₂ h.items item hitem
    exact hexpanded.unfolds.exists_boxedAs boxed hboxed

end Expanded

/-! ### Answers in documents -/

/-- A page that shows a text box has the one option for it. -/
def Document.Page.OwnsTextBox (page : Document.Page) : Prop :=
  page.freetext = some true → page.choices.length = 1

section Compiled

variable {e expanded : Experiment} {session : Session} {ids : IdSource} {index : Index}
  {slots : SlotAllocator} {document : Document.Experiment}

/-- The pages of blocks and of items own their text boxes: expansion gave each of them one option at
least, and the check of the page allows no more. -/
theorem Experiment.Compiled.ownsTextBox
    (h : e.Compiled session expanded ids index slots document) :
    ∀ block ∈ document.allBlocks, ∀ page ∈ block.ownPages, page.OwnsTextBox := by
  intro block hblock page hpage hfreetext
  obtain ⟨other, hother, hresolved⟩ := exists_left_of_forall₂ h.resolves.allBlocks block hblock
  obtain ⟨boxed, hboxed, hrel⟩ := exists_left_of_forall₂ hresolved.ownPages page hpage
  obtain ⟨_, _, hheld⟩ := exists_left_of_forall₂ h.expands.heldAs other hother
  obtain ⟨_, hbox⟩ := hheld.exists_boxedAs boxed hboxed
  have hbelow : page.choices.length ≤ 1 := hrel.answerForm_fits.box hfreetext
  -- Resolution keeps the form of answering, so the box was asked for when the tree was expanded.
  have hgiven : boxed.freetext = some true := by
    rw [← hfreetext]
    exact (congrArg AnswerForm.freetext hrel.answerForm_eq).symm
  have habove := List.length_pos_iff.mpr (hbox.choices_ne_nil hgiven)
  rw [hrel.choices.length_eq] at habove
  omega

/-- The pattern of a guard passed the check of the guard. -/
theorem Experiment.Compiled.guard_pattern
    (h : e.Compiled session expanded ids index slots document) :
    ∀ g ∈ document.guards, ∀ regex, g.regex = some regex → Pattern.isValid regex = true := by
  intro g hg regex hregex
  obtain ⟨given, _, _, hcheck, hresolve⟩ := h.resolves.guards g hg
  obtain ⟨_, _, hsame, _, _⟩ := Index.resolve_eq_ok hresolve
  rw [hsame] at hregex
  exact (Guard.check_eq_ok_iff.mp hcheck).pattern regex hregex

end Compiled

/-! ### A survey -/

/-- A name is asked for in a text box, with thanks that ask for a note. Some are asked further. -/
def Experiment.survey : Experiment where
  blocks := [
    { id := "survey"
      pages := some [
        { id := "name"
          text := .single (.literal "Who are you?")
          correct := some (.pattern "^[A-Z]")
          freetext := some true
          feedback := some (.page {
            id := "thanks"
            text := .single (.literal "Thank you. Leave a note?")
            freetext := some true }) },
        { id := "again"
          text := .single (.literal "Have you been here before?")
          choices := [
            { id := "yes", correct := some (.flag true) },
            { id := "no", correct := some (.flag false) }]
          keyboard := some (.standard true)
          guard := some { page := some "name", regex := some "^[A-M]" } }] }]

/-- The document of the survey: there is an option for the name and none for the note. -/
def Document.Experiment.survey : Document.Experiment where
  blocks := [
    { id := "survey"
      pages := some [
        { id := "name"
          text := .single (.literal "Who are you?")
          choices := [{ id := "1" }]
          correct := some (.pattern "^[A-Z]")
          freetext := some true
          feedback := some (.page {
            id := "thanks"
            text := .single (.literal "Thank you. Leave a note?")
            freetext := some true }) },
        { id := "again"
          text := .single (.literal "Have you been here before?")
          choices := [
            { id := "yes", correct := some (.flag true) },
            { id := "no", correct := some (.flag false) }]
          keyboard := some (.standard true)
          guard := some { page := some "name", regex := some "^[A-M]" } }] }]
  exchangeable := []
  counterbalance := []
  banks := .empty

/-- The survey compiles. -/
theorem Experiment.compile_survey :
    (Experiment.survey.compile {}).outcome = .ok Document.Experiment.survey := by
  cbv

/-! ### Compilation -/

/-- The pages of a compiled document are answered in fitting ways, those shown as feedback included,
and its guards test answers by regular expressions. -/
theorem Experiment.compile_answers {e : Experiment} {session : Session}
    {document : Document.Experiment} (h : (e.compile session).outcome = .ok document) :
    (∀ page ∈ document.everyPage, page.answerForm.Fits) ∧
      ∀ g ∈ document.guards, ∀ regex, g.regex = some regex → Pattern.isValid regex = true := by
  obtain ⟨expanded, ids, index, slots, hcompiled⟩ := e.compile_ok h
  constructor
  · intro page hpage
    obtain ⟨given, hgiven⟩ := hcompiled.resolves.mem_everyPage page hpage
    exact hgiven.answerForm_fits
  · exact hcompiled.guard_pattern

/-- The survey has a text box, choices with keys and a guard with a pattern. -/
theorem Experiment.compile_answers_survey :
    (Experiment.survey.compile {}).outcome = .ok Document.Experiment.survey ∧
      (∀ page ∈ Document.Experiment.survey.everyPage, page.answerForm.Fits) ∧
      ∀ g ∈ Document.Experiment.survey.guards, ∀ regex, g.regex = some regex →
        Pattern.isValid regex = true :=
  ⟨Experiment.compile_survey, Experiment.compile_answers Experiment.compile_survey⟩

/-- In a compiled document the pages of blocks and of items own their text boxes. A page shown as
feedback in place has no options, not even when it asks for text. -/
theorem Experiment.compile_text_boxes {e : Experiment} {session : Session}
    {document : Document.Experiment} (h : (e.compile session).outcome = .ok document) :
    ∀ block ∈ document.allBlocks, ∀ page ∈ block.ownPages,
      page.OwnsTextBox ∧ ∀ shown ∈ page.feedbackPages, shown.choices = [] := by
  obtain ⟨expanded, ids, index, slots, hcompiled⟩ := e.compile_ok h
  intro block hblock page hpage
  constructor
  · exact hcompiled.ownsTextBox block hblock page hpage
  · obtain ⟨given, hgiven⟩ := hcompiled.resolves.mem_allBlocks block hblock
    obtain ⟨_, _, hrel⟩ := exists_left_of_forall₂ hgiven.ownPages page hpage
    exact hrel.feedback_choices_eq_nil

/-- The name has its text box in the survey. -/
theorem Experiment.compile_text_boxes_survey :
    (Experiment.survey.compile {}).outcome = .ok Document.Experiment.survey ∧
      ∀ block ∈ Document.Experiment.survey.allBlocks, ∀ page ∈ block.ownPages,
        page.OwnsTextBox ∧ ∀ shown ∈ page.feedbackPages, shown.choices = [] :=
  ⟨Experiment.compile_survey, Experiment.compile_text_boxes Experiment.compile_survey⟩

/-- The thanks of the survey ask for text and have no text box. -/
theorem Experiment.compile_boxless_thanks :
    (Experiment.survey.compile {}).outcome = .ok Document.Experiment.survey ∧
      ∃ page ∈ Document.Experiment.survey.everyPage, ¬ page.OwnsTextBox := by
  refine ⟨Experiment.compile_survey, _, List.mem_cons_of_mem _ List.mem_cons_self, ?_⟩
  intro howns
  exact Nat.zero_ne_one (howns rfl)

end Paradigm
