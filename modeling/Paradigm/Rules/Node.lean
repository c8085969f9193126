/-
Module: Paradigm.Rules.Node
Layer: Rules
Purpose: The rules that pages, answer options, items and guards keep by themselves, whatever tree
  they stand in.
Imports: Paradigm.Tree, Paradigm.Pattern, Paradigm.Rules.Verdict
Main exports: Guard.check, Feedback.check, Choice.check, Page.check, Item.check
-/
import Paradigm.Pattern
import Paradigm.Rules.Verdict
import Paradigm.Tree

namespace Paradigm

/-- A pattern has to be a regular expression. -/
def checkPattern (node pattern : String) : Verdict :=
  require (Pattern.isValid pattern) node (.invalidPattern pattern)

/-! ### Guards -/

/-- How many of its three targets a guard names. -/
def Guard.targetCount (g : Guard) : Nat :=
  [g.item.isSome, g.page.isSome, g.permutation.isSome].count true

/-- A guard watches one item or page, or one value of the permutation. What it watches may be
tested by one option or one pattern. An item can be watched if it has a single page. -/
def Guard.check (g : Guard) (owner : String) : Verdict := do
  require (g.targetCount == 1) owner (.guardTargets g.targetCount)
  require (!(g.choice.isSome && g.regex.isSome)) owner .guardChoiceAndRegex
  require (!(g.permutation.isSome && (g.choice.isSome || g.regex.isSome))) owner
    .guardPermutationTest
  match g.item with
  | some item => require (item.pages == 1) owner (.watchedPages item.id item.pages)
  | none => pure ()
  match g.regex with
  | some regex => checkPattern owner regex
  | none => pure ()

/-- The rule of a guard that may be missing. -/
def Guard.checkOption (g : Option Guard) (owner : String) : Verdict :=
  match g with
  | some guard => guard.check owner
  | none => .ok ()

/-! ### Pages -/

/-- A feedback page is there to be looked at: it offers no answer options. -/
def Feedback.check (feedback : Option Feedback) (owner : String) : Verdict :=
  match feedback with
  | some (.page shown) => require shown.choices.isEmpty owner (.feedbackWithChoices shown.id)
  | _ => .ok ()

/-- The rule of an answer option. -/
def Choice.check (choice : Choice) : Verdict := Feedback.check choice.feedback choice.id

/-- The answer keys of a page with the nodes that hold them: those of its options first. -/
def Page.answerKeys (page : Page) : List (String × Option AnswerKey) :=
  page.choices.map (fun choice => (choice.id, choice.correct)) ++ [(page.id, page.correct)]

/-- A text box is checked by a pattern. -/
def checkTextBoxKey (key : String × Option AnswerKey) : Verdict :=
  match key.2 with
  | some (.flag _) => refuse key.1 .flagOnTextBox
  | some (.pattern pattern) => checkPattern key.1 pattern
  | none => .ok ()

/-- A choice is correct or not. -/
def checkChoiceKey (key : String × Option AnswerKey) : Verdict :=
  match key.2 with
  | some (.pattern pattern) => refuse key.1 (.patternOnChoice pattern)
  | _ => .ok ()

/-- The answer keys of a page fit the way in which it is answered. -/
def Page.checkAnswers (page : Page) : Verdict :=
  if page.isFreetext then do
    require (page.choices.length ≤ 1) page.id (.textBoxChoices page.choices.length)
    checkAll checkTextBoxKey page.answerKeys
  else checkAll checkChoiceKey page.answerKeys

/-- Key bindings fit the number of options. -/
def Page.checkKeyboard (page : Page) : Verdict :=
  match page.keyboard with
  | some (.keys names) =>
      require (names.length == page.choices.length) page.id
        (.keyCount names.length page.choices.length)
  | some (.standard true) =>
      require (page.choices.length == 2) page.id (.standardKeys page.choices.length)
  | _ => .ok ()

/-- The rules of a page. -/
def Page.check (page : Page) : Verdict := do
  page.checkAnswers
  page.checkKeyboard
  Feedback.check page.feedback page.id
  Guard.checkOption page.guard page.id

/-! ### Items -/

/-- The rules of an item. -/
def Item.check (item : Item) : Verdict := do
  require (item.pageCount != 0) item.id .emptyItem
  Guard.checkOption item.guard item.id

end Paradigm
