/-
Module: Paradigm.Proofs.Identifiers
Layer: Proofs
Purpose: Identifiers in a session. Every operation takes the next numbers, in order, and as long as
  the counter has room no number is taken twice; so a tree whose nodes have distinct identifiers,
  none of them a number to come, is never refused for a repeated identifier, while a tree that
  repeats one always is. A compilation takes one number for each node that it makes up: pages for
  texts and options for text boxes.
Imports: Paradigm.Proofs.Equivariance, Paradigm.Proofs.Failures, Paradigm.Proofs.References,
  Paradigm.Proofs.Sessions
Main exports: Experiment.textItems, Experiment.textFeedback, Experiment.openBoxes,
  Experiment.length_minted, Session.TakesAlong.numbers, Experiment.session_of_compile_ok,
  Experiment.compile_identifiers
-/
import Paradigm.Proofs.Equivariance
import Paradigm.Proofs.Failures
import Paradigm.Proofs.References
import Paradigm.Proofs.Sessions

namespace Paradigm

/-! ### Repeated identifiers -/

/-- The index refuses only trees whose nodes repeat an identifier. -/
theorem Index.ofTrees_ne_error {expanded given : Experiment} (h : expanded.identities.Nodup)
    (failure : Failure) : Index.ofTrees expanded given ≠ .error failure := by
  unfold Index.ofTrees
  have hnone : firstRepeated [] expanded.identities = none :=
    (firstRepeated_eq_none_iff _ _).mpr ⟨h, fun _ _ => List.not_mem_nil⟩
  rw [hnone]
  intro heq
  cases heq

/-- Nodes with distinct identifiers, none of them a number that the session has yet to issue, are
not refused for a repeated identifier, as long as the counter has room for what compilation
takes. -/
theorem Experiment.outcome_ne_repeatedId {e : Experiment} {session : Session} {count : Nat}
    (hcount : (e.compile session).session = session.advance count)
    (hroom : session.ids.HasRoom count) (hdistinct : e.identities.Nodup)
    (hunissued : ∀ identity ∈ e.identities, ∀ n, session.ids.counter.toNat < n →
      identity.2 ≠ toString n) (node : String) (kind : NodeKind) (id : String) :
    (e.compile session).outcome ≠ .error (.rule node (.repeatedId kind id)) := by
  intro hfails
  -- No rule finds this cause.
  have hnotFound :
      ¬ Failure.FoundAt (fun _ => True) Cause.OfRules (.rule node (.repeatedId kind id)) := by
    intro hfound
    cases hfound with
    | rule at_node of_rules => exact of_rules
  rcases Experiment.compile_eq_error hfails with ⟨p, hexpand⟩ | ⟨expanded, p, hexpand, hlater⟩
  · have hfound : Failure.FoundAt (fun _ => True) Cause.OfNodes _ :=
      Experiment.foundAt_of_expand trivial (fun _ _ => trivial) hexpand
    exact hnotFound (hfound.mono Cause.OfNodes.ofRules)
  · rcases hlater with hindex | ⟨index, g, _, hresolve⟩
    · have hminted := (Experiment.expand_ok hexpand).minted
      have hall : e.minted.length = count := by
        have hlast := hminted.last_eq
        rw [e.session_compile, hexpand] at hcount
        have hids : p.ids = session.ids.after count := congrArg Session.ids hcount
        rw [hids] at hlast
        exact (Nat.add_left_cancel hlast).symm
      have hnodup := hminted.nodup (hall ▸ hroom) hdistinct hunissued
      exact Index.ofTrees_ne_error hnodup _ hindex
    · exact hnotFound (Experiment.foundAt_of_resolve trivial (fun _ _ => trivial) hresolve)

/-! ### Counting new nodes -/

/-- How many items are given a text. -/
def Experiment.textItems (e : Experiment) : Nat := e.allItems.countP Item.isText

/-- How many texts, literal or drawn, stand as feedback on pages of items or on their options. -/
def Experiment.textFeedback (e : Experiment) : Nat :=
  (e.allItems.flatMap Item.feedbackSites).countP fun site => site.feedback.isText

/-- The pages that may get the option of their text box: those directly in blocks, those of items,
and those attached directly to pages of items or to their options. -/
def Block.boxSites (block : Block) : List Page :=
  block.pages.getD [] ++ block.ownItems.flatMap fun item => item.pages ++ item.attached

/-- How many text boxes have no option. -/
def Experiment.openBoxes (e : Experiment) : Nat :=
  (e.allBlocks.flatMap Block.boxSites).countP Page.lacksBox

theorem length_flatMap_ite {α β : Type} (p : α → Bool) (y : β) (xs : List α) :
    (xs.flatMap fun x => if p x then [y] else []).length = xs.countP p := by
  induction xs with
  | nil => rfl
  | cons x rest ih =>
      rw [List.flatMap_cons, List.length_append, ih, List.countP_cons]
      split <;> simp [Nat.add_comm]

theorem Item.length_minted (item : Item) : item.minted.length =
    (if item.isText then 1 else 0) + item.feedbackSites.countP (fun site => site.feedback.isText)
      + (item.pages ++ item.attached).countP Page.lacksBox := by
  have htext : (if item.isText then [NodeKind.page] else []).length
      = if item.isText then 1 else 0 := by
    split <;> rfl
  have hsites := length_flatMap_ite (fun site : FeedbackSite => site.feedback.isText)
    NodeKind.page item.feedbackSites
  have hboxes := length_flatMap_ite Page.lacksBox NodeKind.choice (item.pages ++ item.attached)
  rw [Item.minted, List.length_append, List.length_append, htext]
  exact congrArg₂ (· + ·) (congrArg (_ + ·) hsites) hboxes

theorem Item.length_minted_list (items : List Item) : (items.flatMap Item.minted).length =
    items.countP Item.isText
      + (items.flatMap Item.feedbackSites).countP (fun site => site.feedback.isText)
      + (items.flatMap fun item => item.pages ++ item.attached).countP Page.lacksBox := by
  induction items with
  | nil => rfl
  | cons item rest ih =>
      simp only [List.flatMap_cons, List.length_append, item.length_minted, ih, List.countP_cons,
        List.countP_append]
      omega

theorem Block.length_minted_list (blocks : List Block) : (blocks.flatMap Block.minted).length =
    (blocks.flatMap Block.ownItems).countP Item.isText
      + ((blocks.flatMap Block.ownItems).flatMap Item.feedbackSites).countP
          (fun site => site.feedback.isText)
      + (blocks.flatMap Block.boxSites).countP Page.lacksBox := by
  induction blocks with
  | nil => rfl
  | cons block rest ih =>
      have hpages := length_flatMap_ite Page.lacksBox NodeKind.choice (block.pages.getD [])
      have hblock : block.minted.length = (block.pages.getD []).countP Page.lacksBox
          + (block.ownItems.flatMap Item.minted).length := by
        rw [Block.minted, List.length_append]
        exact congrArg (· + _) hpages
      simp only [List.flatMap_cons, List.flatMap_append, List.length_append, hblock, ih,
        List.countP_append, Item.length_minted_list, Block.boxSites]
      omega

/-- The nodes that expansion makes up are pages for texts of items and of feedback, and options for
text boxes. -/
theorem Experiment.length_minted (e : Experiment) :
    e.minted.length = e.textItems + e.textFeedback + e.openBoxes := by
  rw [Experiment.minted, Block.length_minted_list, Experiment.textItems, Experiment.textFeedback,
    Experiment.openBoxes, e.allItems_eq]

/-- A successful compilation mints what the tree needs, and the nodes of its document are those of
the tree and the new ones. -/
theorem Experiment.minted_of_compile {e : Experiment} {session : Session}
    {document : Document.Experiment} (h : (e.compile session).outcome = .ok document) :
    document.identities.Nodup ∧ Minted session.ids (e.compile session).session.ids e.minted
      e.identities document.identities := by
  obtain ⟨expanded, p, index, g, hexpand, hindex, hresolve, hsession⟩ :=
    Experiment.compile_eq_ok_iff.mp h
  obtain ⟨hresolved, _⟩ := Experiment.resolve_ok hresolve
  rw [hsession, hresolved.identities_eq]
  exact ⟨(Index.ofTrees_eq_ok hindex).1, (Experiment.expand_ok hexpand).minted⟩

/-- So it moves the session on by one identifier for each of them. -/
theorem Experiment.session_of_compile_ok {e : Experiment} {session : Session}
    {document : Document.Experiment} (h : (e.compile session).outcome = .ok document) :
    (e.compile session).session
      = session.advance (e.textItems + e.textFeedback + e.openBoxes) := by
  obtain ⟨_, hsource, _⟩ := Experiment.minted_of_compile h
  rw [e.length_minted] at hsource
  rw [e.session_compile] at hsource ⊢
  exact congrArg (fun ids => { session with ids := ids }) hsource

/-! ### Identifiers of a session -/

/-- As long as the counter has room, operations take the numbers above it. -/
theorem Session.TakesAlong.numbers {session : Session} {operations : List Session.Operation}
    {taken : List String} (h : session.TakesAlong operations taken)
    (hroom : session.ids.HasRoom taken.length) :
    taken = (List.range taken.length).map
        (fun i => toString (session.ids.counter.toNat + (i + 1))) ∧
      taken.Nodup ∧
      (session.perform operations).ids.counter.toNat
        = session.ids.counter.toNat + taken.length := by
  obtain ⟨hupcoming, hids⟩ := h.handed
  refine ⟨?_, ?_, ?_⟩
  · rwa [← hroom.upcoming_eq]
  · rw [hupcoming]
    exact hroom.nodup_upcoming
  · rw [hids, hroom.toNat_counter_after]

/-- Whatever is done in a session, the identifiers taken are the next ones of its counter in order:
as long as that has room, the numbers above it, each of them once. So a compilation never refuses a
tree for a repeated identifier if the identifiers of its nodes, feedback pages included, are
distinct for each kind of nodes and none is a number to come; if a kind of nodes repeats one,
compilation fails. Where it succeeds, it takes one identifier for each item with a text, each text
as feedback on pages of items or on their options, and each text box without an option, and every
one that it takes is that of one new node. -/
theorem Experiment.compile_identifiers :
    (∀ (session : Session) (operations : List Session.Operation),
      (∃ taken, session.TakesAlong operations taken) ∧
      ∀ taken, session.TakesAlong operations taken →
        taken = session.ids.upcoming taken.length ∧
        (session.perform operations).ids = session.ids.after taken.length ∧
        (session.ids.HasRoom taken.length →
          taken = (List.range taken.length).map
              (fun i => toString (session.ids.counter.toNat + (i + 1))) ∧
            taken.Nodup ∧
            (session.perform operations).ids.counter.toNat
              = session.ids.counter.toNat + taken.length)) ∧
    ∀ (e : Experiment) (session : Session),
      (∀ count, (e.compile session).session = session.advance count →
        session.ids.HasRoom count → e.identities.Nodup →
        (∀ identity ∈ e.identities, ∀ n, session.ids.counter.toNat < n →
          identity.2 ≠ toString n) →
        ∀ node kind id,
          (e.compile session).outcome ≠ .error (.rule node (.repeatedId kind id))) ∧
      (¬ e.identities.Nodup → ∃ failure, (e.compile session).outcome = .error failure) ∧
      ∀ document, (e.compile session).outcome = .ok document →
        (e.compile session).session
            = session.advance (e.textItems + e.textFeedback + e.openBoxes) ∧
        (session.ids.HasRoom (e.textItems + e.textFeedback + e.openBoxes) →
          (e.compile session).session.ids.counter.toNat
            = session.ids.counter.toNat + (e.textItems + e.textFeedback + e.openBoxes)) ∧
        ∃ new : List Identity, document.identities.Perm (e.identities ++ new) ∧
          new.map Prod.snd
            = session.ids.upcoming (e.textItems + e.textFeedback + e.openBoxes) := by
  constructor
  · intro session operations
    refine ⟨session.exists_takesAlong operations, ?_⟩
    intro taken htaken
    obtain ⟨hupcoming, hids⟩ := htaken.handed
    exact ⟨hupcoming, hids, htaken.numbers⟩
  · intro e session
    refine ⟨fun _ => Experiment.outcome_ne_repeatedId, ?_, ?_⟩
    · intro hrepeated
      cases houtcome : (e.compile session).outcome with
      | error failure => exact ⟨failure, rfl⟩
      | ok document =>
          obtain ⟨hnodup, hminted⟩ := Experiment.minted_of_compile houtcome
          exact absurd (hminted.nodup_before hnodup) hrepeated
    · intro document hdocument
      have hsession := Experiment.session_of_compile_ok hdocument
      obtain ⟨_, _, new, hids, _, hnodes⟩ := Experiment.minted_of_compile hdocument
      rw [e.length_minted] at hids
      refine ⟨hsession, ?_, new, hnodes, hids⟩
      intro hroom
      rw [hsession]
      exact hroom.toNat_counter_after

/-! ### The quiz -/

/-- The quiz twice over repeats its identifiers. -/
def Experiment.quizTwice : Experiment where
  blocks := Experiment.quiz.blocks ++ Experiment.quiz.blocks

/-- What is done before the quiz is compiled: a page is made, a placeholder is refused, the page is
copied, and the quiz twice over is refused. -/
def Session.rehearsal : List Session.Operation :=
  [.createPage (.single (.literal "Hello!")),
    .sample "words" { sharing := some "target", replacing := true },
    .copyPage { id := "1", text := .single (.literal "Hello!"), choices := [{ id := "yes" }] },
    .compile .quizTwice]

/-- The rehearsal takes eleven numbers. In a new session, the quiz takes four: one for its greeting,
two for texts as feedback and one for its text box. -/
theorem Experiment.compile_identifiers_quiz :
    (∃ taken, Session.worked.TakesAlong Session.rehearsal taken ∧
      Session.worked.ids.HasRoom taken.length ∧
      taken = (List.range taken.length).map
        (fun i => toString (Session.worked.ids.counter.toNat + (i + 1))) ∧
      taken.Nodup ∧ (Session.worked.perform Session.rehearsal).ids.counter.toNat
        = Session.worked.ids.counter.toNat + taken.length) ∧
    (Session.worked.perform Session.rehearsal).ids.last = 11 ∧
    (Experiment.quiz.compile .worked).session = Session.worked.advance (1 + 2 + 1) ∧
    Session.worked.ids.HasRoom (1 + 2 + 1) ∧
    Experiment.quiz.identities.Nodup ∧
    (∀ identity ∈ Experiment.quiz.identities, ∀ n, Session.worked.ids.counter.toNat < n →
      identity.2 ≠ toString n) ∧
    (∀ node kind id,
      (Experiment.quiz.compile .worked).outcome ≠ .error (.rule node (.repeatedId kind id))) ∧
    ¬ Experiment.quizTwice.identities.Nodup ∧
    (∃ failure, (Experiment.quizTwice.compile .worked).outcome = .error failure) ∧
    (Experiment.quiz.compile .worked).outcome = .ok Document.Experiment.quiz ∧
    ∃ new : List Identity,
      Document.Experiment.quiz.identities.Perm (Experiment.quiz.identities ++ new) ∧
        new.map Prod.snd = ["1", "2", "3", "4"] := by
  obtain ⟨hoperations, hcompile⟩ := Experiment.compile_identifiers
  obtain ⟨⟨taken, htaken⟩, hall⟩ := hoperations .worked Session.rehearsal
  obtain ⟨hnever, _, hcount⟩ := hcompile .quiz .worked
  obtain ⟨_, htwice, _⟩ := hcompile .quizTwice .worked
  obtain ⟨hsession, _, hnew⟩ := hcount _ Experiment.compile_quiz
  have hrehearsed : (Session.worked.perform Session.rehearsal).ids.last = 11 := by cbv
  obtain ⟨_, hids, hnumbers⟩ := hall taken htaken
  have hlength : taken.length = 11 := by
    rw [hids] at hrehearsed
    exact (Nat.zero_add _).symm.trans hrehearsed
  have hroom : Session.worked.ids.HasRoom taken.length := by
    rw [hlength]
    decide
  have hcompiling : Session.worked.ids.HasRoom (1 + 2 + 1) := by decide
  have hdistinct : Experiment.quiz.identities.Nodup := by decide
  have hrepeated : ¬ Experiment.quizTwice.identities.Nodup := by decide
  have hunissued : ∀ identity ∈ Experiment.quiz.identities, ∀ n,
      Session.worked.ids.counter.toNat < n → identity.2 ≠ toString n := by
    have hnames : ∀ identity ∈ Experiment.quiz.identities,
        identity ∈ Experiment.quiz.names := by decide
    rintro ⟨kind, _⟩ hidentity n _ rfl
    exact Experiment.names_quiz kind n (hnames _ hidentity)
  exact ⟨⟨taken, htaken, hroom, hnumbers hroom⟩, hrehearsed, hsession, hcompiling, hdistinct,
    hunissued, hnever _ hsession hcompiling hdistinct hunissued, hrepeated, htwice hrepeated,
    Experiment.compile_quiz, hnew⟩

end Paradigm
