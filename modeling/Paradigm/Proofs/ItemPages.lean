/-
Module: Paradigm.Proofs.ItemPages
Layer: Proofs
Purpose: Which pages an item has in the document. They are resolved, in order and one by one, from
  the pages of the item once its feedback is in place, and there is one for each page that the
  author gave and one for each site of feedback. A quiz with feedback of every kind stands at the
  end.
Imports: Paradigm.Proofs.Compilation, Paradigm.Proofs.Expansion.Items,
  Paradigm.Proofs.Resolution.Nodes
Main exports: Resolves, Item.ShownAs, Experiment.compile_item_pages
-/
import Paradigm.Proofs.Compilation
import Paradigm.Proofs.Expansion.Items
import Paradigm.Proofs.Resolution.Nodes

namespace Paradigm

/-! ### What a step gives for each element -/

/-- A step of resolution gives a value, whatever was gathered before. -/
def Resolves {α β : Type} (step : α → Resolving β) (x : α) (y : β) : Prop :=
  ∃ g g', step x g = .ok y g'

section Resolves

variable {α β : Type} {step : α → Resolving β}

theorem Resolves.of_mapM {xs : List α} {ys : List β} {g g' : Gathered}
    (h : xs.mapM step g = .ok ys g') : List.Forall₂ (Resolves step) xs ys := by
  induction xs generalizing ys g with
  | nil =>
      simp only [List.mapM_nil, Step.pure_eq_ok_iff] at h
      obtain ⟨rfl, rfl⟩ := h
      exact .nil
  | cons x rest ih =>
      simp only [List.mapM_cons, Step.bind_eq_ok_iff, Step.pure_eq_ok_iff] at h
      obtain ⟨y, g₁, hx, others, g₂, hrest, rfl, rfl⟩ := h
      apply List.Forall₂.cons
      · exact ⟨g, g₁, hx⟩
      · exact ih hrest

/-- Values in a list that may be missing are given by steps over the list. -/
theorem Resolves.of_mapM_option {xs : Option (List α)} {ys : Option (List β)} {g g' : Gathered}
    (h : resolveOption (·.mapM step) xs g = .ok ys g') :
    List.Forall₂ (Resolves step) (xs.getD []) (ys.getD []) := by
  cases xs with
  | none =>
      simp only [resolveOption, Step.pure_eq_ok_iff] at h
      obtain ⟨rfl, rfl⟩ := h
      exact .nil
  | some xs =>
      simp only [resolveOption, Step.bind_eq_ok_iff, Step.pure_eq_ok_iff] at h
      obtain ⟨ys, _, hlist, rfl, rfl⟩ := h
      exact Resolves.of_mapM hlist

/-- Values in groups are given by steps over the groups. -/
theorem Resolves.flatten {xss : List (List α)} {yss : List (List β)}
    (h : List.Forall₂ (Resolves (·.mapM step)) xss yss) :
    List.Forall₂ (Resolves step) xss.flatten yss.flatten := by
  apply List.rel_flatten
  apply h.imp
  intro xs ys hgroup
  obtain ⟨g, g', hrun⟩ := hgroup
  exact Resolves.of_mapM hrun

end Resolves

/-! ### Items of resolved trees -/

section Items

variable {env : Surroundings}

mutual

/-- The items of a block and of the blocks in it resolve one by one, in order. -/
theorem Block.resolves_allItems : ∀ {block : Block} {shown : Document.Block} {g g' : Gathered},
    block.resolve env g = .ok shown g' →
      List.Forall₂ (Resolves (Item.resolve env)) block.allItems
        (shown.within.flatMap Document.Block.ownItems)
  | ⟨id, pages, items, groups, blocks, exchangeable, counterbalance, treatments, latinSquare,
      pseudorandom, criterion, cutoff, guard, banks⟩, shown, g, g', h => by
      simp only [Block.resolve, Step.bind_eq_ok_iff, Step.pure_eq_ok_iff] at h
      obtain ⟨_, _, _, _, _, _, _, _, _, _, _, _, _, _, hitems, _, _, hgroups, _, _, hchildren,
        _, _, _, _, _, _, rfl, rfl⟩ := h
      rw [Block.allItems, Document.Block.within, List.flatMap_cons]
      apply List.rel_append
      · apply List.rel_append
        · exact Resolves.of_mapM_option hitems
        · exact Resolves.flatten (Resolves.of_mapM_option hgroups)
      · exact Block.resolves_allItemsOption hchildren

theorem Block.resolves_allItemsOption : ∀ {blocks : Option (List Block)}
    {shown : Option (List Document.Block)} {g g' : Gathered},
    Block.resolveChildren env blocks g = .ok shown g' →
      List.Forall₂ (Resolves (Item.resolve env)) (Block.allItemsOption blocks)
        ((Document.Block.withinOption shown).flatMap Document.Block.ownItems)
  | none, shown, g, g', h => by
      simp only [Block.resolveChildren, Step.pure_eq_ok_iff] at h
      obtain ⟨rfl, rfl⟩ := h
      exact .nil
  | some blocks, shown, g, g', h => by
      simp only [Block.resolveChildren, Step.bind_eq_ok_iff, Step.pure_eq_ok_iff] at h
      obtain ⟨documents, _, hblocks, rfl, rfl⟩ := h
      rw [Block.allItemsOption, Document.Block.withinOption]
      exact Block.resolves_allItemsList hblocks

theorem Block.resolves_allItemsList : ∀ {blocks : List Block} {shown : List Document.Block}
    {g g' : Gathered}, Block.resolveList env blocks g = .ok shown g' →
      List.Forall₂ (Resolves (Item.resolve env)) (Block.allItemsList blocks)
        ((Document.Block.withinList shown).flatMap Document.Block.ownItems)
  | [], shown, g, g', h => by
      simp only [Block.resolveList, Step.pure_eq_ok_iff] at h
      obtain ⟨rfl, rfl⟩ := h
      exact .nil
  | block :: rest, shown, g, g', h => by
      simp only [Block.resolveList, Step.bind_eq_ok_iff, Step.pure_eq_ok_iff] at h
      obtain ⟨document, _, hblock, others, _, hrest, rfl, rfl⟩ := h
      rw [Block.allItemsList, Document.Block.withinList, List.flatMap_append]
      apply List.rel_append
      · exact Block.resolves_allItems hblock
      · exact Block.resolves_allItemsList hrest

end

/-- The items of an expanded experiment resolve one by one to those of its document, in order. -/
theorem Experiment.resolves_allItems {e : Experiment} {document : Document.Experiment}
    {g g' : Gathered} (h : e.resolve env g = .ok document g') :
    List.Forall₂ (Resolves (Item.resolve env)) e.allItems document.allItems := by
  simp only [Experiment.resolve, Step.bind_eq_ok_iff, Step.pure_eq_ok_iff] at h
  obtain ⟨_, _, _, blocks, _, hblocks, _, _, _, rfl, rfl⟩ := h
  exact Block.resolves_allItemsList hblocks

end Items

/-! ### Pages of items -/

/-- An item beside its item of the document. The pages of the latter are what resolving the
unfolded pages of the former gives, without one added, dropped or moved. -/
structure Item.ShownAs (fresh : String → Prop) (env : Surroundings) (item : Item)
    (shown : Document.Item) : Prop where
  id : shown.id = item.id
  pages : ∃ pages, item.UnfoldsTo fresh pages ∧
    Resolves (List.mapM (Page.resolve env)) pages shown.pages ∧
    List.Forall₂ (Page.Resolved env.index) pages shown.pages
  length : shown.pages.length = item.pageCount + item.feedbackSites.length

theorem Item.ShownAs.of_expanded {fresh : String → Prop} {env : Surroundings}
    {item expanded : Item} {shown : Document.Item} (h : item.ExpandedAs fresh expanded)
    (hrun : Resolves (Item.resolve env) expanded shown) : item.ShownAs fresh env shown := by
  obtain ⟨g, g', hok⟩ := hrun
  simp only [Item.resolve, Step.bind_eq_ok_iff, Step.pure_eq_ok_iff] at hok
  obtain ⟨_, _, _, pages, _, hpages, _, _, _, _, _, _, rfl, rfl⟩ := hok
  have hresolved := (Page.places.mapM hpages).1
  apply Item.ShownAs.mk
  · show expanded.id = item.id
    rw [h.shape]
  · exact ⟨expanded.pages, h.unfolds, ⟨_, _, hpages⟩, hresolved⟩
  · show pages.length = item.pageCount + item.feedbackSites.length
    rw [← hresolved.length_eq, h.unfolds.length_eq]

theorem Item.shownAs_of_forall₂ {fresh : String → Prop} {env : Surroundings} {items : List Item}
    {expanded : List Item} {shown : List Document.Item}
    (h : List.Forall₂ (Item.ExpandedAs fresh) items expanded)
    (hruns : List.Forall₂ (Resolves (Item.resolve env)) expanded shown) :
    List.Forall₂ (Item.ShownAs fresh env) items shown :=
  forall₂_comp h hruns fun _ _ _ => Item.ShownAs.of_expanded

/-- The items of a document are those of the tree in order, and their pages are resolved, against
the index of the compilation, from what the pages of the tree unfold to. New pages and options have
identifiers that this compilation issued. -/
theorem Experiment.compile_item_pages {e : Experiment} {session : Session}
    {document : Document.Experiment} (h : (e.compile session).outcome = .ok document) :
    ∃ expanded progress index,
      e.expand { ids := session.ids, warnings := [] } = .ok expanded progress ∧
        Index.ofTrees expanded e = .ok index ∧
        List.Forall₂
          (Item.ShownAs (session.ids.Issued (e.compile session).session.ids)
            { index := index, registry := session.registry })
          e.allItems document.allItems := by
  obtain ⟨expanded, progress, index, gathered, hexpand, hindex, hresolve, hafter⟩ :=
    Experiment.compile_eq_ok_iff.mp h
  have hexpanded := (Experiment.expand_ok hexpand).expandedAs
  rw [hafter]
  exact ⟨expanded, progress, index, hexpand, hindex,
    Item.shownAs_of_forall₂ hexpanded (Experiment.resolves_allItems hresolve)⟩

/-! ### A worked example -/

/-- A question with feedback on the page and on two of its options, and a text box after it. -/
def Item.quiz : Item where
  id := "meow"
  contents := .pages [
    { id := "question"
      text := .single (.literal "Which says meow?")
      choices := [
        { id := "cat", feedback := some (.text (.literal "Right!")) },
        { id := "dog" },
        { id := "cow"
          feedback := some (.page {
            id := "explanation"
            text := .single (.literal "Cats meow.")
            guard := some { permutation := some 3 } }) }]
      feedback := some (.text (.literal "Thanks for answering")) },
    { id := "comment", text := .single (.literal "Anything to add?"), freetext := some true }]

/-- A welcome, and a group with a single question after it. -/
def Experiment.quiz : Experiment where
  blocks := [
    { id := "body"
      blocks := some [
        { id := "start", items := some [{ id := "hello", contents := .text (.literal "Hello!") }] },
        { id := "test", groups := some [[.quiz]] }] }]

/-- The question with its feedback behind it, each page under the guard of its option, and the text
box with its option. -/
def Document.Item.quiz : Document.Item where
  id := "meow"
  pages := [
    { id := "question"
      text := .single (.literal "Which says meow?")
      choices := [{ id := "cat" }, { id := "dog" }, { id := "cow" }] },
    { id := "2", text := .single (.literal "Thanks for answering") },
    { id := "3"
      text := .single (.literal "Right!")
      guard := some { page := some "question", choice := some "cat" } },
    { id := "explanation"
      text := .single (.literal "Cats meow.")
      guard := some { page := some "question", choice := some "cow" } },
    { id := "comment"
      text := .single (.literal "Anything to add?")
      choices := [{ id := "4" }]
      freetext := some true }]

/-- The document of the quiz. -/
def Document.Experiment.quiz : Document.Experiment where
  blocks := [
    { id := "body"
      blocks := some [
        { id := "start"
          items := some [
            { id := "hello", pages := [{ id := "1", text := .single (.literal "Hello!") }] }] },
        { id := "test", groups := some [[.quiz]] }] }]
  exchangeable := []
  counterbalance := []
  banks := .empty

/-- The quiz compiles. -/
theorem Experiment.compile_quiz :
    (Experiment.quiz.compile .worked).outcome = .ok Document.Experiment.quiz := by
  cbv

/-- The items of the quiz have the pages that its feedback unfolds to. -/
theorem Experiment.compile_item_pages_quiz :
    (Experiment.quiz.compile .worked).outcome = .ok Document.Experiment.quiz ∧
      ∃ expanded progress index,
        Experiment.quiz.expand { ids := Session.worked.ids, warnings := [] }
            = .ok expanded progress ∧
          Index.ofTrees expanded Experiment.quiz = .ok index ∧
          List.Forall₂
            (Item.ShownAs
              (Session.worked.ids.Issued (Experiment.quiz.compile .worked).session.ids)
              { index := index, registry := Session.worked.registry })
            Experiment.quiz.allItems Document.Experiment.quiz.allItems :=
  ⟨Experiment.compile_quiz, Experiment.compile_item_pages Experiment.compile_quiz⟩

end Paradigm
