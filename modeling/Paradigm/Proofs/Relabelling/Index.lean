/-
Module: Paradigm.Proofs.Relabelling.Index
Layer: Proofs
Purpose: The index of a relabelled tree is the relabelled index, as far as guards can tell. An item
  without pages has no first page to relabel; a guard on it is refused for the number of its pages
  before its first page is asked for.
Imports: Paradigm.Proofs.Expansion.Items, Paradigm.Proofs.Relabelling.Expansion,
  Paradigm.Proofs.Rules
Main exports: Experiment.identities_relabel, Experiment.allItems_relabel, Index.Relabelled,
  Index.resolve_relabel, Index.ofTrees_relabel
-/
import Paradigm.Proofs.Expansion.Items
import Paradigm.Proofs.Relabelling.Expansion
import Paradigm.Proofs.Rules

namespace Paradigm

variable {r : Relabelling}

/-! ### Identities -/

theorem Identity.relabel_injective (hr : ∀ kind, Function.Injective (r.name kind)) :
    Function.Injective (Identity.relabel r) := by
  rintro ⟨kind, id⟩ ⟨kind', id'⟩ hsame
  simp only [Identity.relabel, Prod.mk.injEq] at hsame
  obtain ⟨rfl, hid⟩ := hsame
  rw [hr kind hid]

mutual

theorem Feedback.identities_relabel : ∀ feedback : Feedback,
    (feedback.relabel r).identities = feedback.identities.map (Identity.relabel r)
  | .text label => by rw [Feedback.relabel, Feedback.identities, List.map_nil]
  | .page shown => by
      rw [Feedback.relabel, Feedback.identities, Feedback.identities]
      exact Page.identities_relabel shown

theorem Feedback.identitiesOption_relabel : ∀ feedback : Option Feedback,
    Feedback.identitiesOption (Feedback.relabelOption r feedback)
      = (Feedback.identitiesOption feedback).map (Identity.relabel r)
  | none => by rw [Feedback.relabelOption, Feedback.identitiesOption, List.map_nil]
  | some feedback => by
      rw [Feedback.relabelOption, Feedback.identitiesOption, Feedback.identitiesOption]
      exact Feedback.identities_relabel feedback

theorem Choice.identities_relabel : ∀ choice : Choice,
    (choice.relabel r).identities = choice.identities.map (Identity.relabel r)
  | ⟨id, text, correct, feedback, resources, tags⟩ => by
      rw [Choice.relabel, Choice.identities, Choice.identities, List.map_cons,
        Feedback.identitiesOption_relabel feedback]
      rfl

theorem Choice.identitiesList_relabel : ∀ choices : List Choice,
    Choice.identitiesList (Choice.relabelList r choices)
      = (Choice.identitiesList choices).map (Identity.relabel r)
  | [] => by rw [Choice.relabelList, Choice.identitiesList, List.map_nil]
  | choice :: rest => by
      rw [Choice.relabelList, Choice.identitiesList, Choice.identitiesList, List.map_append,
        Choice.identities_relabel choice, Choice.identitiesList_relabel rest]

/-- The identities of a relabelled page are those of the page, relabelled. -/
theorem Page.identities_relabel : ∀ page : Page,
    (page.relabel r).identities = page.identities.map (Identity.relabel r)
  | ⟨id, text, choices, feedback, correct, resources, condition, tags, ordered, exclusive,
      freetext, keyboard, guard⟩ => by
      rw [Page.relabel, Page.identities, Page.identities, List.cons_append, List.cons_append,
        List.map_cons, List.map_append, Feedback.identitiesOption_relabel feedback,
        Choice.identitiesList_relabel choices]
      rfl

end

/-- What is read off changed members is what is read off the members, changed. -/
theorem flatMap_map_change {α β γ : Type} {change : α → α} {given : β → γ} {read : α → List β}
    {read' : α → List γ} (h : ∀ x, read' (change x) = (read x).map given) (xs : List α) :
    (xs.map change).flatMap read' = (xs.flatMap read).map given := by
  induction xs with
  | nil => rfl
  | cons x rest ih =>
      rw [List.map_cons, List.flatMap_cons, List.flatMap_cons, List.map_append, h, ih]

theorem getD_map_list {α β : Type} (change : α → β) (xs : Option (List α)) :
    (xs.map (List.map change)).getD [] = (xs.getD []).map change := by
  cases xs <;> rfl

theorem Item.identities_relabel (item : Item) :
    (item.relabel r).identities = item.identities.map (Identity.relabel r) := by
  rw [Item.identities, Item.identities, Item.pages_relabel, List.map_cons,
    flatMap_map_change Page.identities_relabel]
  rfl

mutual

/-- The identities of a relabelled block are those of the block, relabelled. -/
theorem Block.identities_relabel : ∀ block : Block,
    (block.relabel r).identities = block.identities.map (Identity.relabel r)
  | ⟨id, pages, items, groups, blocks, _, _, _, _, _, _, _, _, _⟩ => by
      rw [Block.relabel, Block.identities, Block.identities, getD_map_list, getD_map_list,
        getD_map_list, ← List.map_flatten, flatMap_map_change Page.identities_relabel,
        flatMap_map_change Item.identities_relabel, flatMap_map_change Item.identities_relabel,
        Block.identitiesOption_relabel blocks]
      simp [Identity.relabel]

theorem Block.identitiesOption_relabel : ∀ blocks : Option (List Block),
    Block.identitiesOption (Block.relabelOption r blocks)
      = (Block.identitiesOption blocks).map (Identity.relabel r)
  | none => by rw [Block.relabelOption, Block.identitiesOption, List.map_nil]
  | some blocks => by
      rw [Block.relabelOption, Block.identitiesOption, Block.identitiesOption]
      exact Block.identitiesList_relabel blocks

theorem Block.identitiesList_relabel : ∀ blocks : List Block,
    Block.identitiesList (Block.relabelList r blocks)
      = (Block.identitiesList blocks).map (Identity.relabel r)
  | [] => by rw [Block.relabelList, Block.identitiesList, List.map_nil]
  | block :: rest => by
      rw [Block.relabelList, Block.identitiesList, Block.identitiesList, List.map_append,
        Block.identities_relabel block, Block.identitiesList_relabel rest]

end

theorem Experiment.identities_relabel (e : Experiment) :
    (e.relabel r).identities = e.identities.map (Identity.relabel r) := by
  rw [Experiment.identities, Experiment.identities, ← Block.identitiesList_relabel,
    Block.relabelList_eq, Experiment.relabel]

theorem firstRepeated_map {α β : Type} [DecidableEq α] [DecidableEq β] {f : α → β}
    (hf : Function.Injective f) (seen xs : List α) :
    firstRepeated (seen.map f) (xs.map f) = (firstRepeated seen xs).map f := by
  induction xs generalizing seen with
  | nil => rfl
  | cons x rest ih =>
      have hrest := ih (x :: seen)
      rw [List.map_cons] at hrest
      rw [List.map_cons, firstRepeated, firstRepeated, hrest]
      simp only [List.mem_map_of_injective hf]
      split <;> rfl

/-! ### Items -/

mutual

/-- The items of a relabelled block are those of the block, relabelled. -/
theorem Block.allItems_relabel : ∀ block : Block,
    (block.relabel r).allItems = block.allItems.map (Item.relabel r)
  | ⟨_, _, items, groups, blocks, _, _, _, _, _, _, _, _, _⟩ => by
      rw [Block.relabel, Block.allItems, Block.allItems, getD_map_list, getD_map_list,
        ← List.map_flatten, Block.allItemsOption_relabel blocks, List.map_append, List.map_append]

theorem Block.allItemsOption_relabel : ∀ blocks : Option (List Block),
    Block.allItemsOption (Block.relabelOption r blocks)
      = (Block.allItemsOption blocks).map (Item.relabel r)
  | none => by rw [Block.relabelOption, Block.allItemsOption, List.map_nil]
  | some blocks => by
      rw [Block.relabelOption, Block.allItemsOption, Block.allItemsOption]
      exact Block.allItemsList_relabel blocks

theorem Block.allItemsList_relabel : ∀ blocks : List Block,
    Block.allItemsList (Block.relabelList r blocks)
      = (Block.allItemsList blocks).map (Item.relabel r)
  | [] => by rw [Block.relabelList, Block.allItemsList, List.map_nil]
  | block :: rest => by
      rw [Block.relabelList, Block.allItemsList, Block.allItemsList, List.map_append,
        Block.allItems_relabel block, Block.allItemsList_relabel rest]

end

theorem Experiment.allItems_relabel (e : Experiment) :
    (e.relabel r).allItems = e.allItems.map (Item.relabel r) := by
  rw [Experiment.allItems, Experiment.allItems, ← Block.allItemsList_relabel, Block.relabelList_eq,
    Experiment.relabel]

/-! ### The index -/

/-- An index beside that of the relabelled tree. First pages correspond to each other where a guard
may ask for them, which is where there is one page. -/
structure Index.Relabelled (r : Relabelling) (index index' : Index) : Prop where
  identities : index'.identities = index.identities.map (Identity.relabel r)
  pageCounts : ∀ id, index'.pageCounts.lookup (r.name .item id) = index.pageCounts.lookup id
  known : ∀ id,
    (index'.firstPages.lookup (r.name .item id)).isSome = (index.firstPages.lookup id).isSome
  firstPages : ∀ id, (index.pageCounts.lookup id).getD 1 = 1 →
    index'.firstPages.lookup (r.name .item id)
      = (index.firstPages.lookup id).map (r.name .page)

section Guards

variable {index index' : Index} {owner owner' : String}
  (hr : ∀ kind, Function.Injective (r.name kind)) (hindex : index.Relabelled r index')
  (hnode : r.Takes owner owner')
include hr hindex hnode

theorem Index.checkWatched_relabel (kind : NodeKind) (id : String) :
    Verdict.Relabelled r (index.checkWatched owner kind id)
      (index'.checkWatched owner' kind (r.name kind id)) := by
  have hknown : index'.identities.contains (kind, r.name kind id)
      = index.identities.contains (kind, id) := by
    rw [hindex.identities, Bool.eq_iff_iff, List.contains_iff_mem, List.contains_iff_mem]
    exact List.mem_map_of_injective (Identity.relabel_injective hr) (a := (kind, id))
  rw [Index.checkWatched, Index.checkWatched, hknown]
  exact .require _ hnode (.watchedMissing kind id)

omit hr in
/-- The first page of an item is asked for where the item has one page; then it is relabelled. -/
theorem Index.watchedItem_relabel (item : ItemHandle) :
    Outcome.Relabelled r (Option.map (r.name .page))
      (index.watchedPage owner { item := some item })
      (index'.watchedPage owner' { item := some (item.relabel r) }) := by
  obtain ⟨id, count⟩ := item
  have hknown := hindex.known id
  have hfirst := hindex.firstPages id
  simp only [Index.watchedPage, ItemHandle.relabel, hindex.pageCounts id]
  cases hgiven : index.firstPages.lookup id with
  | none =>
      rw [hgiven, Option.isSome_none, Option.isSome_eq_false_iff, Option.isNone_iff_eq_none]
        at hknown
      rw [hknown]
      exact .refuse hnode (.watchedMissing .item id)
  | some first =>
      rw [hgiven, Option.isSome_some, Option.isSome_iff_exists] at hknown
      obtain ⟨first', hgiven'⟩ := hknown
      by_cases hone : (index.pageCounts.lookup id).getD 1 = 1
      · rw [hfirst hone, hgiven]
        simp only [Option.map_some]
        apply Outcome.Relabelled.bind (Verdict.Relabelled.require _ hnode (.watchedPages id _))
        intro _
        exact .pure rfl
      · have hrefused : ((index.pageCounts.lookup id).getD 1 == 1) = false := by simpa using hone
        rw [hgiven']
        simp only [hrefused]
        exact .refuse hnode (.watchedPages id _)

/-- The page that a relabelled guard watches is the relabelled page that the guard watches. -/
theorem Index.watchedPage_relabel (g : Guard) :
    Outcome.Relabelled r (Option.map (r.name .page)) (index.watchedPage owner g)
      (index'.watchedPage owner' (g.relabel r)) := by
  obtain ⟨item, page, choice, regex, permutation⟩ := g
  cases page with
  | some page =>
      apply Outcome.Relabelled.bind (Index.checkWatched_relabel hr hindex hnode .page page)
      intro _
      exact .pure rfl
  | none =>
      cases item with
      | none => exact .pure rfl
      | some item => exact Index.watchedItem_relabel hindex hnode item

omit hr hindex hnode in
/-- A guard with an option watches something, or else it would be on the permutation. -/
theorem Guard.Checked.watches {g : Guard} (h : g.Checked) {choice : String}
    (hchoice : g.choice = some choice) : g.watches = true := by
  by_contra hnot
  have hcount := h.target
  have hpermutation : g.permutation.isSome = true := by
    simp only [Guard.watches, Bool.not_eq_true, Bool.or_eq_false_iff] at hnot
    cases hsome : g.permutation.isSome with
    | true => rfl
    | false => simp [Guard.targetCount, hnot.1, hnot.2, hsome] at hcount
  have hbeside := (h.beside hpermutation).1
  rw [hchoice] at hbeside
  cases hbeside

/-- A relabelled guard that is in order resolves to the relabelled guard. -/
theorem Index.resolve_relabel {g : Guard} (hchecked : g.Checked) :
    Outcome.Relabelled r (Document.Guard.relabel r) (index.resolve owner g)
      (index'.resolve owner' (g.relabel r)) := by
  apply Outcome.Relabelled.bind (Index.watchedPage_relabel hr hindex hnode g)
  intro page
  cases hchoice : g.choice with
  | none =>
      simp only [Guard.relabel, hchoice, Option.map_none]
      exact .pure (by simp [Document.Guard.relabel])
  | some choice =>
      simp only [Guard.relabel, hchoice, hchecked.watches hchoice, if_true, Option.map_some]
      apply Outcome.Relabelled.bind (Index.checkWatched_relabel hr hindex hnode .choice choice)
      intro _
      exact .pure (by simp [Document.Guard.relabel])

theorem Index.resolveOption_relabel {g : Option Guard}
    (hcheck : Guard.checkOption g owner = .ok ()) :
    Outcome.Relabelled r (Option.map (Document.Guard.relabel r)) (index.resolveOption owner g)
      (index'.resolveOption owner' (g.map (Guard.relabel r))) := by
  cases g with
  | none => exact .ok none
  | some guard =>
      have hchecked : guard.Checked := Guard.check_eq_ok_iff.mp hcheck
      have hresolved := Index.resolve_relabel hr hindex hnode hchecked
      rw [Option.map_some, Index.resolveOption, Index.resolveOption]
      generalize index.resolve owner guard = outcome at hresolved ⊢
      generalize index'.resolve owner' (guard.relabel r) = outcome' at hresolved ⊢
      cases hresolved with
      | ok document => exact .ok (some document)
      | error report => exact .error report

end Guards

/-! ### First pages -/

/-- The identifier of the first page of an item, empty where there is none. -/
def Item.firstPage (item : Item) : String := (item.pages.head?.map (·.id)).getD ""

/-- What an index needs to know of an item and its expanded form: where there are no pages after
expansion, there were none before. -/
def Item.CountedAs (item expanded : Item) : Prop :=
  expanded.id = item.id ∧ (expanded.pages = [] → item.pageCount = 0)

theorem Item.ExpandedAs.countedAs {fresh : String → Prop} {item expanded : Item}
    (h : item.ExpandedAs fresh expanded) : item.CountedAs expanded := by
  have hlength := h.unfolds.length_eq
  constructor
  · rw [h.shape]
  · intro hnone
    rw [hnone, List.length_nil] at hlength
    omega

theorem Item.firstPage_relabel {item : Item} (h : item.pages ≠ []) :
    (item.relabel r).firstPage = r.name .page item.firstPage := by
  rw [Item.firstPage, Item.firstPage, Item.pages_relabel]
  cases hpages : item.pages with
  | nil => exact absurd hpages h
  | cons first rest =>
      rw [List.map_cons, Page.relabel_eq]
      rfl

/-- First pages of relabelled items are known where those of the items are, and are relabelled where
the item was given one page. -/
theorem lookup_firstPage_relabel {given expanded : List Item}
    (hr : Function.Injective (r.name .item)) (h : List.Forall₂ Item.CountedAs given expanded)
    (id : String) :
    ((expanded.map fun item => (r.name .item item.id, (item.relabel r).firstPage)).lookup
          (r.name .item id)).isSome
        = ((expanded.map fun item => (item.id, item.firstPage)).lookup id).isSome ∧
      (((given.map fun item => (item.id, item.pageCount)).lookup id).getD 1 = 1 →
        (expanded.map fun item => (r.name .item item.id, (item.relabel r).firstPage)).lookup
            (r.name .item id)
          = ((expanded.map fun item => (item.id, item.firstPage)).lookup id).map
              (r.name .page)) := by
  induction h with
  | nil => exact ⟨rfl, fun _ => rfl⟩
  | @cons item expanded given rest head tail ih =>
      obtain ⟨hid, hcount⟩ := head
      have hsame : (r.name .item id == r.name .item expanded.id) = (id == expanded.id) := by
        rw [Bool.eq_iff_iff, beq_iff_eq, beq_iff_eq, hr.eq_iff]
      simp only [List.map_cons, List.lookup_cons, hsame, ← hid]
      cases id == expanded.id with
      | false => exact ih
      | true =>
          refine ⟨rfl, fun hone => ?_⟩
          have hone : item.pageCount = 1 := hone
          have hpages : expanded.pages ≠ [] := by
            intro hnone
            have hzero := hcount hnone
            omega
          rw [Item.firstPage_relabel hpages]
          rfl

/-- The indices of a tree and of the relabelled tree are both refused, for the same repetition, or
the one is the other relabelled. -/
theorem Index.ofTrees_relabel {e expanded : Experiment}
    (hr : ∀ kind, Function.Injective (r.name kind))
    (h : List.Forall₂ Item.CountedAs e.allItems expanded.allItems) :
    (∃ failure failure', Index.ofTrees expanded e = .error failure ∧
        Index.ofTrees (expanded.relabel r) (e.relabel r) = .error failure' ∧
        failure.Relabelled r failure') ∨
      ∃ index index', Index.ofTrees expanded e = .ok index ∧
        Index.ofTrees (expanded.relabel r) (e.relabel r) = .ok index' ∧
        index.Relabelled r index' := by
  have hrepeated := firstRepeated_map (Identity.relabel_injective hr) [] expanded.identities
  rw [List.map_nil, ← Experiment.identities_relabel] at hrepeated
  unfold Index.ofTrees
  rw [hrepeated]
  cases firstRepeated [] expanded.identities with
  | some identity =>
      exact .inl ⟨_, _, rfl, rfl, .rule (.node identity.1 identity.2) (.repeatedId _ _)⟩
  | none =>
      refine .inr ⟨_, _, rfl, rfl, Experiment.identities_relabel expanded, ?_, ?_, ?_⟩
      · intro id
        simp only [Experiment.allItems_relabel, List.map_map, Function.comp_def,
          Item.pageCount_relabel]
        have hlookup := lookup_map_of_injective (hr .item) id
          (e.allItems.map fun item => (item.id, item.pageCount))
        rw [List.map_map] at hlookup
        exact hlookup
      · intro id
        simp only [Experiment.allItems_relabel, List.map_map]
        exact (lookup_firstPage_relabel (hr .item) h id).1
      · intro id
        simp only [Experiment.allItems_relabel, List.map_map]
        exact (lookup_firstPage_relabel (hr .item) h id).2

end Paradigm
