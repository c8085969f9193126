/-
Module: Paradigm.Proofs.Guards
Layer: Proofs
Purpose: What becomes of the guards that the author gives. Those of items, of pages and of blocks
  without a treatment stay on their nodes; only feedback on an option of a page of an item gets the
  guard of its option instead. A guard on an item watches the first page of the item in the
  document, which is the only one that the author gave it, whatever feedback follows. A guard that
  names an item of more pages or none, or a node that is not there, is refused.
Imports: Paradigm.Proofs.Families, Paradigm.Proofs.FeedbackPages, Paradigm.Proofs.References
Main exports: Item.ShownBy, Guard.LinkedAs, Experiment.HasGuard, Guard.Astray,
  Experiment.Compiled.linkedAs, Experiment.Compiled.keeps_guard, Experiment.compile_guards
-/
import Paradigm.Proofs.Families
import Paradigm.Proofs.FeedbackPages
import Paradigm.Proofs.References

namespace Paradigm

/-! ### Guards in the tree and in the document -/

/-- All pages of an experiment, those given as feedback included. -/
def Experiment.everyPage (e : Experiment) : List Page :=
  (e.allBlocks.flatMap Block.ownPages).flatMap Page.within

/-- Whether a page is given as feedback on an answer option of a page of an item. -/
def Experiment.OptionFeedback (e : Experiment) (page : Page) : Prop :=
  ∃ item ∈ e.allItems, ∃ outer ∈ item.pages, ∃ choice ∈ outer.choices,
    choice.feedback = some (.page page)

/-- The nodes whose guards are the author's, with these guards: blocks that no treatment names,
items, and pages but for feedback on an option of a page of an item. -/
inductive Experiment.HasGuard (e : Experiment) : Identity → Option Guard → Prop where
  | block {block : Block} (mem : block ∈ e.allBlocks)
      (untreated : ∀ family ∈ e.families, block.id ∉ family.treatments.flatten) :
      Experiment.HasGuard e (.block, block.id) block.guard
  | item {item : Item} (mem : item ∈ e.allItems) :
      Experiment.HasGuard e (.item, item.id) item.guard
  | page {page : Page} (mem : page ∈ e.everyPage) (other : ¬ e.OptionFeedback page) :
      Experiment.HasGuard e (.page, page.id) page.guard

/-- The nodes of a document with their guards. -/
inductive Document.Experiment.HasGuard (document : Document.Experiment) :
    Identity → Option Document.Guard → Prop where
  | block {block : Document.Block} (mem : block ∈ document.allBlocks) :
      Document.Experiment.HasGuard document (.block, block.id) block.guard
  | item {item : Document.Item} (mem : item ∈ document.allItems) :
      Document.Experiment.HasGuard document (.item, item.id) item.guard
  | page {page : Document.Page} (mem : page ∈ document.everyPage) :
      Document.Experiment.HasGuard document (.page, page.id) page.guard

/-- The page that an item with one page is given: that page, or for a text the new page for it. -/
inductive Item.OnlyPage (fresh : String → Prop) (item : Item) : String → Prop where
  | text {label : Text} {id : String} (contents : item.contents = .text label) (new : fresh id) :
      Item.OnlyPage fresh item id
  | given {page : Page} (pages : item.pages = [page]) : Item.OnlyPage fresh item page.id

/-- An item with one page and the page to watch for it, which is the first of the item in the
document. -/
structure Item.ShownBy (fresh : String → Prop) (document : Document.Experiment) (item : Item)
    (page : String) : Prop where
  single : item.pageCount = 1
  only : item.OnlyPage fresh page
  first : ∃ shown ∈ document.allItems,
    shown.id = item.id ∧ shown.pages.head?.map (·.id) = some page

/-- A guard of a tree beside what it is in the document. The pattern and the value of the
permutation are unchanged, options and pages stay the nodes that they are, and an item becomes its
only page. -/
structure Guard.LinkedAs (e : Experiment) (document : Document.Experiment) (fresh : String → Prop)
    (g : Guard) (shown : Document.Guard) : Prop where
  regex : shown.regex = g.regex
  permutation : shown.permutation = g.permutation
  choice : shown.choice = g.choice
  options : ∀ choice, g.choice = some choice → (.choice, choice) ∈ document.identities
  page : ∀ page, g.page = some page → shown.page = some page ∧ (.page, page) ∈ document.identities
  item : ∀ handle, g.item = some handle → ∃ item ∈ e.allItems, item.id = handle.id ∧
    ∃ page, item.ShownBy fresh document page ∧ shown.page = some page
  neither : g.page = none → g.item = none → shown.page = none

/-- Whether a node is in a tree as it is compiled: the author gave it, or expansion made it up. -/
def Experiment.HasNow (e : Experiment) (session : Session) (identity : Identity) : Prop :=
  identity ∈ e.identities ∨ ∃ expanded p,
    e.expand { ids := session.ids, warnings := [] } = .ok expanded p ∧
      identity ∈ expanded.identities

/-- A guard whose target cannot be watched: an item that the author gave another number of pages or
that is not in the tree, or a page or an option that is neither in it nor made up for it. -/
inductive Guard.Astray (e : Experiment) (session : Session) (g : Guard) : Prop where
  | pages {handle : ItemHandle} {item : Item} (target : g.item = some handle)
      (mem : item ∈ e.allItems) (named : item.id = handle.id) (other : item.pageCount ≠ 1) :
      Guard.Astray e session g
  | item {handle : ItemHandle} (target : g.item = some handle)
      (absent : ∀ item ∈ e.allItems, item.id ≠ handle.id) : Guard.Astray e session g
  | page {page : String} (target : g.page = some page)
      (absent : ¬ e.HasNow session (.page, page)) : Guard.Astray e session g
  | choice {choice : String} (target : g.choice = some choice)
      (absent : ¬ e.HasNow session (.choice, choice)) : Guard.Astray e session g

/-! ### Watched pages -/

section Watched

variable {index : Index} {owner : String} {g : Guard} {watched : Option String}

theorem Index.watchedPage_of_page {page : String} (hpage : g.page = some page)
    (h : index.watchedPage owner g = .ok watched) :
    watched = some page ∧ (NodeKind.page, page) ∈ index.identities := by
  simp only [Index.watchedPage, hpage, Outcome.bind_eq_ok_iff, Outcome.pure_eq_ok_iff,
    Index.checkWatched_eq_ok_iff] at h
  obtain ⟨_, hknown, rfl⟩ := h
  exact ⟨rfl, hknown⟩

theorem Index.watchedPage_of_item {handle : ItemHandle} (hpage : g.page = none)
    (hitem : g.item = some handle) (h : index.watchedPage owner g = .ok watched) :
    ∃ first, watched = some first ∧ index.firstPages.lookup handle.id = some first ∧
      (index.pageCounts.lookup handle.id).getD 1 = 1 := by
  cases hfirst : index.firstPages.lookup handle.id with
  | none => simp [Index.watchedPage, hpage, hitem, hfirst, refuse] at h
  | some first =>
      simp only [Index.watchedPage, hpage, hitem, hfirst, Outcome.bind_eq_ok_iff,
        Outcome.pure_eq_ok_iff] at h
      obtain ⟨_, hcount, rfl⟩ := h
      exact ⟨first, rfl, rfl, beq_iff_eq.mp (require_eq_ok_iff.mp hcount)⟩

theorem Index.watchedPage_of_neither (hpage : g.page = none) (hitem : g.item = none)
    (h : index.watchedPage owner g = .ok watched) : watched = none := by
  simp only [Index.watchedPage, hpage, hitem, Except.ok.injEq] at h
  exact h.symm

end Watched

/-- What is found by name in one of two lists in step is found in the other in the same place. -/
theorem exists_lookup_of_forall₂ {α β γ δ : Type} {rel : α → β → Prop} {key : α → String}
    {key' : β → String} {read' : β → δ} {xs : List α} {ys : List β} {id : String} {value : δ}
    (read : α → γ) (h : List.Forall₂ rel xs ys) (hkey : ∀ x y, rel x y → key' y = key x)
    (hlookup : (ys.map fun y => (key' y, read' y)).lookup id = some value) :
    ∃ x ∈ xs, ∃ y ∈ ys, rel x y ∧ key x = id ∧ read' y = value ∧
      (xs.map fun x => (key x, read x)).lookup id = some (read x) := by
  induction h with
  | nil => cases hlookup
  | @cons x y xs ys head tail ih =>
      rw [List.map_cons, List.lookup_cons, hkey x y head] at hlookup
      by_cases hid : id = key x
      · simp only [hid, beq_self_eq_true, Option.some.injEq] at hlookup
        refine ⟨x, List.mem_cons_self, y, List.mem_cons_self, head, hid.symm, hlookup, ?_⟩
        simp [hid]
      · have hne : (id == key x) = false := beq_eq_false_iff_ne.mpr hid
        rw [hne] at hlookup
        obtain ⟨x', hx', y', hy', hrel, hname, hvalue, hfound⟩ := ih hlookup
        refine ⟨x', List.mem_cons_of_mem _ hx', y', List.mem_cons_of_mem _ hy', hrel, hname,
          hvalue, ?_⟩
        rw [List.map_cons, List.lookup_cons, hne]
        exact hfound

theorem Index.pageCounts_of_ofTrees {expanded given : Experiment} {index : Index}
    (h : Index.ofTrees expanded given = .ok index) :
    index.pageCounts = given.allItems.map fun item => (item.id, item.pageCount) := by
  unfold Index.ofTrees at h
  split at h
  · cases h
  · cases h
    rfl

section Unfolding

variable {fresh : String → Prop}

/-- The first page of an item that was given one page is the page that it was given, even with
feedback pages behind it. -/
theorem Item.UnfoldsTo.first {item : Item} {pages : List Page} (h : item.UnfoldsTo fresh pages)
    (hsingle : item.pageCount = 1) :
    ∃ page, item.OnlyPage fresh page ∧ pages.head?.map (·.id) = some page := by
  cases h with
  | @mk given _ unfolded contents sites boxes =>
      have hlength := contents.length_eq.1
      rw [hsingle] at hlength
      obtain ⟨page, rfl⟩ := List.length_eq_one_iff.mp hlength
      have honly : item.OnlyPage fresh page.id := by
        generalize hcontents : item.contents = inner at contents
        cases contents with
        | text new => exact .text hcontents new
        | page single =>
            apply Item.OnlyPage.given
            simp only [Item.pages, hcontents]
        | pages several =>
            apply Item.OnlyPage.given
            simp only [Item.pages, hcontents]
      refine ⟨page.id, honly, ?_⟩
      cases sites with
      | cons head tail =>
          cases head with
          | mk shownSites =>
              rw [List.flatten_cons, List.cons_append] at boxes
              cases boxes with
              | cons box _ => exact congrArg some box.id_eq

/-! ### Pages that keep their guards -/

/-- Whether a page stands for another one: it has its identifier and its guard. -/
def Page.StandsFor (other page : Page) : Prop := other.id = page.id ∧ other.guard = page.guard

theorem Feedback.mem_withinOption_iff {feedback : Option Feedback} {page : Page} :
    page ∈ Feedback.withinOption feedback ↔
      ∃ shown, feedback = some (.page shown) ∧ page ∈ shown.within := by
  rcases feedback with _ | (label | shown)
  · simp [Feedback.withinOption]
  · simp [Feedback.withinOption, Feedback.within]
  · simp [Feedback.withinOption, Feedback.within]

theorem Choice.mem_withinList_iff {page : Page} : ∀ {choices : List Choice},
    page ∈ Choice.withinList choices ↔
      ∃ choice ∈ choices, page ∈ Feedback.withinOption choice.feedback
  | [] => by simp [Choice.withinList]
  | ⟨_, _, _, _, _, _⟩ :: rest => by
      simp [Choice.withinList, Choice.mem_withinList_iff]

/-- A page and the feedback pages in it keep their guards when the page gets a text box. -/
theorem Page.BoxedAs.exists_within {page boxed : Page} (h : page.BoxedAs fresh boxed) :
    ∀ inner ∈ page.within, ∃ other ∈ boxed.within, other.StandsFor inner := by
  intro inner hinner
  rw [Page.within_eq, List.mem_cons] at hinner
  rcases hinner with rfl | hinner
  · have hguard : boxed.guard = inner.guard := by cases h <;> rfl
    rw [Page.within_eq]
    exact ⟨boxed, List.mem_cons_self, h.id_eq, hguard⟩
  · rw [Page.within_eq, h.feedbackPages_eq]
    exact ⟨inner, List.mem_cons_of_mem _ hinner, rfl, rfl⟩

/-- What a page of an item unfolds to holds all pages in it under their guards, but for feedback on
its own options. -/
theorem Page.UnfoldsTo.exists_within {page : Page} {pages : List Page}
    (h : page.UnfoldsTo fresh pages) : ∀ inner ∈ page.within,
      (∀ choice ∈ page.choices, choice.feedback ≠ some (.page inner)) →
        ∃ shown ∈ pages, ∃ other ∈ shown.within, other.StandsFor inner := by
  intro inner hinner hother
  cases h with
  | @mk shown sites =>
      rw [Page.within_eq, List.mem_cons, Page.feedbackPages, List.mem_append] at hinner
      rcases hinner with rfl | hinner | hinner
      · exact ⟨inner.plain, List.mem_cons_self, inner.plain,
          (Page.within_eq _ ▸ List.mem_cons_self), rfl, rfl⟩
      · -- Feedback on the page itself has a page of its own, with its guard.
        obtain ⟨own, hown, hinner⟩ := Feedback.mem_withinOption_iff.mp hinner
        have hsite : { feedback := .page own, guard := none } ∈ page.feedbackSites := by
          simp [Page.feedbackSites, hown]
        obtain ⟨spliced, hspliced, hshown⟩ := exists_right_of_forall₂ sites _ hsite
        cases hshown with
        | mk feedback =>
            cases feedback
            refine ⟨_, List.mem_cons_of_mem _ hspliced, inner, ?_, rfl, rfl⟩
            cases own
            exact hinner
      · -- Feedback on an option is given another guard; the pages in it are not.
        obtain ⟨choice, hchoice, hinner⟩ := Choice.mem_withinList_iff.mp hinner
        obtain ⟨own, hown, hinner⟩ := Feedback.mem_withinOption_iff.mp hinner
        have hne : inner ≠ own := by
          rintro rfl
          exact hother choice hchoice hown
        rw [Page.within_eq, List.mem_cons] at hinner
        have hdeep := hinner.resolve_left hne
        have hsite : { feedback := .page own
                       guard := some { page := some page.id, choice := some choice.id } }
            ∈ page.feedbackSites := by
          apply List.mem_append_right
          exact List.mem_filterMap.mpr ⟨choice, hchoice, by simp [hown]⟩
        obtain ⟨spliced, hspliced, hshown⟩ := exists_right_of_forall₂ sites _ hsite
        cases hshown with
        | mk feedback =>
            cases feedback
            refine ⟨_, List.mem_cons_of_mem _ hspliced, inner, ?_, rfl, rfl⟩
            rw [Page.within_eq]
            exact List.mem_cons_of_mem _ hdeep

theorem Item.UnfoldsTo.exists_within {item : Item} {pages : List Page}
    (h : item.UnfoldsTo fresh pages) : ∀ page ∈ item.pages, ∀ inner ∈ page.within,
      (∀ choice ∈ page.choices, choice.feedback ≠ some (.page inner)) →
        ∃ other ∈ pages.flatMap Page.within, other.StandsFor inner := by
  intro page hpage inner hinner hother
  cases h with
  | @mk given _ unfolded contents sites boxes =>
      have hgiven : page ∈ given := by
        unfold Item.pages at hpage
        generalize item.contents = inner at hpage contents
        cases contents with
        | text new => simp at hpage
        | page single => exact hpage
        | pages several => exact hpage
      obtain ⟨unfoldedPage, hmem, hunfolds⟩ := exists_right_of_forall₂ sites page hgiven
      obtain ⟨shown, hshown, other, hinside, hstands⟩ :=
        hunfolds.exists_within inner hinner hother
      obtain ⟨boxed, hboxed, hbox⟩ := exists_right_of_forall₂ boxes shown
        (List.mem_flatten_of_mem hmem hshown)
      obtain ⟨last, hlast, hid, hguard⟩ := hbox.exists_within other hinside
      exact ⟨last, List.mem_flatMap_of_mem hboxed hlast, hid.trans hstands.1,
        hguard.trans hstands.2⟩

/-- The expanded form of a block has all its pages under their guards, but for feedback on options
of pages of items. -/
theorem Block.HeldAs.exists_within {block expanded : Block} (h : block.HeldAs fresh expanded) :
    ∀ page ∈ block.ownPages.flatMap Page.within,
      (∀ item ∈ block.ownItems, ∀ outer ∈ item.pages, ∀ choice ∈ outer.choices,
        choice.feedback ≠ some (.page page)) →
        ∃ other ∈ expanded.ownPages.flatMap Page.within, other.StandsFor page := by
  intro page hpage hother
  obtain ⟨outer, houter, hpage⟩ := List.mem_flatMap.mp hpage
  unfold Block.ownPages
  rw [List.flatMap_append]
  rcases List.mem_append.mp houter with houter | houter
  · obtain ⟨boxed, hboxed, hbox⟩ := exists_right_of_forall₂ h.pages outer houter
    obtain ⟨other, hinside, hstands⟩ := hbox.exists_within page hpage
    exact ⟨other, List.mem_append_left _ (List.mem_flatMap_of_mem hboxed hinside), hstands⟩
  · obtain ⟨item, hitem, houter⟩ := List.mem_flatMap.mp houter
    obtain ⟨expandedItem, hexpanded, hexpands⟩ := exists_right_of_forall₂ h.items item hitem
    obtain ⟨other, hinside, hstands⟩ :=
      hexpands.unfolds.exists_within outer houter page hpage (hother item hitem outer houter)
    refine ⟨other, List.mem_append_right _ ?_, hstands⟩
    rw [List.flatMap_assoc]
    exact List.mem_flatMap_of_mem hexpanded hinside

end Unfolding

/-! ### Items and their identities -/

theorem Item.sublist_identities (items : List Item) :
    (items.map fun item => (NodeKind.item, item.id)).Sublist (items.flatMap Item.identities) := by
  induction items with
  | nil => exact .slnil
  | cons item rest ih =>
      rw [List.map_cons, List.flatMap_cons]
      exact List.Sublist.append (List.singleton_sublist.mpr List.mem_cons_self) ih

mutual

/-- The items of a block are among its nodes, each in its place. -/
theorem Block.items_sublist : ∀ block : Block,
    (block.allItems.map fun item => (NodeKind.item, item.id)).Sublist block.identities
  | ⟨_, pages, items, groups, blocks, _, _, _, _, _, _, _, _, _⟩ => by
      have hpages := List.sublist_append_right ((pages.getD []).flatMap Page.identities)
        ((items.getD []).flatMap Item.identities)
      have hitems := (Item.sublist_identities (items.getD [])).trans hpages
      have hgroups := Item.sublist_identities (groups.getD []).flatten
      have hchildren := Block.items_sublistOption blocks
      rw [Block.allItems, Block.identities, List.map_append, List.map_append, List.cons_append]
      exact ((hitems.append hgroups).append hchildren).cons _

theorem Block.items_sublistOption : ∀ blocks : Option (List Block),
    ((Block.allItemsOption blocks).map fun item => (NodeKind.item, item.id)).Sublist
      (Block.identitiesOption blocks)
  | none => .slnil
  | some blocks => by
      rw [Block.allItemsOption, Block.identitiesOption]
      exact Block.items_sublistList blocks

theorem Block.items_sublistList : ∀ blocks : List Block,
    ((Block.allItemsList blocks).map fun item => (NodeKind.item, item.id)).Sublist
      (Block.identitiesList blocks)
  | [] => .slnil
  | block :: rest => by
      rw [Block.allItemsList, Block.identitiesList, List.map_append]
      exact (Block.items_sublist block).append (Block.items_sublistList rest)

end

/-- Items of a tree with distinct nodes are told apart by their identifiers. -/
theorem Experiment.item_unique {e : Experiment} (h : e.identities.Nodup) :
    ∀ item ∈ e.allItems, ∀ other ∈ e.allItems, item.id = other.id → item = other := by
  have hnodup := h.sublist (Block.items_sublistList e.blocks)
  intro item hitem other hother hid
  exact List.inj_on_of_nodup_map hnodup hitem hother (by rw [hid])

/-! ### Guards of compiled experiments -/

section Compiled

variable {e expanded : Experiment} {session : Session} {ids : IdSource} {index : Index}
  {slots : SlotAllocator} {document : Document.Experiment}

/-- A guard on an item watches the only page that the item was given, and that page is the first of
the item in the document. -/
theorem Experiment.Compiled.shownBy
    (h : e.Compiled session expanded ids index slots document) {handle : ItemHandle}
    {first : String} (hfirst : index.firstPages.lookup handle.id = some first)
    (hcount : (index.pageCounts.lookup handle.id).getD 1 = 1) :
    ∃ item ∈ e.allItems, item.id = handle.id ∧
      item.ShownBy (session.ids.Issued ids) document first := by
  obtain ⟨_, _, hfirstPages⟩ := Index.ofTrees_eq_ok h.indexed
  rw [hfirstPages] at hfirst
  rw [Index.pageCounts_of_ofTrees h.indexed] at hcount
  have hkey : ∀ item other : Item, item.ExpandedAs (session.ids.Issued ids) other →
      other.id = item.id := by
    intro item other hexpands
    rw [hexpands.shape]
  obtain ⟨item, hitem, other, hother, hexpands, hid, hvalue, hfound⟩ :=
    exists_lookup_of_forall₂ Item.pageCount h.expands.expandedAs hkey hfirst
  rw [hfound, Option.getD_some] at hcount
  obtain ⟨page, honly, hhead⟩ := hexpands.unfolds.first hcount
  rw [hhead, Option.getD_some] at hvalue
  subst hvalue
  obtain ⟨shown, hshown, hresolved⟩ := exists_right_of_forall₂ h.resolves.allItems other hother
  have hshownHead : shown.pages.head?.map (·.id) = other.pages.head?.map (·.id) := by
    rw [← List.head?_map, ← List.head?_map,
      map_eq_of_forall₂ hresolved.pages fun _ _ => Page.Resolved.id_eq]
  have hshownId : shown.id = other.id := by
    cases hresolved
    rfl
  exact ⟨item, hitem, hid, hcount, honly, shown, hshown, hshownId.trans (hkey _ _ hexpands),
    hshownHead.trans hhead⟩

/-- A guard that passed its check is resolved to what it is linked to. -/
theorem Experiment.Compiled.linkedAs
    (h : e.Compiled session expanded ids index slots document) {g : Guard} {d : Document.Guard}
    {owner owner' : String} (hcheck : g.check owner' = .ok ())
    (hresolve : index.resolve owner g = .ok d) :
    g.LinkedAs e document (session.ids.Issued ids) d := by
  obtain ⟨hpage, hchoice, hregex, hpermutation, hknown⟩ := Index.resolve_eq_ok hresolve
  obtain ⟨_, hidentities, _⟩ := Index.ofTrees_eq_ok h.indexed
  rw [← h.resolves.identities_eq] at hidentities
  -- A guard that names an item names no page.
  have halone : ∀ handle, g.item = some handle → g.page = none := by
    intro handle hitem
    have hcount := (Guard.check_eq_ok_iff.mp hcheck).target
    unfold Guard.targetCount at hcount
    rw [hitem] at hcount
    cases hnamed : g.page with
    | none => rfl
    | some page =>
        cases hvalue : g.permutation.isSome <;> simp [hnamed, hvalue] at hcount
  constructor
  · exact hregex
  · exact hpermutation
  · exact hchoice
  · rwa [hidentities] at hknown
  · intro page hsome
    obtain ⟨hwatched, hmem⟩ := Index.watchedPage_of_page hsome hpage
    exact ⟨hwatched, hidentities ▸ hmem⟩
  · intro handle hsome
    obtain ⟨first, hwatched, hfirst, hcount⟩ :=
      Index.watchedPage_of_item (halone handle hsome) hsome hpage
    obtain ⟨item, hitem, hid, hshown⟩ := h.shownBy hfirst hcount
    exact ⟨item, hitem, hid, first, hshown, hwatched⟩
  · intro hnone hneither
    exact Index.watchedPage_of_neither hnone hneither hpage

/-- The guard of a node that may be missing is linked where there is one. -/
theorem Experiment.Compiled.linkedAs_option
    (h : e.Compiled session expanded ids index slots document) {g : Option Guard}
    {d : Option Document.Guard} {owner owner' : String}
    (hcheck : Guard.checkOption g owner' = .ok ())
    (hresolve : index.resolveOption owner g = .ok d) :
    Option.Rel (Guard.LinkedAs e document (session.ids.Issued ids)) g d := by
  cases g with
  | none =>
      cases hresolve
      exact .none
  | some g =>
      cases hfound : index.resolve owner g with
      | error failure =>
          rw [Index.resolveOption, hfound] at hresolve
          cases hresolve
      | ok found =>
          rw [Index.resolveOption, hfound] at hresolve
          cases hresolve
          exact .some (h.linkedAs hcheck hfound)

/-- The author's guards stay on their nodes. -/
theorem Experiment.Compiled.keeps_guard
    (h : e.Compiled session expanded ids index slots document) {node : Identity}
    {g : Option Guard} (hguard : e.HasGuard node g) :
    ∃ shown, document.HasGuard node shown ∧
      Option.Rel (Guard.LinkedAs e document (session.ids.Issued ids)) g shown := by
  cases hguard with
  | @block block mem untreated =>
      obtain ⟨family, hfamily, hchild⟩ := Experiment.mem_allBlocks_iff.mp mem
      obtain ⟨siblings, hsiblings, hplaced⟩ := exists_right_of_forall₂ h.families family hfamily
      obtain ⟨shown, hshown, hid, hcheck, hresolve⟩ := exists_right_of_forall₂ hplaced block hchild
      rw [finalIndex_eq_none_iff.mpr (untreated family hfamily), Block.treated] at hcheck hresolve
      rw [← hid]
      exact ⟨shown.guard, .block (Document.Experiment.mem_allBlocks hsiblings hshown),
        h.linkedAs_option hcheck hresolve⟩
  | @item item mem =>
      obtain ⟨other, hother, hexpands⟩ := exists_right_of_forall₂ h.expands.expandedAs item mem
      obtain ⟨shown, hshown, hresolved⟩ := exists_right_of_forall₂ h.resolves.allItems other hother
      have hid : other.id = item.id := by rw [hexpands.shape]
      have hg : other.guard = item.guard := by rw [hexpands.shape]
      cases hresolved with
      | mk checked contents conditions guards =>
          have hcheck := (Item.check_eq_ok_iff.mp checked).guard
          rw [hg] at hcheck guards
          rw [← hid]
          exact ⟨_, .item hshown, h.linkedAs_option hcheck guards⟩
  | @page page mem other =>
      obtain ⟨outer, houter, hpage⟩ := List.mem_flatMap.mp mem
      obtain ⟨block, hblock, houter⟩ := List.mem_flatMap.mp houter
      obtain ⟨expandedBlock, hexpanded, hheld⟩ :=
        exists_right_of_forall₂ h.expands.heldAs block hblock
      obtain ⟨kept, hkept, hid, hg⟩ := hheld.exists_within page
        (List.mem_flatMap_of_mem houter hpage) fun item hitem outer houter choice hchoice heq =>
          other ⟨item, Experiment.allItems_eq e ▸ List.mem_flatMap_of_mem hblock hitem, outer,
            houter, choice, hchoice, heq⟩
      obtain ⟨shownBlock, hshownBlock, hresolvedBlock⟩ :=
        exists_right_of_forall₂ h.resolves.allBlocks expandedBlock hexpanded
      obtain ⟨shown, hshown, hresolved⟩ := exists_right_of_forall₂
        (List.rel_flatMap hresolvedBlock.ownPages fun _ _ => Page.Resolved.within) kept hkept
      have hmem : shown ∈ document.everyPage := by
        rw [Document.Experiment.everyPage, List.flatMap_assoc]
        exact List.mem_flatMap_of_mem hshownBlock hshown
      cases hresolved with
      | mk checked texts options feedbacks files conditions guards =>
          have hcheck := (Page.check_eq_ok_iff.mp checked).guard
          rw [hg] at hcheck guards
          rw [← hid]
          exact ⟨_, .page hmem, h.linkedAs_option hcheck guards⟩

end Compiled

/-- A guard that goes astray is linked to nothing. -/
theorem Guard.LinkedAs.not_astray {e : Experiment} {session : Session}
    {document : Document.Experiment} {fresh : String → Prop} {g : Guard} {shown : Document.Guard}
    (h : g.LinkedAs e document fresh shown) (hdistinct : e.identities.Nodup)
    (hnodes : ∀ identity ∈ document.identities, e.HasNow session identity) :
    ¬ g.Astray e session := by
  intro hastray
  cases hastray with
  | @pages handle item target mem named other =>
      obtain ⟨found, hfound, hid, page, hshown, _⟩ := h.item handle target
      have heq : item = found := Experiment.item_unique hdistinct item mem found hfound
        (named.trans hid.symm)
      exact other (heq ▸ hshown.single)
  | @item handle target absent =>
      obtain ⟨found, hfound, hid, _⟩ := h.item handle target
      exact absent found hfound hid
  | @page page target absent => exact absent (hnodes _ (h.page page target).2)
  | @choice choice target absent => exact absent (hnodes _ (h.options choice target))

/-- In a tree that compiles, each guard of the author on an item, on a page that is not feedback on
an option of a page of an item, or on a block that no treatment names stays on its node. Its pattern
and its value of the permutation are unchanged, pages and options are named as they are, and an item
is named by the only page that the author gave it, which is still its first one whatever feedback
follows it. No two nodes share an identifier, so there is one such item. Where such a guard names an
item of another number of pages or one that is not in the tree, or a page or an option that is
neither in the tree nor made up for it, compilation fails, whatever number of pages the guard
remembers for the item. -/
theorem Experiment.compile_guards (e : Experiment) (session : Session) :
    (∀ document, (e.compile session).outcome = .ok document →
      e.identities.Nodup ∧ document.identities.Nodup ∧
      ∀ node g, e.HasGuard node g → ∃ shown, document.HasGuard node shown ∧
        Option.Rel
          (Guard.LinkedAs e document (session.ids.Issued (e.compile session).session.ids))
          g shown) ∧
    ∀ node g, e.HasGuard node (some g) → g.Astray e session →
      ∃ failure, (e.compile session).outcome = .error failure := by
  have hlinked : ∀ document, (e.compile session).outcome = .ok document →
      e.identities.Nodup ∧ document.identities.Nodup ∧
      (∀ identity ∈ document.identities, e.HasNow session identity) ∧
      ∀ node g, e.HasGuard node g → ∃ shown, document.HasGuard node shown ∧
        Option.Rel
          (Guard.LinkedAs e document (session.ids.Issued (e.compile session).session.ids))
          g shown := by
    intro document hdocument
    obtain ⟨expanded, p, index, slots, hexpand, hcompiled⟩ := e.compiled_of_ok hdocument
    have hidentities := hcompiled.resolves.identities_eq
    obtain ⟨hnodup, _, _⟩ := Index.ofTrees_eq_ok hcompiled.indexed
    refine ⟨hcompiled.expands.minted.nodup_before hnodup, hidentities ▸ hnodup, ?_, ?_⟩
    · intro identity hidentity
      exact .inr ⟨expanded, p, hexpand, hidentities ▸ hidentity⟩
    · intro node g hguard
      exact hcompiled.keeps_guard hguard
  constructor
  · intro document hdocument
    obtain ⟨hdistinct, hnodup, _, hguards⟩ := hlinked document hdocument
    exact ⟨hdistinct, hnodup, hguards⟩
  · intro node g hguard hastray
    cases houtcome : (e.compile session).outcome with
    | error failure => exact ⟨failure, rfl⟩
    | ok document =>
        obtain ⟨hdistinct, _, hnodes, hguards⟩ := hlinked document houtcome
        obtain ⟨shown, _, hrel⟩ := hguards node (some g) hguard
        cases hrel with
        | some hlinkedTo => exact absurd hastray (hlinkedTo.not_astray hdistinct hnodes)

/-! ### Guards of every kind -/

/-- A guard on an item, tested by an option. -/
def Guard.after (item : String) (pages : Nat) : Guard :=
  { item := some { id := item, pages := pages }, choice := some "yes" }

/-- The item that is watched: a question with feedback on the page and on its option. -/
def Item.asked : Item where
  id := "asked"
  contents := .page {
    id := "question"
    text := .single (.literal "Ready?")
    choices := [{ id := "yes", feedback := some (.text (.literal "Good")) }]
    feedback := some (.page {
      id := "thanks"
      text := .single (.literal "Thanks")
      guard := some { page := some "question", regex := some "y.s" } }) }

/-- An item that watches the question. -/
def Item.reply : Item where
  id := "reply"
  contents := .text (.literal "Go!")
  guard := some (.after "asked" 1)

/-- A greeting, a question and what follows it, and a block that watches the greeting. -/
def Experiment.watchful (asked : Item) : Experiment where
  blocks := [
    { id := "body"
      items := some [{ id := "greeting", contents := .text (.literal "Hello!") }, asked, .reply] },
    { id := "end"
      pages := some [{ id := "bye", text := .single (.literal "Bye") }]
      guard := some { item := some { id := "greeting", pages := 1 } } }]

/-- The question keeps its page in first place, and the greeting has the page made up for it. -/
def Document.Experiment.watchful : Document.Experiment where
  blocks := [
    { id := "body"
      items := some [
        { id := "greeting", pages := [{ id := "1", text := .single (.literal "Hello!") }] },
        { id := "asked"
          pages := [
            { id := "question"
              text := .single (.literal "Ready?")
              choices := [{ id := "yes" }] },
            { id := "thanks"
              text := .single (.literal "Thanks")
              guard := some { page := some "question", regex := some "y.s" } },
            { id := "2"
              text := .single (.literal "Good")
              guard := some { page := some "question", choice := some "yes" } }] },
        { id := "reply"
          pages := [{ id := "3", text := .single (.literal "Go!") }]
          guard := some { page := some "question", choice := some "yes" } }] },
    { id := "end"
      pages := some [{ id := "bye", text := .single (.literal "Bye") }]
      guard := some { page := some "1" } }]
  exchangeable := []
  counterbalance := []
  banks := .empty

/-- The item that is watched, given a second page after its handle was taken. -/
def Item.askedTwice : Item :=
  { Item.asked with
    contents := .pages
      (Item.asked.pages ++ [{ id := "again", text := .single (.literal "Sure?") }]) }

/-- The guards of the question's item and of the greeting's are linked to their pages; once the
question is asked twice, its guard goes astray and compilation fails. -/
theorem Experiment.compile_guards_watchful :
    ((Experiment.watchful .asked).compile {}).outcome = .ok Document.Experiment.watchful ∧
    (∃ shown, Document.Experiment.watchful.HasGuard (.item, "reply") shown ∧
      Option.Rel
        (Guard.LinkedAs (.watchful .asked) .watchful
          (IdSource.Issued {} ((Experiment.watchful .asked).compile {}).session.ids))
        (some (.after "asked" 1)) shown) ∧
    Guard.Astray (.watchful .askedTwice) {} (.after "asked" 1) ∧
    ∃ failure, ((Experiment.watchful .askedTwice).compile {}).outcome = .error failure := by
  have hcompiles :
      ((Experiment.watchful .asked).compile {}).outcome = .ok Document.Experiment.watchful := by
    cbv
  have hmem : ∀ asked : Item, asked ∈ (Experiment.watchful asked).allItems ∧
      Item.reply ∈ (Experiment.watchful asked).allItems := by
    intro asked
    simp [Experiment.watchful, Experiment.allItems, Block.allItemsList, Block.allItems]
  have hreply : ∀ asked : Item,
      (Experiment.watchful asked).HasGuard (.item, "reply") (some (.after "asked" 1)) :=
    fun asked => .item (hmem asked).2
  have hastray : Guard.Astray (.watchful .askedTwice) {} (.after "asked" 1) :=
    .pages rfl (hmem .askedTwice).1 rfl (by decide)
  obtain ⟨hgood, _⟩ := Experiment.compile_guards (.watchful .asked) {}
  obtain ⟨_, hbad⟩ := Experiment.compile_guards (.watchful .askedTwice) {}
  exact ⟨hcompiles, (hgood _ hcompiles).2.2 _ _ (hreply _), hastray, hbad _ _ (hreply _) hastray⟩

/-! ### A guard on a page to come -/

/-- A page that watches the page "1". -/
def Page.foreseeing : Page where
  id := "bye"
  text := .single (.literal "Bye")
  guard := some { page := some "1" }

/-- A greeting, and a page that watches a page the author never gave. -/
def Experiment.foreseeing : Experiment where
  blocks := [
    { id := "body"
      items := some [{ id := "greeting", contents := .text (.literal "Hello!") }] },
    { id := "end", pages := some [.foreseeing] }]

/-- The page made up for the greeting is the one that is watched. -/
def Document.Experiment.foreseeing : Document.Experiment where
  blocks := [
    { id := "body"
      items := some [
        { id := "greeting", pages := [{ id := "1", text := .single (.literal "Hello!") }] }] },
    { id := "end"
      pages := some [{
        id := "bye"
        text := .single (.literal "Bye")
        guard := some { page := some "1" } }] }]
  exchangeable := []
  counterbalance := []
  banks := .empty

/-- A guard on a page that the author never gave may compile, and stays on its node: in a new
session the page made up for the greeting gets the identifier that the guard names. -/
theorem Experiment.compile_foreseeing :
    Experiment.foreseeing.HasGuard (.page, "bye") (some { page := some "1" }) ∧
    (.page, "1") ∉ Experiment.foreseeing.identities ∧
    (Experiment.foreseeing.compile {}).outcome = .ok Document.Experiment.foreseeing := by
  have hmem : Page.foreseeing ∈ Experiment.foreseeing.everyPage := by
    have hblock :
        { id := "end", pages := some [.foreseeing] } ∈ Experiment.foreseeing.allBlocks := by
      simp [Experiment.foreseeing, Experiment.allBlocks, Block.withinList, Block.within]
    have hown : Page.foreseeing ∈ Experiment.foreseeing.allBlocks.flatMap Block.ownPages :=
      List.mem_flatMap_of_mem hblock (by simp [Block.ownPages])
    exact List.mem_flatMap_of_mem hown (by simp [Page.within_eq])
  have hother : ¬ Experiment.foreseeing.OptionFeedback Page.foreseeing := by
    rintro ⟨item, hitem, outer, houter, choice, hchoice, hpage⟩
    obtain rfl : item = { id := "greeting", contents := .text (.literal "Hello!") } := by
      simpa [Experiment.foreseeing, Experiment.allItems, Block.allItemsList, Block.allItems,
        Block.allItemsOption] using hitem
    cases houter
  exact ⟨.page hmem hother, by decide, by cbv⟩

end Paradigm
