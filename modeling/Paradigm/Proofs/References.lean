/-
Module: Paradigm.Proofs.References
Layer: Proofs
Purpose: A compiled document holds together. No two nodes of one kind share an identifier; a guard
  watches a page and an option of the document and is of one of the known forms; the blocks named
  for an order are children of the node that names them.
Imports: Paradigm.Proofs.Compilation, Paradigm.Proofs.Expansion.Items,
  Paradigm.Proofs.Resolution.Nodes, Mathlib.Data.List.Nodup
Main exports: Document.Experiment.Linked, Document.Guard.Shaped, Experiment.Compiled.pages_ne_nil,
  Experiment.Compiled.guard_watches, Experiment.compile_linked
-/
import Mathlib.Data.List.Nodup
import Paradigm.Proofs.Compilation
import Paradigm.Proofs.Expansion.Items
import Paradigm.Proofs.Resolution.Nodes

namespace Paradigm

/-! ### Guards -/

/-- A guard watches a page or a value of the permutation, but not both. A watched page may be tested
by an option or by a pattern, but not by both. -/
structure Document.Guard.Shaped (g : Document.Guard) : Prop where
  target : g.page.isSome ≠ g.permutation.isSome
  test : g.choice = none ∨ g.regex = none
  beside : g.choice.isSome ∨ g.regex.isSome → g.page.isSome

/-- What a guard watches is among some identities. -/
structure Document.Guard.WatchesAmong (identities : List Identity) (g : Document.Guard) : Prop where
  page : ∀ page, g.page = some page → (NodeKind.page, page) ∈ identities
  choice : ∀ choice, g.choice = some choice → (NodeKind.choice, choice) ∈ identities

theorem Index.checkWatched_eq_ok_iff {index : Index} {owner id : String} {kind : NodeKind}
    {u : Unit} : index.checkWatched owner kind id = .ok u ↔ (kind, id) ∈ index.identities := by
  rw [Index.checkWatched, require_eq_ok_iff, List.contains_iff_mem]

/-- The page that a guard watches is known, or it is the first page of the item that it names. -/
theorem Index.watchedPage_eq_ok {index : Index} {owner : String} {g : Guard}
    {watched : Option String} (h : index.watchedPage owner g = .ok watched) :
    (watched.isSome = (g.page.isSome || g.item.isSome)) ∧
      ∀ page, watched = some page → (NodeKind.page, page) ∈ index.identities ∨
        ∃ item, index.firstPages.lookup item = some page := by
  unfold Index.watchedPage at h
  cases hpage : g.page with
  | some page =>
      simp only [hpage, Outcome.bind_eq_ok_iff, Outcome.pure_eq_ok_iff,
        Index.checkWatched_eq_ok_iff] at h
      obtain ⟨_, hknown, rfl⟩ := h
      refine ⟨rfl, ?_⟩
      intro _ hsome
      cases hsome
      exact .inl hknown
  | none =>
      cases hitem : g.item with
      | none =>
          simp only [hpage, hitem, Except.ok.injEq] at h
          subst h
          exact ⟨rfl, by simp⟩
      | some item =>
          cases hfirst : index.firstPages.lookup item.id with
          | none => simp [hpage, hitem, hfirst, refuse] at h
          | some first =>
              simp only [hpage, hitem, hfirst, Outcome.bind_eq_ok_iff, Outcome.pure_eq_ok_iff] at h
              obtain ⟨_, _, rfl⟩ := h
              refine ⟨rfl, ?_⟩
              intro _ hsome
              cases hsome
              exact .inr ⟨item.id, hfirst⟩

/-- What a guard that resolves becomes. -/
theorem Index.resolve_eq_ok {index : Index} {owner : String} {g : Guard} {d : Document.Guard}
    (h : index.resolve owner g = .ok d) :
    index.watchedPage owner g = .ok d.page ∧ d.choice = g.choice ∧ d.regex = g.regex ∧
      d.permutation = g.permutation ∧
      ∀ choice, g.choice = some choice → (NodeKind.choice, choice) ∈ index.identities := by
  unfold Index.resolve at h
  rw [Outcome.bind_eq_ok_iff] at h
  obtain ⟨page, hpage, h⟩ := h
  cases hchoice : g.choice with
  | none =>
      simp only [hchoice, Outcome.pure_eq_ok_iff] at h
      subst h
      exact ⟨hpage, rfl, rfl, rfl, by simp⟩
  | some choice =>
      simp only [hchoice, Outcome.bind_eq_ok_iff, Outcome.pure_eq_ok_iff,
        Index.checkWatched_eq_ok_iff] at h
      obtain ⟨_, hknown, rfl⟩ := h
      refine ⟨hpage, rfl, rfl, rfl, ?_⟩
      intro _ hsome
      cases hsome
      exact hknown

/-- A guard that passes its check is resolved to one of a known form. -/
theorem Guard.shaped_of_check {index : Index} {owner owner' : String} {g : Guard}
    {d : Document.Guard} (hcheck : g.check owner' = .ok ())
    (h : index.resolve owner g = .ok d) : d.Shaped := by
  obtain ⟨hpage, hchoice, hregex, hpermutation, _⟩ := Index.resolve_eq_ok h
  obtain ⟨hwatched, _⟩ := Index.watchedPage_eq_ok hpage
  have hchecked := Guard.check_eq_ok_iff.mp hcheck
  have hcount := hchecked.target
  -- Of an item, a page and a value of the permutation, the guard names one.
  have htarget : d.page.isSome ≠ d.permutation.isSome := by
    rw [hwatched, hpermutation]
    unfold Guard.targetCount at hcount
    revert hcount
    cases g.item.isSome <;> cases g.page.isSome <;> cases g.permutation.isSome <;> decide
  constructor
  · exact htarget
  · rw [hchoice, hregex]
    exact hchecked.test
  · intro htested
    rw [hchoice, hregex] at htested
    have hnone : g.permutation.isSome = false := by
      cases hsome : g.permutation.isSome with
      | false => rfl
      | true => simp [hchecked.beside hsome] at htested
    rw [hpermutation, hnone] at htarget
    exact Bool.ne_false_iff.mp htarget

/-- A guard that resolves against an index watches nodes that are in it, where the first pages of
items are. -/
theorem Guard.watches_of_resolve {index : Index} {owner : String} {g : Guard} {d : Document.Guard}
    (hfirst : ∀ item page, index.firstPages.lookup item = some page →
      (NodeKind.page, page) ∈ index.identities)
    (h : index.resolve owner g = .ok d) : d.WatchesAmong index.identities := by
  obtain ⟨hpage, hchoice, _, _, hknown⟩ := Index.resolve_eq_ok h
  obtain ⟨_, hwatched⟩ := Index.watchedPage_eq_ok hpage
  constructor
  · intro page hsome
    rcases hwatched page hsome with hpage | ⟨item, hitem⟩
    · exact hpage
    · exact hfirst item page hitem
  · intro choice hsome
    exact hknown choice (hchoice ▸ hsome)

/-- A guard of a document that its node was given: it passed its check and was resolved. -/
def Index.Guards (index : Index) (d : Document.Guard) : Prop :=
  ∃ (g : Guard) (owner owner' : String),
    g.check owner' = .ok () ∧ index.resolve owner g = .ok d

theorem Index.guards_of_resolveOption {index : Index} {owner owner' : String} {g : Option Guard}
    {shown : Option Document.Guard} {d : Document.Guard}
    (hcheck : Guard.checkOption g owner' = .ok ())
    (h : index.resolveOption owner g = .ok shown) (hd : shown = some d) : index.Guards d := by
  subst hd
  cases g with
  | none => simp [Index.resolveOption] at h
  | some g =>
      unfold Index.resolveOption at h
      cases hresolve : index.resolve owner g with
      | error failure => simp [hresolve, Functor.map, Except.map] at h
      | ok found =>
          simp only [hresolve, Functor.map, Except.map, Except.ok.injEq, Option.some.injEq] at h
          subst h
          exact ⟨g, owner, owner', hcheck, hresolve⟩

theorem Page.Resolved.guards {index : Index} {page : Page} {shown : Document.Page}
    {d : Document.Guard} (h : page.Resolved index shown) (hd : shown.guard = some d) :
    index.Guards d := by
  cases h with
  | mk checked texts options feedbacks files conditions guards =>
      have hcheck := (Page.check_eq_ok_iff.mp checked).guard
      exact Index.guards_of_resolveOption hcheck guards hd

theorem Item.Resolved.guards {index : Index} {item : Item} {shown : Document.Item}
    {d : Document.Guard} (h : item.Resolved index shown) (hd : shown.guard = some d) :
    index.Guards d := by
  cases h with
  | mk checked contents conditions guards =>
      have hcheck := (Item.check_eq_ok_iff.mp checked).guard
      exact Index.guards_of_resolveOption hcheck guards hd

theorem Block.Resolved.guards {index : Index} {block : Block} {shown : Document.Block}
    {d : Document.Guard} (h : block.Resolved index shown) (hd : shown.guard = some d) :
    index.Guards d := by
  cases h with
  | mk checked ofPages ofItems ofGroups children guards shape served =>
      subst shape
      have hcheck := (Block.check_eq_ok_iff.mp checked).guard
      exact Index.guards_of_resolveOption hcheck guards hd

/-- The guards of a document are those of its nodes. -/
theorem Experiment.Resolved.guards {index : Index} {e : Experiment}
    {document : Document.Experiment} (h : e.Resolved index document) :
    ∀ d ∈ document.guards, index.Guards d := by
  intro d hd
  simp only [Document.Experiment.guards, List.mem_append, List.mem_filterMap] at hd
  rcases hd with (⟨block, hblock, hd⟩ | ⟨item, hitem, hd⟩) | ⟨page, hpage, hd⟩
  · obtain ⟨given, hgiven⟩ := h.mem_allBlocks block hblock
    exact hgiven.guards hd
  · obtain ⟨given, _, hgiven⟩ := exists_left_of_forall₂ h.allItems item hitem
    exact hgiven.guards hd
  · obtain ⟨given, hgiven⟩ := h.mem_everyPage page hpage
    exact hgiven.guards hd

/-! ### Items of the tree -/

mutual

theorem Block.identities_of_mem_allItems : ∀ (block : Block), ∀ item ∈ block.allItems,
    item.identities ⊆ block.identities
  | ⟨_, _, items, groups, blocks, _, _, _, _, _, _, _, _, _⟩, item, hitem => by
      intro identity hidentity
      simp only [Block.allItems, List.mem_append] at hitem
      simp only [Block.identities, List.cons_append, List.mem_cons, List.mem_append]
      rcases hitem with (hitem | hitem) | hitem
      · exact .inr (.inl (.inl (.inr (List.mem_flatMap_of_mem hitem hidentity))))
      · exact .inr (.inl (.inr (List.mem_flatMap_of_mem hitem hidentity)))
      · exact .inr (.inr (Block.identities_of_mem_allItemsOption blocks item hitem hidentity))

theorem Block.identities_of_mem_allItemsOption : ∀ (blocks : Option (List Block)),
    ∀ item ∈ Block.allItemsOption blocks, item.identities ⊆ Block.identitiesOption blocks
  | none, item, hitem => by simp [Block.allItemsOption] at hitem
  | some blocks, item, hitem => by
      rw [Block.allItemsOption] at hitem
      rw [Block.identitiesOption]
      exact Block.identities_of_mem_allItemsList blocks item hitem

theorem Block.identities_of_mem_allItemsList : ∀ (blocks : List Block),
    ∀ item ∈ Block.allItemsList blocks, item.identities ⊆ Block.identitiesList blocks
  | [], item, hitem => by simp [Block.allItemsList] at hitem
  | block :: rest, item, hitem => by
      intro identity hidentity
      rw [Block.allItemsList, List.mem_append] at hitem
      rw [Block.identitiesList, List.mem_append]
      rcases hitem with hitem | hitem
      · exact .inl (Block.identities_of_mem_allItems block item hitem hidentity)
      · exact .inr (Block.identities_of_mem_allItemsList rest item hitem hidentity)

end

section Compiled

variable {e expanded : Experiment} {session : Session} {ids : IdSource} {index : Index}
  {slots : SlotAllocator} {document : Document.Experiment}

/-- Every item of the expanded tree has a page. -/
theorem Experiment.Compiled.pages_ne_nil
    (h : e.Compiled session expanded ids index slots document) :
    ∀ item ∈ expanded.allItems, item.pages ≠ [] := by
  intro item hitem hnil
  obtain ⟨shown, _, hshown⟩ := exists_right_of_forall₂ h.resolves.allItems item hitem
  have hcount : item.pageCount = item.pages.length := h.expands.holdsPages item hitem
  cases hshown with
  | mk checked contents conditions guards =>
      apply (Item.check_eq_ok_iff.mp checked).pages
      rw [hcount, hnil, List.length_nil]

/-- What the index of a compilation holds. -/
theorem Index.ofTrees_eq_ok {given : Experiment} (h : Index.ofTrees expanded given = .ok index) :
    expanded.identities.Nodup ∧ index.identities = expanded.identities ∧
      index.firstPages = expanded.allItems.map fun item =>
        (item.id, (item.pages.head?.map (·.id)).getD "") := by
  unfold Index.ofTrees at h
  cases hrepeated : firstRepeated [] expanded.identities with
  | some identity => simp [hrepeated, refuse] at h
  | none =>
      simp only [hrepeated, Except.ok.injEq] at h
      subst h
      exact ⟨((firstRepeated_eq_none_iff _ _).mp hrepeated).1, rfl, rfl⟩

/-- The first page of an item is a page of the expanded tree. -/
theorem Experiment.Compiled.firstPages
    (h : e.Compiled session expanded ids index slots document) {item page : String}
    (hlookup : index.firstPages.lookup item = some page) :
    (NodeKind.page, page) ∈ index.identities := by
  obtain ⟨_, hidentities, hfirstPages⟩ := Index.ofTrees_eq_ok h.indexed
  rw [hfirstPages, List.lookup_eq_some_iff] at hlookup
  obtain ⟨before, after, hentries, _⟩ := hlookup
  have hmem : (item, page) ∈ expanded.allItems.map fun item =>
      (item.id, (item.pages.head?.map (·.id)).getD "") := by
    rw [hentries]
    simp
  obtain ⟨found, hfound, heq⟩ := List.mem_map.mp hmem
  have hnonempty := h.pages_ne_nil found hfound
  obtain ⟨first, rest, hpages⟩ := List.exists_cons_of_ne_nil hnonempty
  rw [hpages] at heq
  have hpage : first.id = page := (Prod.mk.inj heq).2
  have hfirst : (NodeKind.page, first.id) ∈ found.identities := by
    unfold Item.identities
    rw [hpages, List.flatMap_cons]
    exact List.mem_cons_of_mem _ (List.mem_append_left _ first.mem_identities_self)
  rw [hidentities, ← hpage]
  exact Block.identities_of_mem_allItemsList _ found hfound hfirst

/-- Guards of a compiled document watch its nodes. -/
theorem Experiment.Compiled.guard_watches
    (h : e.Compiled session expanded ids index slots document) :
    ∀ g ∈ document.guards, g.WatchesAmong document.identities := by
  intro g hg
  obtain ⟨given, owner, owner', _, hresolve⟩ := h.resolves.guards g hg
  obtain ⟨_, hidentities, _⟩ := Index.ofTrees_eq_ok h.indexed
  have hwatches := Guard.watches_of_resolve (fun _ _ => h.firstPages) hresolve
  rw [hidentities, ← h.resolves.identities_eq] at hwatches
  exact hwatches

/-- Guards of a compiled document are of the known forms. -/
theorem Experiment.Compiled.guard_shaped
    (h : e.Compiled session expanded ids index slots document) :
    ∀ g ∈ document.guards, g.Shaped := by
  intro g hg
  obtain ⟨given, owner, owner', hcheck, hresolve⟩ := h.resolves.guards g hg
  exact Guard.shaped_of_check hcheck hresolve

/-! ### References to children -/

theorem Block.Resolved.mem_children {block : Block} {shown : Document.Block}
    (h : block.Resolved index shown) : ∀ id ∈ shown.exchangeable ++ shown.counterbalance,
      id ∈ (shown.blocks.getD []).map (·.id) := by
  cases h with
  | mk checked ofPages ofItems ofGroups children guards shape served =>
      subst shape
      rw [children.map_id]
      exact Block.mem_children_of_checkReferences (Block.check_eq_ok_iff.mp checked).references

/-- The root names no blocks for an order but those at the top. -/
theorem Experiment.Compiled.mem_top
    (h : e.Compiled session expanded ids index slots document) :
    ∀ id ∈ document.exchangeable ++ document.counterbalance,
      id ∈ document.blocks.map (·.id) := by
  have hchecked := Experiment.check_eq_ok_iff.mp h.expands.checked
  rw [h.resolves.exchangeable, h.resolves.counterbalance, h.resolves.blocks.map_id,
    h.expands.exchangeable, h.expands.counterbalance, h.expands.blocks.map_id]
  exact mem_children_of_checkReferences hchecked.references

end Compiled

/-! ### Compiled documents -/

/-- Whether a document holds together. -/
structure Document.Experiment.Linked (document : Document.Experiment) : Prop where
  /-- No two nodes of one kind share an identifier. -/
  distinct : ∀ kind, (document.ids kind).Nodup
  /-- Watched pages and options are in the document. -/
  pages : ∀ g ∈ document.guards, ∀ page, g.page = some page → page ∈ document.ids .page
  choices : ∀ g ∈ document.guards, ∀ choice, g.choice = some choice → choice ∈ document.ids .choice
  shapes : ∀ g ∈ document.guards, g.Shaped
  /-- Blocks named for an order are children. -/
  children : ∀ block ∈ document.allBlocks, ∀ id ∈ block.exchangeable ++ block.counterbalance,
    id ∈ (block.blocks.getD []).map (·.id)
  top : ∀ id ∈ document.exchangeable ++ document.counterbalance, id ∈ document.blocks.map (·.id)

theorem Document.Experiment.mem_ids_iff {document : Document.Experiment} {kind : NodeKind}
    {id : String} : id ∈ document.ids kind ↔ (kind, id) ∈ document.identities := by
  unfold ids
  simp only [List.mem_filterMap, Option.ite_none_right_eq_some, Option.some.injEq]
  constructor
  · intro hfound
    rcases hfound with ⟨_, hidentity, rfl, rfl⟩
    exact hidentity
  · intro hidentity
    exact ⟨_, hidentity, rfl, rfl⟩

theorem Document.Experiment.nodup_ids {document : Document.Experiment}
    (h : document.identities.Nodup) (kind : NodeKind) : (document.ids kind).Nodup := by
  apply List.Nodup.filterMap _ h
  intro x y id hx hy
  simp only [Option.mem_def, Option.ite_none_right_eq_some, Option.some.injEq] at hx hy
  exact Prod.ext (hx.1.trans hy.1.symm) (hx.2.trans hy.2.symm)

/-- A compiled document holds together. -/
theorem Experiment.compile_linked {e : Experiment} {session : Session}
    {document : Document.Experiment} (h : (e.compile session).outcome = .ok document) :
    document.Linked := by
  obtain ⟨expanded, ids, index, slots, hcompiled⟩ := e.compile_ok h
  obtain ⟨hnodup, _, _⟩ := Index.ofTrees_eq_ok hcompiled.indexed
  rw [← hcompiled.resolves.identities_eq] at hnodup
  constructor
  · exact Document.Experiment.nodup_ids hnodup
  · intro g hg page hpage
    exact Document.Experiment.mem_ids_iff.mpr ((hcompiled.guard_watches g hg).page page hpage)
  · intro g hg choice hchoice
    exact Document.Experiment.mem_ids_iff.mpr ((hcompiled.guard_watches g hg).choice choice hchoice)
  · exact hcompiled.guard_shaped
  · intro block hblock
    obtain ⟨given, hgiven⟩ := hcompiled.resolves.mem_allBlocks block hblock
    exact hgiven.mem_children
  · exact hcompiled.mem_top

/-- The worked example holds together: its guard watches the page of the other block. -/
theorem Experiment.compile_linked_worked : Document.Experiment.worked.Linked :=
  Experiment.compile_linked Experiment.compile_worked

end Paradigm
