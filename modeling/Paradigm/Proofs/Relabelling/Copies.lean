/-
Module: Paradigm.Proofs.Relabelling.Copies
Layer: Proofs
Purpose: A copy is the original under new identifiers. Where its nodes, in order, bear the new
  identifiers of the nodes of the original, a copy of a block is the relabelled block: its lists
  name the copies of the children that they named, and guards that watch nothing stay.
Imports: Paradigm.Proofs.Copies, Paradigm.Proofs.Relabelling, Paradigm.Proofs.Rules,
  Paradigm.Proofs.Tree.Nodes
Main exports: Block.guards, Block.SelfContained, Page.copy_eq_relabel, Item.copy_eq_relabel,
  Block.copy_eq_relabel
-/
import Paradigm.Proofs.Copies
import Paradigm.Proofs.Relabelling
import Paradigm.Proofs.Rules
import Paradigm.Proofs.Tree.Nodes

namespace Paradigm

/-! ### Guards and references of a block -/

/-- The guards on a block, on its items, and on its pages and those given as feedback in them. -/
def Block.ownGuards (b : Block) : List Guard :=
  b.guard.toList ++ b.ownItems.flatMap (·.guard.toList)
    ++ (b.ownPages.flatMap Page.within).flatMap (·.guard.toList)

/-- The guards on all nodes of a block. -/
def Block.guards (b : Block) : List Guard := b.within.flatMap Block.ownGuards

/-- Guards on pages that watch nothing. -/
def Unwatching (pages : List Page) : Prop :=
  ∀ page ∈ pages, ∀ g ∈ page.guard.toList, g.watches = false

/-- A block that refers to nothing outside of itself: its guards watch nothing, and its lists name
its children. -/
structure Block.SelfContained (b : Block) : Prop where
  guards : ∀ g ∈ b.ownGuards, g.watches = false
  references : b.checkReferences = .ok ()

variable {r : Relabelling}

theorem Guard.relabel_of_unwatching (hstray : ∀ name, r.stray name = name) {g : Guard}
    (h : g.watches = false) : g.relabel r = g := by
  obtain ⟨item, page, choice, regex, permutation⟩ := g
  simp only [Guard.watches, Bool.or_eq_false_iff, Option.isSome_eq_false_iff,
    Option.isNone_iff_eq_none] at h
  obtain ⟨rfl, rfl⟩ := h
  have hchoice : choice.map r.stray = choice := by
    cases choice with
    | none => rfl
    | some choice => rw [Option.map_some, hstray]
  show Guard.mk none none (choice.map r.stray) regex permutation = _
  rw [hchoice]

theorem Guard.relabel_option_of_unwatching (hstray : ∀ name, r.stray name = name) {g : Option Guard}
    (h : ∀ guard ∈ g.toList, guard.watches = false) : g.map (Guard.relabel r) = g := by
  cases g with
  | none => rfl
  | some guard =>
      rw [Option.map_some, Guard.relabel_of_unwatching hstray (h guard (by simp))]

/-! ### Nodes of a copy in order -/

/-- The nodes of a copy bear the new identifiers of the nodes of the original. -/
abbrev Bears (r : Relabelling) (given copy : List Identity) : Prop :=
  copy = given.map (Identity.relabel r)

theorem Copied.length_eq {ids ids' : IdSource} {given copy : List Identity}
    (h : Copied ids ids' given copy) : copy.length = given.length := by
  have hkinds := congrArg List.length h.kinds
  simpa using hkinds

/-- A copy of several nodes bears new identifiers part by part. -/
theorem Copied.bears_append {ids ids' : IdSource} {given copy others rest : List Identity}
    (h : Copied ids ids' given copy) (hall : Bears r (given ++ others) (copy ++ rest)) :
    Bears r given copy ∧ Bears r others rest := by
  rw [Bears, List.map_append] at hall
  apply List.append_inj hall
  rw [h.length_eq, List.length_map]

theorem bears_cons {kind : NodeKind} {id id' : String} {given copy : List Identity} :
    Bears r ((kind, id) :: given) ((kind, id') :: copy) ↔
      id' = r.name kind id ∧ Bears r given copy := by
  rw [Bears, List.map_cons, List.cons.injEq, Identity.relabel, Prod.mk.injEq]
  simp

/-! ### Pages -/

mutual

theorem Feedback.copy_eq_relabel (hstray : ∀ name, r.stray name = name) :
    ∀ (feedback : Feedback) (ids : IdSource),
    Unwatching feedback.within → Bears r feedback.identities (feedback.copy ids).1.identities →
      (feedback.copy ids).1 = feedback.relabel r
  | .text label, ids, _, _ => by
      rw [Feedback.copy, Feedback.relabel]
      rfl
  | .page shown, ids, hguards, hbears => by
      rw [Feedback.within] at hguards
      rw [Feedback.copy] at hbears ⊢
      rw [Feedback.relabel, ← Page.copy_eq_relabel hstray shown ids hguards hbears]
      rfl

theorem Feedback.copyOption_eq_relabel (hstray : ∀ name, r.stray name = name) :
    ∀ (feedback : Option Feedback) (ids : IdSource),
    Unwatching (Feedback.withinOption feedback) →
      Bears r (Feedback.identitiesOption feedback)
        (Feedback.identitiesOption (Feedback.copyOption feedback ids).1) →
      (Feedback.copyOption feedback ids).1 = Feedback.relabelOption r feedback
  | none, ids, _, _ => by
      rw [Feedback.copyOption, Feedback.relabelOption]
      rfl
  | some feedback, ids, hguards, hbears => by
      rw [Feedback.withinOption] at hguards
      rw [Feedback.copyOption] at hbears ⊢
      rw [Feedback.relabelOption, ← Feedback.copy_eq_relabel hstray feedback ids hguards hbears]
      rfl

theorem Choice.copyList_eq_relabel (hstray : ∀ name, r.stray name = name) :
    ∀ (choices : List Choice) (ids : IdSource),
    Unwatching (Choice.withinList choices) →
      Bears r (Choice.identitiesList choices)
        (Choice.identitiesList (Choice.copyList choices ids).1) →
      (Choice.copyList choices ids).1 = Choice.relabelList r choices
  | [], ids, _, _ => by
      rw [Choice.copyList, Choice.relabelList]
      rfl
  | ⟨id, text, correct, feedback, resources, tags⟩ :: rest, ids, hguards, hbears => by
      rw [Choice.withinList, Unwatching, List.forall_mem_append] at hguards
      rw [Choice.copyList_cons_run] at hbears ⊢
      simp only [Choice.identitiesList] at hbears
      obtain ⟨hfirst, hrest⟩ := (Choice.copies _ ids).bears_append hbears
      rw [Choice.copy_run] at hfirst hrest ⊢
      simp only [Choice.identities, bears_cons] at hfirst hrest ⊢
      rw [Choice.relabelList, Choice.relabel,
        ← Feedback.copyOption_eq_relabel hstray feedback _ hguards.1 hfirst.2,
        ← Choice.copyList_eq_relabel hstray rest _ hguards.2 hrest, ← hfirst.1]

/-- A copy of a page is the relabelled page. -/
theorem Page.copy_eq_relabel (hstray : ∀ name, r.stray name = name) :
    ∀ (page : Page) (ids : IdSource), Unwatching page.within →
    Bears r page.identities (page.copy ids).1.identities → (page.copy ids).1 = page.relabel r
  | ⟨id, text, choices, feedback, correct, resources, condition, tags, ordered, exclusive,
      freetext, keyboard, guard⟩, ids, hguards, hbears => by
      rw [Page.within, Unwatching, List.cons_append, List.forall_mem_cons, List.forall_mem_append]
        at hguards
      obtain ⟨hguard, hfeedback, hchoices⟩ := hguards
      rw [Page.copy_run] at hbears ⊢
      simp only [Page.identities, List.cons_append, bears_cons] at hbears ⊢
      obtain ⟨hid, hbears⟩ := hbears
      obtain ⟨hshown, hoptions⟩ := (Feedback.copies_option feedback _).bears_append hbears
      rw [Page.relabel, ← Feedback.copyOption_eq_relabel hstray feedback _ hfeedback hshown,
        ← Choice.copyList_eq_relabel hstray choices _ hchoices hoptions,
        Guard.relabel_option_of_unwatching hstray hguard, ← hid]

end

/-! ### Lists of nodes -/

section Lists

variable {α : Type} {step : α → Issuing α} {nodes : α → List Identity} {change : α → α}
  {fits : α → Prop}

/-- Steps that copy nodes to relabelled nodes do so for lists. -/
theorem Copies.mapM_eq_relabel (hcopies : Copies step nodes)
    (h : ∀ x ids, fits x → Bears r (nodes x) (nodes (step x ids).1) → (step x ids).1 = change x)
    (xs : List α) (ids : IdSource) (hfits : ∀ x ∈ xs, fits x)
    (hbears : Bears r (xs.flatMap nodes) ((xs.mapM step ids).1.flatMap nodes)) :
    (xs.mapM step ids).1 = xs.map change := by
  induction xs generalizing ids with
  | nil => rfl
  | cons x rest ih =>
      obtain ⟨hx, hrest⟩ := List.forall_mem_cons.mp hfits
      rw [Issuing.mapM_cons_run] at hbears ⊢
      simp only [List.flatMap_cons] at hbears
      obtain ⟨hfirst, hothers⟩ := (hcopies x ids).bears_append hbears
      rw [List.map_cons, ← h x ids hx hfirst, ← ih _ hrest hothers]

theorem Copies.contents_eq_relabel (hcopies : Copies step nodes)
    (h : ∀ x ids, fits x → Bears r (nodes x) (nodes (step x ids).1) → (step x ids).1 = change x)
    (xs : Option (List α)) (ids : IdSource) (hfits : ∀ x ∈ xs.getD [], fits x)
    (hbears : Bears r ((xs.getD []).flatMap nodes)
      (((copyOption (·.mapM step) xs ids).1.getD []).flatMap nodes)) :
    (copyOption (·.mapM step) xs ids).1 = xs.map (List.map change) := by
  cases xs with
  | none => rfl
  | some xs =>
      rw [Option.map_some, ← Copies.mapM_eq_relabel hcopies h xs ids hfits hbears]
      rfl

end Lists

/-! ### Items -/

/-- The guards on an item and on its pages watch nothing. -/
structure Item.Unwatching (item : Item) : Prop where
  guard : ∀ g ∈ item.guard.toList, g.watches = false
  pages : ∀ page ∈ item.pages, Paradigm.Unwatching page.within

/-- A copy of an item is the relabelled item. -/
theorem Item.copy_eq_relabel (hstray : ∀ name, r.stray name = name) (item : Item) (ids : IdSource)
    (hguards : item.Unwatching)
    (hbears : Bears r item.identities (item.copy ids).1.identities) :
    (item.copy ids).1 = item.relabel r := by
  obtain ⟨hguard, hpages⟩ := hguards
  rw [Item.copy_run] at hbears ⊢
  obtain ⟨hid, hbears⟩ := bears_cons.mp hbears
  have hid : ids.next.1 = r.name .item item.id := hid
  have hcontents : (item.contents.copy ids.next.2).1 = item.contents.relabel r := by
    unfold Item.pages at hpages hbears
    cases hgiven : item.contents with
    | text label => rfl
    | page single =>
        simp only [hgiven] at hpages hbears
        have hsingle : Bears r ([single].flatMap Page.identities)
            ([(single.copy ids.next.2).1].flatMap Page.identities) := hbears
        rw [List.flatMap_singleton, List.flatMap_singleton] at hsingle
        rw [ItemContents.relabel,
          ← Page.copy_eq_relabel hstray single ids.next.2 (by simpa using hpages) hsingle]
        rfl
    | pages several =>
        simp only [hgiven] at hpages hbears
        rw [ItemContents.relabel, ← Copies.mapM_eq_relabel Page.copies
          (Page.copy_eq_relabel hstray) several ids.next.2 hpages hbears]
        rfl
  rw [Item.relabel, hcontents, Guard.relabel_option_of_unwatching hstray hguard, hid]

/-! ### Blocks -/

/-- Looking up in a map that takes names by a function finds the value of the function. -/
theorem get?_ofList_map (f : String → String) {names : List String} {name : String}
    (h : name ∈ names) : (Assoc.ofList (names.map fun name => (name, f name))).get? name
      = some (f name) := by
  rw [Assoc.get?_ofList, ← List.map_reverse]
  have hmem := List.mem_reverse.mpr h
  generalize names.reverse = names at hmem
  induction names with
  | nil => exact absurd hmem List.not_mem_nil
  | cons first rest ih =>
      rw [List.map_cons, List.lookup_cons]
      by_cases hfirst : name = first
      · simp [hfirst]
      · rw [beq_eq_false_iff_ne.mpr hfirst]
        exact ih ((List.mem_cons.mp hmem).resolve_left hfirst)

/-- References to children become references to the copies of the children. -/
theorem renameAll_copyNames {children copies : List Block} {references : List String}
    (hcopies : copies = children.map (Block.relabel r))
    (hreferences : ∀ id ∈ references, id ∈ children.map (·.id)) :
    renameAll (copyNames children copies) references = references.map (r.name .block) := by
  have hnames : copyNames children copies
      = .ofList ((children.map (·.id)).map fun id => (id, r.name .block id)) := by
    have hids : copies.map (·.id) = (children.map (·.id)).map (r.name .block) := by
      rw [hcopies, List.map_map, List.map_map]
      apply List.map_congr_left
      intro child _
      simp only [Function.comp_apply, Block.relabel_eq]
    rw [copyNames, hids, List.zip_map_right, List.zip_eq_zipWith, List.zipWith_self, List.map_map]
    rfl
  rw [renameAll]
  apply List.map_congr_left
  intro id hid
  rw [hnames, get?_ofList_map _ (hreferences id hid), Option.getD_some]

/-- The lists of a block name the copies of its children. -/
theorem Block.lists_of_copies {block : Block} {copies : List Block}
    (h : block.checkReferences = .ok ())
    (hcopies : copies = (block.blocks.getD []).map (Block.relabel r)) :
    let rename := renameAll (copyNames (block.blocks.getD []) copies)
    rename block.exchangeable = block.exchangeable.map (r.name .block) ∧
      rename block.counterbalance = block.counterbalance.map (r.name .block) ∧
      block.treatments.map rename = block.treatments.map (List.map (r.name .block)) := by
  have hnamed := Block.forall_references_of_check h
  simp only [Block.references, Paradigm.references, List.forall_mem_append,
    List.forall_mem_map] at hnamed
  obtain ⟨⟨hexchangeable, hcounterbalance⟩, htreatments⟩ := hnamed
  refine ⟨renameAll_copyNames hcopies hexchangeable,
    renameAll_copyNames hcopies hcounterbalance, ?_⟩
  apply List.map_congr_left
  intro sublist hsublist
  apply renameAll_copyNames hcopies
  intro id hid
  exact htreatments id (List.mem_flatten.mpr ⟨sublist, hsublist, hid⟩)

/-- The guards of a block that watch nothing are those of its pages and of its items. -/
theorem Block.unwatching_of_ownGuards {block : Block}
    (h : ∀ g ∈ block.ownGuards, g.watches = false) :
    (∀ g ∈ block.guard.toList, g.watches = false) ∧
      (∀ page ∈ block.pages.getD [], Unwatching page.within) ∧
      ∀ item ∈ block.ownItems, item.Unwatching := by
  simp only [Block.ownGuards, Block.ownPages, List.forall_mem_append, List.flatMap_append,
    List.forall_mem_flatMap] at h
  obtain ⟨⟨hguard, hitems⟩, hpages, hitemPages⟩ := h
  refine ⟨hguard, ?_, ?_⟩
  · exact hpages
  · intro item hitem
    exact ⟨hitems item hitem, hitemPages item hitem⟩

mutual

/-- A copy of a block that refers to nothing outside is the relabelled block. -/
theorem Block.copy_eq_relabel (hstray : ∀ name, r.stray name = name) :
    ∀ (block : Block) (ids : IdSource),
    (∀ inner ∈ block.within, inner.SelfContained) →
      Bears r block.identities (block.copy ids).1.identities →
      (block.copy ids).1 = block.relabel r
  | ⟨id, pages, items, groups, blocks, exchangeable, counterbalance, treatments, latinSquare,
      pseudorandom, criterion, cutoff, guard, banks⟩, ids, hcontained, hbears => by
      rw [Block.within, List.forall_mem_cons] at hcontained
      obtain ⟨⟨hguards, hreferences⟩, hinner⟩ := hcontained
      obtain ⟨hguard, hpageGuards, hitemGuards⟩ := Block.unwatching_of_ownGuards hguards
      simp only [Block.ownItems, List.forall_mem_append] at hitemGuards
      rw [Block.copy_run] at hbears ⊢
      simp only [Block.identities, List.cons_append, List.append_assoc, flatMap_flatten_eq,
        bears_cons] at hbears ⊢
      obtain ⟨hid, hbears⟩ := hbears
      obtain ⟨hpages, hbears⟩ := (Copies.contents Page.copies pages _).bears_append hbears
      obtain ⟨hitems, hbears⟩ := (Copies.contents Item.copies items _).bears_append hbears
      obtain ⟨hgroups, hblocks⟩ :=
        (Copies.contents (Copies.mapM Item.copies) groups _).bears_append hbears
      have hchildren := Block.copyChildren_eq_relabel hstray blocks _ hinner hblocks
      have hcopies : (Block.copyChildren blocks ids.next.2).1.getD []
          = (blocks.getD []).map (Block.relabel r) := by
        rw [hchildren, Block.relabelOption_eq]
        cases blocks <;> rfl
      obtain ⟨hexchangeable, hcounterbalance, htreatments⟩ :=
        Block.lists_of_copies hreferences hcopies
      have hgroupGuards : ∀ group ∈ groups.getD [], ∀ item ∈ group, item.Unwatching := by
        intro group hgroup item hitem
        exact hitemGuards.2 item (List.mem_flatten.mpr ⟨group, hgroup, hitem⟩)
      rw [Block.relabel, ← hchildren, ← hid,
        Guard.relabel_option_of_unwatching hstray hguard, ← hexchangeable, ← hcounterbalance,
        ← htreatments,
        ← Copies.contents_eq_relabel Page.copies (Page.copy_eq_relabel hstray) pages _ hpageGuards
          hpages,
        ← Copies.contents_eq_relabel Item.copies (Item.copy_eq_relabel hstray) items _
          hitemGuards.1 hitems,
        ← Copies.contents_eq_relabel (Copies.mapM Item.copies)
          (Copies.mapM_eq_relabel Item.copies (Item.copy_eq_relabel hstray)) groups _ hgroupGuards
          hgroups]

theorem Block.copyChildren_eq_relabel (hstray : ∀ name, r.stray name = name) :
    ∀ (blocks : Option (List Block)) (ids : IdSource),
    (∀ inner ∈ Block.withinOption blocks, inner.SelfContained) →
      Bears r (Block.identitiesOption blocks)
        (Block.identitiesOption (Block.copyChildren blocks ids).1) →
      (Block.copyChildren blocks ids).1 = Block.relabelOption r blocks
  | none, ids, _, _ => by
      rw [Block.copyChildren, Block.relabelOption]
      rfl
  | some blocks, ids, hcontained, hbears => by
      rw [Block.withinOption] at hcontained
      rw [Block.copyChildren] at hbears ⊢
      rw [Block.relabelOption, ← Block.copyList_eq_relabel hstray blocks ids hcontained hbears]
      rfl

theorem Block.copyList_eq_relabel (hstray : ∀ name, r.stray name = name) :
    ∀ (blocks : List Block) (ids : IdSource),
    (∀ inner ∈ Block.withinList blocks, inner.SelfContained) →
      Bears r (Block.identitiesList blocks) (Block.identitiesList (Block.copyList blocks ids).1) →
      (Block.copyList blocks ids).1 = Block.relabelList r blocks
  | [], ids, _, _ => by
      rw [Block.copyList, Block.relabelList]
      rfl
  | block :: rest, ids, hcontained, hbears => by
      rw [Block.withinList, List.forall_mem_append] at hcontained
      rw [Block.copyList_cons_run] at hbears ⊢
      simp only [Block.identitiesList] at hbears
      obtain ⟨hfirst, hothers⟩ := (Block.copies block ids).bears_append hbears
      rw [Block.relabelList, ← Block.copy_eq_relabel hstray block ids hcontained.1 hfirst,
        ← Block.copyList_eq_relabel hstray rest _ hcontained.2 hothers]

end

end Paradigm
