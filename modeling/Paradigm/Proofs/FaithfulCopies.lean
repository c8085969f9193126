/-
Module: Paradigm.Proofs.FaithfulCopies
Layer: Proofs
Purpose: Copies are fresh and faithful. The nodes of a copy bear the next identifiers of the
  session, each once, and nothing else of the session changes. Without its identifiers a copy is its
  original, with the guards as they were. The lists of a copied block name the copies of the
  children that they named, so a block in order has a copy in order.
Imports: Paradigm.Proofs.Copies, Paradigm.Proofs.Policies, Paradigm.Proofs.Relabelling.Rules
Main exports: Page.nameless, Item.nameless, Block.nameless, Renames, Block.CopiedAs,
  CopiesFaithfully, Block.check_copy, copies_faithfully
-/
import Paradigm.Proofs.Copies
import Paradigm.Proofs.Policies
import Paradigm.Proofs.Relabelling.Rules

namespace Paradigm

/-! ### Nodes without their identifiers -/

mutual

/-- Feedback without the identifiers in it. -/
def Feedback.nameless : Feedback → Feedback
  | .text label => .text label
  | .page shown => .page shown.nameless

/-- Feedback, where there is any, without the identifiers in it. -/
def Feedback.namelessOption : Option Feedback → Option Feedback
  | none => none
  | some feedback => some feedback.nameless

/-- An answer option without its identifier and those in its feedback. -/
def Choice.nameless : Choice → Choice
  | choice@{ feedback, .. } =>
    { choice with id := "", feedback := Feedback.namelessOption feedback }

/-- Answer options without the identifiers in them. -/
def Choice.namelessList : List Choice → List Choice
  | [] => []
  | choice :: rest => choice.nameless :: Choice.namelessList rest

/-- A page without its identifier and those in its options and its feedback. What guards name
stays. -/
def Page.nameless : Page → Page
  | page@{ choices, feedback, .. } =>
    { page with
      id := ""
      choices := Choice.namelessList choices
      feedback := Feedback.namelessOption feedback }

end

/-- What an item is given, without the identifiers in it. -/
def ItemContents.nameless : ItemContents → ItemContents
  | .text label => .text label
  | .page single => .page single.nameless
  | .pages several => .pages (several.map Page.nameless)

/-- An item without its identifier and those of its pages. -/
def Item.nameless (item : Item) : Item :=
  { item with id := "", contents := item.contents.nameless }

/-- A list that names blocks, without the names. -/
def unnamed (references : List String) : List String := references.map fun _ => ""

mutual

/-- A block without its identifier, those in its contents, and the names in its lists. -/
def Block.nameless : Block → Block
  | block@{ blocks, .. } =>
    { block with
      id := ""
      pages := block.pages.map (List.map Page.nameless)
      items := block.items.map (List.map Item.nameless)
      groups := block.groups.map (List.map (List.map Item.nameless))
      blocks := Block.namelessOption blocks
      exchangeable := unnamed block.exchangeable
      counterbalance := unnamed block.counterbalance
      treatments := block.treatments.map unnamed }

/-- Child blocks, where there are any, without the identifiers in them. -/
def Block.namelessOption : Option (List Block) → Option (List Block)
  | none => none
  | some blocks => some (Block.namelessList blocks)

/-- Blocks without the identifiers in them. -/
def Block.namelessList : List Block → List Block
  | [] => []
  | block :: rest => block.nameless :: Block.namelessList rest

end

/-! ### Copies without their identifiers -/

mutual

theorem Feedback.nameless_copy : ∀ (feedback : Feedback) (ids : IdSource),
    (feedback.copy ids).1.nameless = feedback.nameless
  | .text label, ids => by
      rw [Feedback.copy]
      rfl
  | .page shown, ids => by
      rw [Feedback.copy, Feedback.nameless, ← Page.nameless_copy shown ids]
      rfl

theorem Feedback.nameless_copyOption : ∀ (feedback : Option Feedback) (ids : IdSource),
    Feedback.namelessOption (Feedback.copyOption feedback ids).1 = Feedback.namelessOption feedback
  | none, ids => by
      rw [Feedback.copyOption]
      rfl
  | some feedback, ids => by
      rw [Feedback.copyOption, Feedback.namelessOption, ← Feedback.nameless_copy feedback ids]
      rfl

theorem Choice.nameless_copy : ∀ (choice : Choice) (ids : IdSource),
    (choice.copy ids).1.nameless = choice.nameless
  | ⟨_, _, _, feedback, _, _⟩, ids => by
      rw [Choice.copy_run]
      simp only [Choice.nameless]
      rw [Feedback.nameless_copyOption feedback ids.next.2]

theorem Choice.nameless_copyList : ∀ (choices : List Choice) (ids : IdSource),
    Choice.namelessList (Choice.copyList choices ids).1 = Choice.namelessList choices
  | [], ids => by
      rw [Choice.copyList]
      rfl
  | choice :: rest, ids => by
      rw [Choice.copyList_cons_run]
      simp only [Choice.namelessList]
      rw [Choice.nameless_copy choice ids, Choice.nameless_copyList rest]

theorem Page.nameless_copy : ∀ (page : Page) (ids : IdSource),
    (page.copy ids).1.nameless = page.nameless
  | ⟨_, _, choices, feedback, _, _, _, _, _, _, _, _, _⟩, ids => by
      rw [Page.copy_run]
      simp only [Page.nameless]
      rw [Choice.nameless_copyList choices ids.next.2, Feedback.nameless_copyOption feedback]

end

theorem ItemContents.nameless_copy (contents : ItemContents) (ids : IdSource) :
    (contents.copy ids).1.nameless = contents.nameless := by
  cases contents with
  | text label => rfl
  | page single => exact congrArg ItemContents.page (Page.nameless_copy single ids)
  | pages several =>
      exact congrArg ItemContents.pages
        (Issuing.map_mapM Page.nameless Page.nameless_copy several ids)

theorem Item.nameless_copy (item : Item) (ids : IdSource) :
    (item.copy ids).1.nameless = item.nameless := by
  rw [Item.copy_run, Item.nameless, Item.nameless, ItemContents.nameless_copy]

theorem unnamed_renameAll (names : Assoc String) (references : List String) :
    unnamed (renameAll names references) = unnamed references := by
  rw [unnamed, unnamed, renameAll, List.map_map]
  rfl

theorem copyOption_eq_expandOption {α : Type} (step : α → Issuing α) (x : Option α) :
    copyOption step x = expandOption step x := by
  cases x <;> rfl

/-- What is read of single copies as of their originals is read of copied contents. -/
theorem map_copyOption {α β : Type} {step : α → Issuing α} (read : α → β) {before : α → β}
    (h : ∀ x ids, read (step x ids).1 = before x) (x : Option α) (ids : IdSource) :
    (copyOption step x ids).1.map read = x.map before := by
  rw [copyOption_eq_expandOption]
  exact map_expandOption read h x ids

mutual

theorem Block.nameless_copy : ∀ (block : Block) (ids : IdSource),
    (block.copy ids).1.nameless = block.nameless
  | ⟨_, pages, items, groups, blocks, exchangeable, counterbalance, treatments, _, _, _, _, _, _⟩,
      ids => by
      have hpages := map_copyOption _ (Issuing.map_mapM _ Page.nameless_copy) pages
      have hitems := map_copyOption _ (Issuing.map_mapM _ Item.nameless_copy) items
      have hgroups := map_copyOption _
        (Issuing.map_mapM _ (Issuing.map_mapM _ Item.nameless_copy)) groups
      have htreatments : ∀ names, (treatments.map (renameAll names)).map unnamed
          = treatments.map unnamed := by
        intro names
        rw [List.map_map]
        exact List.map_congr_left fun sublist _ => unnamed_renameAll names sublist
      rw [Block.copy_run]
      simp only [Block.nameless]
      rw [Block.nameless_copyChildren blocks ids.next.2, hpages, hitems, hgroups, htreatments,
        unnamed_renameAll, unnamed_renameAll]

theorem Block.nameless_copyChildren : ∀ (blocks : Option (List Block)) (ids : IdSource),
    Block.namelessOption (Block.copyChildren blocks ids).1 = Block.namelessOption blocks
  | none, ids => by
      rw [Block.copyChildren]
      rfl
  | some blocks, ids => by
      rw [Block.copyChildren, Block.namelessOption, ← Block.nameless_copyList blocks ids]
      rfl

theorem Block.nameless_copyList : ∀ (blocks : List Block) (ids : IdSource),
    Block.namelessList (Block.copyList blocks ids).1 = Block.namelessList blocks
  | [], ids => by
      rw [Block.copyList]
      rfl
  | block :: rest, ids => by
      rw [Block.copyList_cons_run]
      simp only [Block.namelessList]
      rw [Block.nameless_copy block ids, Block.nameless_copyList rest]

end

/-! ### Names of children -/

/-- What names become in the lists of a copied block. -/
structure Renames (children copies : List Block) (rename : String → String) : Prop where
  /-- A child is called as its copy. Of children with one name the last counts. -/
  child : ∀ k child copy, children[k]? = some child → copies[k]? = some copy →
    (∀ later ∈ children.drop (k + 1), later.id ≠ child.id) → rename child.id = copy.id
  other : ∀ id, id ∉ children.map (·.id) → rename id = id

/-- What a name becomes in the lists of a block with these children, copied to these blocks. -/
def renamed (children copies : List Block) (id : String) : String :=
  ((copyNames children copies).get? id).getD id

/-- The names of children with those of their copies. -/
theorem copyNames_get? (children copies : List Block) (id : String) :
    (copyNames children copies).get? id
      = ((children.zip copies).map fun pair => (pair.1.id, pair.2.id)).reverse.lookup id := by
  rw [copyNames, Assoc.get?_ofList, List.zip_map]
  rfl

/-- A child that no later child shares its name with is called as its copy. -/
theorem renamed_child {children copies : List Block} {k : Nat} {child copy : Block}
    (hchild : children[k]? = some child) (hcopy : copies[k]? = some copy)
    (hlast : ∀ later ∈ children.drop (k + 1), later.id ≠ child.id) :
    renamed children copies child.id = copy.id := by
  have hget : (copyNames children copies).get? child.id = some copy.id := by
    rw [copyNames_get?, lookup_reverse_eq_some_iff]
    have hpair : (children.zip copies)[k]? = some (child, copy) := by
      rw [List.getElem?_zip_eq_some]
      exact ⟨hchild, hcopy⟩
    obtain ⟨hk, hget⟩ := List.getElem?_eq_some_iff.mp hpair
    have hsplit := List.take_append_drop k (children.zip copies)
    rw [List.drop_eq_getElem_cons hk, hget] at hsplit
    refine ⟨((children.zip copies).take k).map fun pair => (pair.1.id, pair.2.id),
      ((children.zip copies).drop (k + 1)).map fun pair => (pair.1.id, pair.2.id), ?_, ?_⟩
    · conv => lhs; rw [← hsplit]
      rw [List.map_append, List.map_cons]
    · rw [List.forall_mem_map, List.zip_eq_zipWith, List.drop_zipWith, ← List.zip_eq_zipWith]
      intro pair hpair
      exact hlast pair.1 (List.of_mem_zip hpair).1
  rw [renamed, hget, Option.getD_some]

/-- A name that no child bears stays. -/
theorem renamed_other {children copies : List Block} {id : String}
    (h : id ∉ children.map (·.id)) : renamed children copies id = id := by
  have hget : (copyNames children copies).get? id = none := by
    rw [copyNames_get?, List.lookup_eq_none_iff]
    intro entry hentry
    obtain ⟨pair, hpair, rfl⟩ := List.mem_map.mp (List.mem_reverse.mp hentry)
    rw [bne_iff_ne]
    rintro rfl
    exact h (List.mem_map_of_mem (List.of_mem_zip hpair).1)
  rw [renamed, hget, Option.getD_none]

theorem renames_renamed (children copies : List Block) :
    Renames children copies (renamed children copies) where
  child := fun _ _ _ => renamed_child
  other := fun _ => renamed_other

/-- The name of a child becomes the name of a copy. -/
theorem renamed_mem {children copies : List Block} (hlength : copies.length = children.length)
    {id : String} (h : id ∈ children.map (·.id)) :
    renamed children copies id ∈ copies.map (·.id) := by
  cases hget : (copyNames children copies).get? id with
  | some name =>
      rw [renamed, hget, Option.getD_some]
      rw [copyNames_get?, lookup_reverse_eq_some_iff] at hget
      obtain ⟨before, after, hpairs, _⟩ := hget
      have hmem : (id, name) ∈ (children.zip copies).map fun pair => (pair.1.id, pair.2.id) := by
        rw [hpairs]
        simp
      obtain ⟨pair, hpair, heq⟩ := List.mem_map.mp hmem
      obtain ⟨_, rfl⟩ := Prod.mk.inj heq
      exact List.mem_map_of_mem (List.of_mem_zip hpair).2
  | none =>
      -- Every child has a copy, so its name is in the map.
      obtain ⟨child, hchild, rfl⟩ := List.mem_map.mp h
      obtain ⟨k, hk, rfl⟩ := List.getElem_of_mem hchild
      have hpair : (children[k], copies[k]) ∈ children.zip copies := by
        rw [← List.getElem_zip (h := by simpa [hlength] using hk)]
        exact List.getElem_mem _
      rw [copyNames_get?, List.lookup_eq_none_iff] at hget
      have hne := hget _ (List.mem_reverse.mpr (List.mem_map_of_mem hpair))
      simp at hne

/-! ### Blocks that differ in their lists -/

/-- Whether members can be ordered does not depend on the lists of children. -/
theorem BlockForm.Orderable.of_lists {form : BlockForm} (h : form.Orderable)
    (exchangeable counterbalance : List String) :
    BlockForm.Orderable
      { form with exchangeable := exchangeable, counterbalance := counterbalance } := by
  cases h with
  | pages contents literal => exact .pages contents literal
  | items contents literal => exact .items contents literal
  | groups contents square literal balanced => exact .groups contents square literal balanced

/-- Policies fit contents whatever the children in the lists are called. -/
theorem BlockForm.Fits.map_lists {form : BlockForm} (h : form.Fits) (f : String → String) :
    BlockForm.Fits { form with
      exchangeable := form.exchangeable.map f, counterbalance := form.counterbalance.map f } where
  contents := h.contents
  exchangeable := fun hlist => h.exchangeable (mt List.map_eq_nil_iff.mpr hlist)
  counterbalance := fun hlist => h.counterbalance (mt List.map_eq_nil_iff.mpr hlist)
  square := h.square
  order := fun hon => (h.order hon).of_lists _ _
  criterion := h.criterion
  cutoff := h.cutoff
  banks := h.banks

/-- Where a block passes its check, so does one that has the same policies and names its children in
the same places of its lists, provided that its guard is in order. -/
theorem Block.check_of_lists {block other : Block} {f : String → String}
    (hform : other.form = { block.form with
      exchangeable := block.exchangeable.map f, counterbalance := block.counterbalance.map f })
    (htreatments : other.treatments = block.treatments.map (List.map f))
    (hchildren : ∀ id ∈ (block.blocks.getD []).map (·.id),
      f id ∈ (other.blocks.getD []).map (·.id))
    (hguard : Guard.checkOption other.guard other.id = .ok ()) (h : block.check = .ok ()) :
    other.check = .ok () := by
  obtain ⟨hfits, hreferences, _⟩ := Block.check_eq_ok_iff_fits.mp h
  rw [Block.checkReferences_eq_ok_iff] at hreferences
  obtain ⟨hblocks, hnamed⟩ := hreferences
  have hexchangeable : other.exchangeable = block.exchangeable.map f :=
    congrArg BlockForm.exchangeable hform
  have hcounterbalance : other.counterbalance = block.counterbalance.map f :=
    congrArg BlockForm.counterbalance hform
  have hholds : other.blocks.isSome = block.blocks.isSome := congrArg BlockForm.holdsBlocks hform
  refine Block.check_eq_ok_iff_fits.mpr ⟨?_, ?_, hguard⟩
  · rw [hform]
    exact hfits.map_lists f
  · rw [Block.checkReferences_eq_ok_iff, hholds]
    constructor
    · intro hlists
      apply hblocks
      simpa only [Block.hasReferences, hexchangeable, hcounterbalance, htreatments,
        List.isEmpty_map] using hlists
    · rw [Block.references, hexchangeable, hcounterbalance, htreatments, references_map,
        List.forall_mem_map]
      intro ref href
      exact hchildren ref.2 (hnamed ref href)

/-! ### Copied blocks -/

theorem Block.length_copyList (blocks : List Block) (ids : IdSource) :
    (Block.copyList blocks ids).1.length = blocks.length := by
  induction blocks generalizing ids with
  | nil =>
      rw [Block.copyList]
      rfl
  | cons block rest ih =>
      rw [Block.copyList_cons_run]
      simp only [List.length_cons, ih]

theorem Block.length_copyChildren (blocks : Option (List Block)) (ids : IdSource) :
    ((Block.copyChildren blocks ids).1.getD []).length = (blocks.getD []).length := by
  cases blocks with
  | none =>
      rw [Block.copyChildren]
      rfl
  | some blocks =>
      rw [Block.copyChildren]
      exact Block.length_copyList blocks ids

theorem Block.isSome_copyChildren (blocks : Option (List Block)) (ids : IdSource) :
    (Block.copyChildren blocks ids).1.isSome = blocks.isSome := by
  cases blocks <;> rw [Block.copyChildren] <;> rfl

theorem Page.condition_copy (page : Page) (ids : IdSource) :
    (page.copy ids).1.condition = page.condition := by
  rw [Page.copy_run]

/-- The condition that counts for an item is that of its copy. -/
theorem Item.effectiveCondition_copy (item : Item) (ids : IdSource) :
    (item.copy ids).1.effectiveCondition = item.effectiveCondition := by
  have hpages : (item.copy ids).1.pages.map (·.condition) = item.pages.map (·.condition) := by
    rw [Item.copy_run, Item.pages, Item.pages]
    cases item.contents with
    | text label => rfl
    | page single => exact congrArg (fun condition => [condition]) (single.condition_copy _)
    | pages several =>
        exact Issuing.map_mapM (fun page : Page => page.condition) Page.condition_copy several _
  have hhead : ∀ pages : List Page,
      pages.head?.bind (·.condition) = (pages.map (·.condition)).head?.join := by
    intro pages
    cases pages <;> rfl
  rw [Item.effectiveCondition, Item.effectiveCondition, hhead, hhead, hpages, Item.copy_run]

/-- Of what policies read of a block, a copy changes only the names in its lists. -/
theorem Block.form_copy (block : Block) (ids : IdSource) :
    let rename := renamed (block.blocks.getD []) ((block.copy ids).1.blocks.getD [])
    (block.copy ids).1.form = { block.form with
      exchangeable := block.exchangeable.map rename
      counterbalance := block.counterbalance.map rename } := by
  obtain ⟨hpages, hitems, hgroups⟩ := Issuing.map_literal_conditions Page.condition_copy
    Item.effectiveCondition_copy
  have hblocks := Block.isSome_copyChildren block.blocks ids.next.2
  rw [Block.copy_run]
  simp only [Block.form, copyOption_eq_expandOption, hpages, hitems, hgroups, hblocks]
  rfl

/-- A block beside its copy. One renaming takes the lists of the block to those of the copy, and the
copy is in order if the block is. -/
structure Block.CopiedAs (block copy : Block) : Prop where
  lists : ∃ rename, Renames (block.blocks.getD []) (copy.blocks.getD []) rename ∧
    copy.exchangeable = block.exchangeable.map rename ∧
    copy.counterbalance = block.counterbalance.map rename ∧
    copy.treatments = block.treatments.map (List.map rename)
  checked : block.check = .ok () → copy.check = .ok ()

/-- A block that passes its check has a copy that does. -/
theorem Block.check_copy {block : Block} (ids : IdSource) (h : block.check = .ok ()) :
    (block.copy ids).1.check = .ok () := by
  apply Block.check_of_lists (block.form_copy ids) _ _ _ h
  · rw [Block.copy_run]
    rfl
  · intro id hid
    apply renamed_mem _ hid
    rw [Block.copy_run]
    exact Block.length_copyChildren block.blocks ids.next.2
  · have hguard := (Block.check_eq_ok_iff.mp h).guard
    rw [Block.copy_run]
    cases hgiven : block.guard with
    | none => rfl
    | some guard =>
        rw [hgiven] at hguard
        exact Guard.check_eq_ok_iff.mpr (Guard.check_eq_ok_iff.mp hguard)

theorem Block.copiedAs_copy (block : Block) (ids : IdSource) :
    block.CopiedAs (block.copy ids).1 where
  lists := by
    refine ⟨_, renames_renamed _ _, ?_⟩
    rw [Block.copy_run]
    exact ⟨rfl, rfl, rfl⟩
  checked := Block.check_copy ids

/-- Of two children with one name the last counts, and a name from elsewhere stays. -/
example : (Block.copy
    { id := "outer"
      blocks := some [{ id := "twin" }, { id := "twin" }]
      exchangeable := ["twin", "elsewhere"] } {}).1.exchangeable = ["3", "elsewhere"] := by
  cbv

mutual

/-- The blocks in a block, at any depth, are beside those in its copy. -/
theorem Block.copiedAs_within : ∀ (block : Block) (ids : IdSource),
    List.Forall₂ Block.CopiedAs block.within (block.copy ids).1.within
  | ⟨id, pages, items, groups, blocks, exchangeable, counterbalance, treatments, latinSquare,
      pseudorandom, criterion, cutoff, guard, banks⟩, ids => by
      have hself := Block.copiedAs_copy ⟨id, pages, items, groups, blocks, exchangeable,
        counterbalance, treatments, latinSquare, pseudorandom, criterion, cutoff, guard, banks⟩ ids
      rw [Block.copy_run] at hself ⊢
      simp only [Block.within]
      exact .cons hself (Block.copiedAs_withinOption blocks ids.next.2)

theorem Block.copiedAs_withinOption : ∀ (blocks : Option (List Block)) (ids : IdSource),
    List.Forall₂ Block.CopiedAs (Block.withinOption blocks)
      (Block.withinOption (Block.copyChildren blocks ids).1)
  | none, ids => by
      rw [Block.copyChildren]
      exact .nil
  | some blocks, ids => by
      rw [Block.copyChildren]
      exact Block.copiedAs_withinList blocks ids

theorem Block.copiedAs_withinList : ∀ (blocks : List Block) (ids : IdSource),
    List.Forall₂ Block.CopiedAs (Block.withinList blocks)
      (Block.withinList (Block.copyList blocks ids).1)
  | [], ids => by
      rw [Block.copyList]
      exact .nil
  | block :: rest, ids => by
      rw [Block.copyList_cons_run]
      simp only [Block.withinList]
      exact List.rel_append (Block.copiedAs_within block ids) (Block.copiedAs_withinList rest _)

end

/-! ### Copies in a session -/

/-- Copies of nodes, made in a session. A copy has as many nodes as its original, and they bear the
next identifiers of the session, each once; nothing else of the session changes. As long as the
counter has room, these are the numbers above it, and it ends that much further. Without identifiers
the copy is the original, guards included. The blocks in the copy are beside those in the
original. -/
def CopiesFaithfully {α : Type} (copy : α → Issuing α) (nodes : α → List Identity)
    (nameless : α → α) (blocks : α → List Block) : Prop :=
  ∀ (x : α) (session : Session), ∃ y,
    Session.issuing (copy x) session
        = .ok y { session with ids := session.ids.after (nodes x).length } ∧
      ((nodes y).map Prod.snd).Perm (session.ids.upcoming (nodes x).length) ∧
      (session.ids.HasRoom (nodes x).length →
        ((nodes y).map Prod.snd).Perm ((List.range (nodes x).length).map fun i =>
            toString (session.ids.counter.toNat + (i + 1))) ∧
          ((nodes y).map Prod.snd).Nodup ∧
          (session.ids.after (nodes x).length).counter.toNat
            = session.ids.counter.toNat + (nodes x).length) ∧
      nameless y = nameless x ∧ List.Forall₂ Block.CopiedAs (blocks x) (blocks y)

theorem CopiesFaithfully.of_copies {α : Type} {copy : α → Issuing α} {nodes : α → List Identity}
    {nameless : α → α} {blocks : α → List Block}
    (hcopies : ∀ x ids, Copied ids (copy x ids).2 (nodes x) (nodes (copy x ids).1))
    (hnameless : ∀ x ids, nameless (copy x ids).1 = nameless x)
    (hblocks : ∀ x ids, List.Forall₂ Block.CopiedAs (blocks x) (blocks (copy x ids).1)) :
    CopiesFaithfully copy nodes nameless blocks := by
  intro x session
  obtain ⟨hsource, new, hids, _, hnodes⟩ := (hcopies x session.ids).minted
  rw [List.length_map] at hsource hids
  have hissued : ((nodes (copy x session.ids).1).map Prod.snd).Perm
      (session.ids.upcoming (nodes x).length) := by
    rw [← hids]
    exact hnodes.map Prod.snd
  refine ⟨(copy x session.ids).1, ?_, hissued, ?_, hnameless x session.ids,
    hblocks x session.ids⟩
  · rw [← hsource]
    rfl
  · intro hroom
    refine ⟨?_, hissued.nodup_iff.mpr hroom.nodup_upcoming, hroom.toNat_counter_after⟩
    rwa [← hroom.upcoming_eq]

/-- A block whose child holds a page to answer. -/
def Block.nested : Block where
  id := "outer"
  blocks := some [
    { id := "inner"
      pages := some [
        { id := "ask", text := .single (.literal "Well?"), choices := [{ id := "yes" }] }] }]
  exchangeable := ["inner"]

/-- A session whose counter cannot go further. -/
def Session.exhausted : Session := .ofSeed (UInt64.size - 1)

end Paradigm
