/-
Module: Paradigm.Proofs.Document.Contents
Layer: Proofs
Purpose: What a document holds, wherever it stands: its blocks, items, pages and guards, the
  identities of its nodes, and its samples in the order in which its fields are emitted. A sample
  site pairs a sample with the scopes around it, innermost first; a scope is a set of declared banks
  with the samples inside that no declaration further in takes.
Imports: Paradigm.Document, Paradigm.Tree.Index
Main exports: Document.Sample.slots, Document.Experiment.samples, Document.Experiment.identities,
  Document.Experiment.ids, Document.Experiment.allBlocks, Document.Experiment.allItems,
  Document.Experiment.everyPage, Document.Experiment.guards,
  Document.Experiment.mem_identities_iff, Document.Scope, Document.Experiment.sites
-/
import Paradigm.Document
import Paradigm.Tree.Index

namespace Paradigm.Document

/-! ### Samples in the order of the fields -/

/-- The slots that a sample names, to hold or to avoid them. -/
def Sample.slots (s : Sample) : List Nat := s.slot.toList ++ s.avoids.toList

/-- The sample of a text that is drawn. -/
def Text.samples : Text → List Sample
  | .literal _ => []
  | .sample s => [s]

/-- The samples of what a page shows. -/
def PageText.samples : PageText → List Sample
  | .single one => one.samples
  | .lines several => several.flatMap Text.samples

/-- The sample of a resource whose file or whose source is drawn. -/
def ResourceEntry.samples : ResourceEntry → List Sample
  | .sample s => [s]
  | .record r => r.source.samples

mutual

/-- The samples of feedback. -/
def Feedback.samples : Feedback → List Sample
  | .text label => label.samples
  | .page shown => shown.samples

/-- The samples of feedback where there is any. -/
def Feedback.samplesOption : Option Feedback → List Sample
  | none => []
  | some feedback => feedback.samples

/-- The samples of an answer option: of its text, its feedback and its resources. -/
def Choice.samples : Choice → List Sample
  | { text, feedback, resources, .. } =>
    text.toList.flatMap Text.samples ++ Feedback.samplesOption feedback
      ++ resources.flatMap ResourceEntry.samples

/-- The samples of answer options in order. -/
def Choice.samplesList : List Choice → List Sample
  | [] => []
  | choice :: rest => choice.samples ++ Choice.samplesList rest

/-- The samples of a page: of its text, its options, its feedback, its resources and its
condition. -/
def Page.samples : Page → List Sample
  | { text, choices, feedback, resources, condition, .. } =>
    text.samples ++ Choice.samplesList choices ++ Feedback.samplesOption feedback
      ++ resources.flatMap ResourceEntry.samples ++ condition.toList.flatMap Text.samples

end

/-- The samples of an item: of its pages and its condition. -/
def Item.samples (item : Item) : List Sample :=
  item.pages.flatMap Page.samples ++ item.condition.toList.flatMap Text.samples

/-- The items of a block, those in groups included. -/
def Block.ownItems (b : Block) : List Item := b.items.getD [] ++ (b.groups.getD []).flatten

/-- The samples of the pages, items and groups of a block. -/
def Block.ownSamples (b : Block) : List Sample :=
  (b.pages.getD []).flatMap Page.samples ++ b.ownItems.flatMap Item.samples

mutual

/-- The samples of a block: its own, then those of its child blocks. -/
def Block.samples : Block → List Sample
  | block@{ blocks, .. } => block.ownSamples ++ Block.samplesOption blocks

/-- The samples of child blocks where there are any. -/
def Block.samplesOption : Option (List Block) → List Sample
  | none => []
  | some blocks => Block.samplesList blocks

/-- The samples of blocks in order. -/
def Block.samplesList : List Block → List Sample
  | [] => []
  | block :: rest => block.samples ++ Block.samplesList rest

end

/-- The samples of a document, in the order in which its fields are emitted. -/
def Experiment.samples (e : Experiment) : List Sample := Block.samplesList e.blocks

/-! ### Identities -/

mutual

/-- The identities of feedback. -/
def Feedback.identities : Feedback → List Identity
  | .text _ => []
  | .page shown => shown.identities

/-- The identities of feedback where there is any. -/
def Feedback.identitiesOption : Option Feedback → List Identity
  | none => []
  | some feedback => feedback.identities

/-- The identities of an answer option: its own, then those of its feedback. -/
def Choice.identities : Choice → List Identity
  | { id, feedback, .. } => (.choice, id) :: Feedback.identitiesOption feedback

/-- The identities of answer options in order. -/
def Choice.identitiesList : List Choice → List Identity
  | [] => []
  | choice :: rest => choice.identities ++ Choice.identitiesList rest

/-- The identities of a page: its own, then those of its feedback and of its options. -/
def Page.identities : Page → List Identity
  | { id, choices, feedback, .. } =>
    (.page, id) :: Feedback.identitiesOption feedback ++ Choice.identitiesList choices

end

/-- The identities of an item and its pages. -/
def Item.identities (item : Item) : List Identity :=
  (.item, item.id) :: item.pages.flatMap Page.identities

mutual

/-- The identities of a block: its own, then those of its contents. -/
def Block.identities : Block → List Identity
  | block@{ blocks, .. } =>
    (.block, block.id) :: (block.pages.getD []).flatMap Page.identities
      ++ block.ownItems.flatMap Item.identities ++ Block.identitiesOption blocks

/-- The identities of child blocks where there are any. -/
def Block.identitiesOption : Option (List Block) → List Identity
  | none => []
  | some blocks => Block.identitiesList blocks

/-- The identities of blocks in order. -/
def Block.identitiesList : List Block → List Identity
  | [] => []
  | block :: rest => block.identities ++ Block.identitiesList rest

end

/-- The identities of all nodes of a document. -/
def Experiment.identities (e : Experiment) : List Identity := Block.identitiesList e.blocks

/-- The identifiers of all nodes of one kind. -/
def Experiment.ids (e : Experiment) (kind : NodeKind) : List String :=
  e.identities.filterMap fun identity => if identity.1 = kind then some identity.2 else none

/-! ### Nodes -/

mutual

/-- The pages shown as feedback. -/
def Feedback.within : Feedback → List Page
  | .text _ => []
  | .page shown => shown.within

/-- The pages shown as feedback where there is any. -/
def Feedback.withinOption : Option Feedback → List Page
  | none => []
  | some feedback => feedback.within

/-- The pages shown as feedback on answer options. -/
def Choice.withinList : List Choice → List Page
  | [] => []
  | { feedback, .. } :: rest => Feedback.withinOption feedback ++ Choice.withinList rest

/-- A page and all pages shown as feedback in it, at any depth. -/
def Page.within : Page → List Page
  | page@{ choices, feedback, .. } =>
    page :: Feedback.withinOption feedback ++ Choice.withinList choices

end

/-- The feedback that a page carries: its own, then that of its options in order. -/
def Page.feedbacks (page : Page) : List Feedback :=
  page.feedback.toList ++ page.choices.filterMap (·.feedback)

/-- The pages shown as feedback in place on a page, at any depth. -/
def Page.feedbackPages (page : Page) : List Page :=
  Feedback.withinOption page.feedback ++ Choice.withinList page.choices

mutual

/-- A block and all blocks in it, at any depth. -/
def Block.within : Block → List Block
  | block@{ blocks, .. } => block :: Block.withinOption blocks

/-- All blocks in child blocks where there are any. -/
def Block.withinOption : Option (List Block) → List Block
  | none => []
  | some blocks => Block.withinList blocks

/-- All blocks in a list of blocks. -/
def Block.withinList : List Block → List Block
  | [] => []
  | block :: rest => block.within ++ Block.withinList rest

end

/-- All blocks of a document. -/
def Experiment.allBlocks (e : Experiment) : List Block := Block.withinList e.blocks

/-- All items of a document. -/
def Experiment.allItems (e : Experiment) : List Item := e.allBlocks.flatMap Block.ownItems

/-- The pages of a block and of its items, without feedback pages. -/
def Block.ownPages (b : Block) : List Page := b.pages.getD [] ++ b.ownItems.flatMap (·.pages)

/-- All pages of a document, those shown as feedback included. -/
def Experiment.everyPage (e : Experiment) : List Page :=
  (e.allBlocks.flatMap Block.ownPages).flatMap Page.within

/-- All guards of a document. -/
def Experiment.guards (e : Experiment) : List Guard :=
  e.allBlocks.filterMap (·.guard) ++ e.allItems.filterMap (·.guard)
    ++ e.everyPage.filterMap (·.guard)

theorem Block.mem_within_self (block : Block) : block ∈ block.within := by
  cases block
  exact List.mem_cons_self

theorem Block.mem_withinList_of_mem {block : Block} {blocks : List Block} (h : block ∈ blocks) :
    block ∈ Block.withinList blocks := by
  induction blocks with
  | nil => simp at h
  | cons first rest ih =>
      rw [Block.withinList, List.mem_append]
      rcases List.mem_cons.mp h with rfl | h
      · exact .inl block.mem_within_self
      · exact .inr (ih h)

mutual

/-- Children of the blocks in a block are blocks in it too. -/
theorem Block.child_mem_within : ∀ (outer : Block), ∀ inner ∈ outer.within,
    ∀ child ∈ inner.blocks.getD [], child ∈ outer.within
  | ⟨_, _, _, _, blocks, _, _, _, _, _, _, _, _⟩, inner, hinner, child, hchild => by
      rw [Block.within, List.mem_cons] at hinner ⊢
      apply Or.inr
      rcases hinner with rfl | hinner
      · cases blocks with
        | none => simp at hchild
        | some blocks => exact Block.mem_withinList_of_mem hchild
      · exact Block.child_mem_withinOption blocks inner hinner child hchild

theorem Block.child_mem_withinOption : ∀ (blocks : Option (List Block)),
    ∀ inner ∈ Block.withinOption blocks, ∀ child ∈ inner.blocks.getD [],
      child ∈ Block.withinOption blocks
  | none, inner, hinner, _, _ => by simp [Block.withinOption] at hinner
  | some blocks, inner, hinner, child, hchild => by
      rw [Block.withinOption] at hinner ⊢
      exact Block.child_mem_withinList blocks inner hinner child hchild

theorem Block.child_mem_withinList : ∀ (blocks : List Block),
    ∀ inner ∈ Block.withinList blocks, ∀ child ∈ inner.blocks.getD [],
      child ∈ Block.withinList blocks
  | [], inner, hinner, _, _ => by simp [Block.withinList] at hinner
  | block :: rest, inner, hinner, child, hchild => by
      rw [Block.withinList, List.mem_append] at hinner ⊢
      rcases hinner with hinner | hinner
      · exact .inl (Block.child_mem_within block inner hinner child hchild)
      · exact .inr (Block.child_mem_withinList rest inner hinner child hchild)

end

/-! ### Nodes and their identities -/

/-- The identities of a page and its answer options, without those of feedback pages. -/
def Page.ownIdentities (page : Page) : List Identity :=
  (.page, page.id) :: page.choices.map fun choice => (.choice, choice.id)

/-- The identities of a block and of what it holds, without those of child blocks. -/
def Block.ownIdentities (block : Block) : List Identity :=
  (.block, block.id) :: block.ownItems.map (fun item => (.item, item.id))
    ++ (block.ownPages.flatMap Page.within).flatMap Page.ownIdentities

section Identities

variable {identity : Identity}

mutual

theorem Feedback.mem_identities_iff : ∀ (feedback : Feedback),
    identity ∈ feedback.identities ↔ ∃ page ∈ feedback.within, identity ∈ page.ownIdentities
  | .text _ => by simp [Feedback.identities, Feedback.within]
  | .page shown => by
      rw [Feedback.identities, Feedback.within]
      exact Page.mem_identities_iff shown

theorem Feedback.mem_identitiesOption_iff : ∀ (feedback : Option Feedback),
    identity ∈ Feedback.identitiesOption feedback ↔
      ∃ page ∈ Feedback.withinOption feedback, identity ∈ page.ownIdentities
  | none => by simp [Feedback.identitiesOption, Feedback.withinOption]
  | some feedback => by
      rw [Feedback.identitiesOption, Feedback.withinOption]
      exact Feedback.mem_identities_iff feedback

theorem Choice.mem_identitiesList_iff : ∀ (choices : List Choice),
    identity ∈ Choice.identitiesList choices ↔
      identity ∈ choices.map (fun choice => (NodeKind.choice, choice.id)) ∨
        ∃ page ∈ Choice.withinList choices, identity ∈ page.ownIdentities
  | [] => by simp [Choice.identitiesList, Choice.withinList]
  | ⟨id, _, _, feedback, _, _⟩ :: rest => by
      have hfeedback := Feedback.mem_identitiesOption_iff feedback
      have hrest := Choice.mem_identitiesList_iff rest
      simp only [Choice.identitiesList, Choice.identities, Choice.withinList, List.map_cons,
        List.cons_append, List.mem_cons, List.mem_append, hfeedback, hrest, or_and_right,
        exists_or, or_assoc]
      exact or_congr Iff.rfl or_left_comm

/-- The identities of a page are those of the pages in it, feedback pages included, and of their
answer options. -/
theorem Page.mem_identities_iff : ∀ (page : Page),
    identity ∈ page.identities ↔ ∃ inner ∈ page.within, identity ∈ inner.ownIdentities
  | ⟨id, _, choices, feedback, _, _, _, _, _, _, _, _, _⟩ => by
      have hfeedback := Feedback.mem_identitiesOption_iff feedback
      have hchoices := Choice.mem_identitiesList_iff choices
      simp only [Page.identities, Page.within, List.cons_append, List.mem_cons, List.mem_append,
        hfeedback, hchoices, exists_eq_left, or_and_right, exists_or]
      rw [Page.ownIdentities, List.mem_cons, or_assoc]
      exact or_congr Iff.rfl or_left_comm

end

theorem mem_flatMap_page_identities_iff (pages : List Page) :
    identity ∈ pages.flatMap Page.identities ↔
      identity ∈ (pages.flatMap Page.within).flatMap Page.ownIdentities := by
  rw [List.flatMap_assoc, List.mem_flatMap, List.mem_flatMap]
  apply exists_congr
  intro page
  apply and_congr_right
  intro _
  rw [Page.mem_identities_iff, List.mem_flatMap]

theorem mem_flatMap_item_identities_iff (items : List Item) :
    identity ∈ items.flatMap Item.identities ↔
      identity ∈ items.map (fun item => (NodeKind.item, item.id)) ∨
        identity ∈ ((items.flatMap (·.pages)).flatMap Page.within).flatMap Page.ownIdentities := by
  induction items with
  | nil => simp
  | cons item rest ih =>
      simp only [List.flatMap_cons, List.map_cons, List.flatMap_append, Item.identities,
        List.cons_append, List.mem_cons, List.mem_append, ih, mem_flatMap_page_identities_iff]
      rw [or_assoc]
      exact or_congr Iff.rfl or_left_comm

theorem Block.mem_ownIdentities_iff (block : Block) :
    identity ∈ block.ownIdentities ↔ identity = (.block, block.id) ∨
      identity ∈ (block.pages.getD []).flatMap Page.identities ∨
        identity ∈ block.ownItems.flatMap Item.identities := by
  simp only [Block.ownIdentities, Block.ownPages, List.cons_append, List.mem_cons, List.mem_append,
    List.flatMap_append, mem_flatMap_page_identities_iff, mem_flatMap_item_identities_iff]
  exact or_congr Iff.rfl or_left_comm

mutual

/-- The identities of a block are those of the blocks in it and of what these hold. -/
theorem Block.mem_identities_iff : ∀ (block : Block),
    identity ∈ block.identities ↔ ∃ inner ∈ block.within, identity ∈ inner.ownIdentities
  | ⟨id, pages, items, groups, blocks, _, _, _, _, _, _, _, _⟩ => by
      have hblocks := Block.mem_identitiesOption_iff blocks
      simp only [Block.identities, Block.within, List.cons_append, List.mem_cons, List.mem_append,
        hblocks, exists_eq_left, or_and_right, exists_or, Block.mem_ownIdentities_iff, or_assoc]

theorem Block.mem_identitiesOption_iff : ∀ (blocks : Option (List Block)),
    identity ∈ Block.identitiesOption blocks ↔
      ∃ inner ∈ Block.withinOption blocks, identity ∈ inner.ownIdentities
  | none => by simp [Block.identitiesOption, Block.withinOption]
  | some blocks => by
      rw [Block.identitiesOption, Block.withinOption]
      exact Block.mem_identitiesList_iff blocks

theorem Block.mem_identitiesList_iff : ∀ (blocks : List Block),
    identity ∈ Block.identitiesList blocks ↔
      ∃ inner ∈ Block.withinList blocks, identity ∈ inner.ownIdentities
  | [] => by simp [Block.identitiesList, Block.withinList]
  | block :: rest => by
      simp only [Block.identitiesList, Block.withinList, List.mem_append,
        Block.mem_identities_iff block, Block.mem_identitiesList_iff rest, or_and_right, exists_or]

end

/-- The identities of a document are those of its blocks and of what these hold. -/
theorem Experiment.mem_identities_iff (e : Experiment) :
    identity ∈ e.identities ↔ ∃ block ∈ e.allBlocks, identity ∈ block.ownIdentities :=
  Block.mem_identitiesList_iff e.blocks

theorem Experiment.mem_identities_of_block {e : Experiment} {block : Block}
    (h : block ∈ e.allBlocks) : (.block, block.id) ∈ e.identities := by
  rw [Experiment.mem_identities_iff]
  exact ⟨block, h, List.mem_cons_self⟩

theorem Experiment.mem_identities_of_item {e : Experiment} {item : Item}
    (h : item ∈ e.allItems) : (.item, item.id) ∈ e.identities := by
  obtain ⟨block, hblock, hitem⟩ := List.mem_flatMap.mp h
  rw [Experiment.mem_identities_iff]
  refine ⟨block, hblock, ?_⟩
  apply List.mem_append_left
  apply List.mem_cons_of_mem
  exact List.mem_map_of_mem hitem

theorem Experiment.mem_identities_of_page {e : Experiment} {page : Page}
    (h : page ∈ e.everyPage) (hidentity : identity ∈ page.ownIdentities) :
    identity ∈ e.identities := by
  obtain ⟨outer, houter, hpage⟩ := List.mem_flatMap.mp h
  obtain ⟨block, hblock, houter⟩ := List.mem_flatMap.mp houter
  rw [Experiment.mem_identities_iff]
  refine ⟨block, hblock, ?_⟩
  apply List.mem_append_right
  exact List.mem_flatMap_of_mem (List.mem_flatMap_of_mem houter hpage) hidentity

end Identities

/-! ### Scopes -/

/-- Whether a node with these banks declares the bank of a sample. -/
def Sample.declaredIn (banks : Banks) (s : Sample) : Bool := banks.contains s.bank

mutual

/-- The samples in a block for which no block inside it declares the bank. -/
def Block.reaching : Block → List Sample
  | block@{ blocks, .. } => block.ownSamples ++ Block.leavingOption blocks

/-- The samples that leave child blocks undeclared, where there are any. -/
def Block.leavingOption : Option (List Block) → List Sample
  | none => []
  | some blocks => Block.leavingList blocks

/-- The samples that leave blocks undeclared: neither a block inside nor the block itself declares
their bank. -/
def Block.leavingList : List Block → List Sample
  | [] => []
  | block :: rest =>
    block.reaching.filter (!Sample.declaredIn block.banks ·) ++ Block.leavingList rest

end

/-- The banks that a node declares, with the samples in it that no declaration further in takes. -/
structure Scope where
  banks : Banks
  reaching : List Sample

/-- The samples bound to a bank of a scope: it is their nearest declaration. -/
def Scope.bound (scope : Scope) (bank : String) : List Sample :=
  scope.reaching.filter (·.bank = bank)

/-- The scope of a block. -/
def Block.scope (b : Block) : Scope := { banks := b.banks, reaching := b.reaching }

/-- The scope of the root. -/
def Experiment.scope (e : Experiment) : Scope :=
  { banks := e.banks, reaching := Block.leavingList e.blocks }

/-- A sample where it stands: with the scopes around it, innermost first. -/
structure Site where
  scopes : List Scope
  sample : Sample

/-- The nearest scope around a sample that declares its bank. -/
def Site.nearest (site : Site) : Option Scope :=
  site.scopes.find? fun scope => site.sample.declaredIn scope.banks

mutual

/-- The samples of a block with the scopes around them. -/
def Block.sites (outer : List Scope) : Block → List Site
  | block@{ blocks, .. } =>
    block.ownSamples.map (fun s => { scopes := block.scope :: outer, sample := s })
      ++ Block.sitesOption (block.scope :: outer) blocks

/-- The samples of child blocks where there are any. -/
def Block.sitesOption (outer : List Scope) : Option (List Block) → List Site
  | none => []
  | some blocks => Block.sitesList outer blocks

/-- The samples of blocks in order. -/
def Block.sitesList (outer : List Scope) : List Block → List Site
  | [] => []
  | block :: rest => block.sites outer ++ Block.sitesList outer rest

end

/-- The samples of a document with the scopes around them. -/
def Experiment.sites (e : Experiment) : List Site := Block.sitesList [e.scope] e.blocks

end Paradigm.Document
