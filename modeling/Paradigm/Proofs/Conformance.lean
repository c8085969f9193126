/-
Module: Paradigm.Proofs.Conformance
Layer: Proofs
Purpose: Compiled documents beside the schema of the runner. All that the schema asks for is
  guaranteed by compilation, apart from one thing: identifiers may be empty. So a compiled document
  is emitted exactly where none of its identifiers is empty, and expansion issues no empty one.
Imports: Paradigm.Emission, Paradigm.Proofs.References, Paradigm.Proofs.Schema.Nodes
Main exports: checkSchema_eq_ok_iff, Document.Experiment.exists_render_iff,
  Document.Guard.fits_of_named, Block.Resolved.kindCount, Experiment.Compiled.block_fits,
  Experiment.Compiled.accepts_of_named, Document.Experiment.named_of_accepts,
  Experiment.compile_conforms
-/
import Paradigm.Emission
import Paradigm.Proofs.References
import Paradigm.Proofs.Schema.Nodes

namespace Paradigm

open Document (Sample)

/-! ### Emission -/

theorem checkSchema_eq_ok_iff {v : Json} : checkSchema v = .ok () ↔ Schema.runner.Accepts v := by
  unfold checkSchema Schema.diagnoseDocument Schema.Accepts
  cases Schema.runner.diagnose v.sorted <;> simp

/-- A document is rendered where it passes the check of the schema, with any options. -/
theorem Document.Experiment.exists_render_iff (document : Document.Experiment)
    (options : EmitOptions) :
    (∃ text, document.render options = .ok text) ↔ checkSchema document.toJson = .ok () := by
  unfold render
  simp only [Outcome.bind_eq_ok_iff, Outcome.pure_eq_ok_iff]
  constructor
  · intro hrendered
    rcases hrendered with ⟨_, _, hcheck, _⟩
    exact hcheck
  · intro hcheck
    exact ⟨_, (), hcheck, rfl⟩

/-! ### Samples of resolved nodes -/

theorem Placeholder.exclusive_document (p : Placeholder) (slot : Slot) :
    (p.document slot).Exclusive := by
  cases slot <;> exact ⟨by simp [Placeholder.document], by simp [Placeholder.document],
    by simp [Placeholder.document]⟩

theorem Text.Resolved.exclusive {given : Text} {shown : Document.Text} (h : given.Resolved shown) :
    ∀ s ∈ shown.samples, s.Exclusive := by
  cases h with
  | literal value => simp [Document.Text.samples]
  | sample p slot =>
      intro s hs
      rw [Document.Text.samples, List.mem_singleton] at hs
      exact hs ▸ p.exclusive_document slot

theorem Text.exclusive_of_rel {given : Option Text} {shown : Option Document.Text}
    (h : Option.Rel Text.Resolved given shown) :
    ∀ s ∈ shown.toList.flatMap Document.Text.samples, s.Exclusive := by
  cases h with
  | none => simp
  | some text => simpa using text.exclusive

theorem PageText.Resolved.exclusive {given : PageText} {shown : Document.PageText}
    (h : given.Resolved shown) : ∀ s ∈ shown.samples, s.Exclusive := by
  cases h with
  | single text => exact text.exclusive
  | lines texts => exact forall_mem_flatMap_of_forall₂ texts fun _ _ text => text.exclusive

theorem ResourceEntry.Resolved.exclusive {given : ResourceEntry} {shown : Document.ResourceEntry}
    (h : given.Resolved shown) : ∀ s ∈ shown.samples, s.Exclusive := by
  cases h with
  | file name => simp [Document.ResourceEntry.samples, Document.Text.samples]
  | full text => exact text.exclusive
  | sample p slot =>
      intro s hs
      rw [Document.ResourceEntry.samples, List.mem_singleton] at hs
      exact hs ▸ p.exclusive_document slot

section Nodes

variable {index : Index}

theorem Feedback.ResolvedOption.exclusive {given : Option Feedback}
    {shown : Option Document.Feedback} (h : Feedback.ResolvedOption index given shown) :
    ∀ s ∈ Document.Feedback.ownSamples shown, s.Exclusive := by
  cases h with
  | none => simp [Document.Feedback.ownSamples]
  | some feedback =>
      cases feedback with
      | text label => exact label.exclusive
      | page page => simp [Document.Feedback.ownSamples]

theorem Choice.ResolvedList.exclusive : ∀ {given : List Choice} {shown : List Document.Choice},
    Choice.ResolvedList index given shown →
      ∀ s ∈ shown.flatMap Document.Choice.ownSamples, s.Exclusive
  | _, _, .nil => by simp
  | _, _, .cons (.mk _ texts feedbacks files) tail => by
      rw [List.flatMap_cons, List.forall_mem_append]
      refine ⟨?_, tail.exclusive⟩
      unfold Document.Choice.ownSamples
      rw [List.forall_mem_append, List.forall_mem_append]
      refine ⟨⟨Text.exclusive_of_rel texts, feedbacks.exclusive⟩, ?_⟩
      exact forall_mem_flatMap_of_forall₂ files fun _ _ file => file.exclusive

theorem Page.Resolved.exclusive {given : Page} {shown : Document.Page}
    (h : given.Resolved index shown) : ∀ s ∈ shown.ownSamples, s.Exclusive := by
  cases h with
  | mk checked texts options feedbacks files conditions guards =>
      unfold Document.Page.ownSamples
      simp only [List.forall_mem_append]
      have hfiles := forall_mem_flatMap_of_forall₂ files fun _ _ file => file.exclusive
      exact ⟨⟨⟨⟨texts.exclusive, options.exclusive⟩, feedbacks.exclusive⟩, hfiles⟩,
        Text.exclusive_of_rel conditions⟩

/-! ### Rules and the schema -/

/-- A guard of a known form that watches nodes with names is as the schema asks. -/
theorem Document.Guard.fits_of_named {g : Document.Guard} {identities : List Identity}
    (hshaped : g.Shaped) (hwatches : g.WatchesAmong identities)
    (hnamed : ∀ identity ∈ identities, identity.2 ≠ "") : g.Fits := by
  constructor
  · intro page hpage
    exact hnamed _ (hwatches.page page hpage)
  · intro choice hchoice
    exact hnamed _ (hwatches.choice choice hchoice)
  · have htarget := hshaped.target
    have hbeside := hshaped.beside
    cases hpage : g.page with
    | some page =>
        rw [hpage] at htarget
        refine .inl ⟨rfl, ?_⟩
        simpa using htarget
    | none =>
        rw [hpage] at htarget hbeside
        have hpermutation : g.permutation.isSome = true := by
          cases hsome : g.permutation.isSome with
          | true => rfl
          | false => exact absurd hsome.symm htarget
        refine .inr ⟨hpermutation, rfl, ?_, ?_⟩
        · cases hchoice : g.choice with
          | none => rfl
          | some choice => simp [hchoice] at hbeside
        · cases hregex : g.regex with
          | none => rfl
          | some regex => simp [hregex] at hbeside

/-- A block may be repeated where its criterion is in range and it runs at least once. -/
theorem Block.checkRepetition_eq_ok_iff {block : Block} : block.checkRepetition = .ok () ↔
    (∀ c, block.criterion = some c → c.InRange) ∧ ∀ n, block.cutoff = some n → n ≠ 0 := by
  have hcutoff : (block.cutoff != some 0) = true ↔ ∀ n, block.cutoff = some n → n ≠ 0 := by
    cases block.cutoff <;> simp
  unfold Block.checkRepetition
  cases hcriterion : block.criterion with
  | none => simpa using hcutoff
  | some c =>
      cases c with
      | streak length => simp [Verdict.seq_eq_ok_iff, Criterion.InRange, ← hcutoff]
      | proportion share => simp [Verdict.seq_eq_ok_iff, Criterion.InRange, ← hcutoff]

/-- A block of the document has one kind of contents. -/
theorem Block.Resolved.kindCount {given : Block} {shown : Document.Block}
    (h : given.Resolved index shown) : shown.kindCount = 1 := by
  cases h with
  | mk checked ofPages ofItems ofGroups children guards shape served =>
      have hcontents := (Block.check_eq_ok_iff.mp checked).contents
      subst shape
      rw [Document.Block.kindCount, isSome_eq_of_rel ofPages, isSome_eq_of_rel ofItems,
        isSome_eq_of_rel ofGroups, children.isSome_eq]
      exact hcontents

end Nodes

/-! ### Compiled documents -/

section Compiled

variable {e expanded : Experiment} {session : Session} {ids : IdSource} {index : Index}
  {slots : SlotAllocator} {document : Document.Experiment}

theorem Experiment.Compiled.guard_fits
    (h : e.Compiled session expanded ids index slots document)
    (hnamed : ∀ identity ∈ document.identities, identity.2 ≠ "") :
    ∀ g ∈ document.guards, g.Fits := by
  intro g hg
  exact Document.Guard.fits_of_named (h.guard_shaped g hg) (h.guard_watches g hg) hnamed

theorem Experiment.Compiled.page_fits
    (h : e.Compiled session expanded ids index slots document)
    (hnamed : ∀ identity ∈ document.identities, identity.2 ≠ "") :
    ∀ page ∈ document.everyPage, page.Fits := by
  intro page hpage
  obtain ⟨given, hgiven⟩ := h.resolves.mem_everyPage page hpage
  have hown : ∀ identity ∈ page.ownIdentities, identity.2 ≠ "" := fun identity hidentity =>
    hnamed identity (Document.Experiment.mem_identities_of_page hpage hidentity)
  constructor
  · exact hown _ List.mem_cons_self
  · intro choice hchoice
    exact hown (.choice, choice.id) (List.mem_cons_of_mem _ (List.mem_map_of_mem hchoice))
  · exact hgiven.exclusive
  · intro g hg
    apply h.guard_fits hnamed g
    apply List.mem_append_right
    exact List.mem_filterMap.mpr ⟨page, hpage, hg⟩

theorem Experiment.Compiled.item_fits
    (h : e.Compiled session expanded ids index slots document)
    (hnamed : ∀ identity ∈ document.identities, identity.2 ≠ "") :
    ∀ item ∈ document.allItems, item.Fits := by
  intro item hitem
  obtain ⟨given, hgiven, hrel⟩ := exists_left_of_forall₂ h.resolves.allItems item hitem
  have hnonempty := h.pages_ne_nil given hgiven
  constructor
  · exact hnamed _ (Document.Experiment.mem_identities_of_item hitem)
  · cases hrel with
    | mk checked contents conditions guards =>
        intro hnil
        change _ = [] at hnil
        subst hnil
        exact hnonempty (List.forall₂_nil_right_iff.mp contents)
  · cases hrel with
    | mk checked contents conditions guards => exact Text.exclusive_of_rel conditions
  · intro g hg
    apply h.guard_fits hnamed g
    apply List.mem_append_left
    apply List.mem_append_right
    exact List.mem_filterMap.mpr ⟨item, hitem, hg⟩

/-- Blocks named for an order are children, which have names. -/
theorem Experiment.Compiled.references_named
    (h : e.Compiled session expanded ids index slots document)
    (hnamed : ∀ identity ∈ document.identities, identity.2 ≠ "") :
    ∀ block ∈ document.allBlocks, ∀ id ∈ block.exchangeable ++ block.counterbalance, id ≠ "" := by
  intro block hblock id hid
  obtain ⟨given, hgiven⟩ := h.resolves.mem_allBlocks block hblock
  obtain ⟨child, hchild, rfl⟩ := List.mem_map.mp (hgiven.mem_children id hid)
  have hmem := Document.Block.child_mem_withinList _ block hblock child hchild
  exact hnamed _ (Document.Experiment.mem_identities_of_block hmem)

theorem Experiment.Compiled.block_fits
    (h : e.Compiled session expanded ids index slots document)
    (hnamed : ∀ identity ∈ document.identities, identity.2 ≠ "") :
    ∀ block ∈ document.allBlocks, block.Fits := by
  intro block hblock
  obtain ⟨given, hgiven⟩ := h.resolves.mem_allBlocks block hblock
  have hchildren := h.references_named hnamed block hblock
  rw [List.forall_mem_append] at hchildren
  have hguard : ∀ g, block.guard = some g → g.Fits := by
    intro g hg
    apply h.guard_fits hnamed g
    apply List.mem_append_left
    apply List.mem_append_left
    exact List.mem_filterMap.mpr ⟨block, hblock, hg⟩
  have hcount := hgiven.kindCount
  cases hgiven with
  | mk checked ofPages ofItems ofGroups children guards shape served =>
      subst shape
      have hrules := Block.check_eq_ok_iff.mp checked
      obtain ⟨hcriterion, hcutoff⟩ := Block.checkRepetition_eq_ok_iff.mp hrules.repetition
      constructor
      · exact hnamed _ (Document.Experiment.mem_identities_of_block hblock)
      · exact hcount
      · exact hchildren.1
      · exact hchildren.2
      · intro c hc
        rw [Schema.accepts_all_cons_iff]
        exact ⟨Criterion.accepts_of_inRange (hcriterion c hc), Schema.accepts_all_nil⟩
      · exact hcutoff
      · exact hguard
      · exact ne_nil_of_checkBanks hrules.banks

/-- A compiled document without empty identifiers fits the schema. -/
theorem Experiment.Compiled.accepts_of_named
    (h : e.Compiled session expanded ids index slots document)
    (hnamed : ∀ identity ∈ document.identities, identity.2 ≠ "") :
    Schema.runner.Accepts document.toJson := by
  rw [Document.Experiment.accepts_iff]
  refine ⟨?_, ?_, ?_⟩
  · intro block hblock
    constructor
    · exact h.block_fits hnamed block hblock
    · intro item hitem
      exact h.item_fits hnamed item (List.mem_flatMap_of_mem hblock hitem)
    · intro page hpage
      apply h.page_fits hnamed page
      obtain ⟨outer, houter, hpage⟩ := List.mem_flatMap.mp hpage
      exact List.mem_flatMap_of_mem (List.mem_flatMap_of_mem hblock houter) hpage
  · intro id hid
    obtain ⟨block, hblock, rfl⟩ := List.mem_map.mp (h.mem_top id hid)
    have hmem : block ∈ document.allBlocks := Document.Block.mem_withinList_of_mem hblock
    exact hnamed _ (Document.Experiment.mem_identities_of_block hmem)
  · rw [h.resolves.banks]
    exact ne_nil_of_checkBanks h.expands.checkBanks

/-- A document that fits the schema has no empty identifiers. -/
theorem Document.Experiment.named_of_accepts
    (h : Schema.runner.Accepts document.toJson) :
    ∀ identity ∈ document.identities, identity.2 ≠ "" := by
  rw [Document.Experiment.accepts_iff] at h
  intro identity hidentity
  obtain ⟨block, hblock, hidentity⟩ := document.mem_identities_iff.mp hidentity
  have hfits := h.1 block hblock
  simp only [Document.Block.ownIdentities, List.cons_append, List.mem_cons, List.mem_append]
    at hidentity
  rcases hidentity with rfl | hidentity | hidentity
  · exact hfits.own.id
  · obtain ⟨item, hitem, rfl⟩ := List.mem_map.mp hidentity
    exact (hfits.items item hitem).id
  · obtain ⟨page, hpage, hidentity⟩ := List.mem_flatMap.mp hidentity
    have hpageFits := hfits.pages page hpage
    rcases List.mem_cons.mp hidentity with rfl | hidentity
    · exact hpageFits.id
    · obtain ⟨choice, hchoice, rfl⟩ := List.mem_map.mp hidentity
      exact hpageFits.choices choice hchoice

/-- A compiled document fits the schema exactly where none of its identifiers is empty. -/
theorem Experiment.Compiled.checkSchema_eq_ok_iff
    (h : e.Compiled session expanded ids index slots document) :
    checkSchema document.toJson = .ok () ↔ ∀ identity ∈ document.identities, identity.2 ≠ "" := by
  rw [Paradigm.checkSchema_eq_ok_iff]
  constructor
  · exact Document.Experiment.named_of_accepts
  · exact h.accepts_of_named

end Compiled

/-- A compiled document passes the check of the schema, and is rendered with any options, exactly
where each of its blocks, items, pages and options has an identifier that is not empty. Compilation
puts no empty identifier into a tree that has none. -/
theorem Experiment.compile_conforms {e : Experiment} {session : Session}
    {document : Document.Experiment} (h : (e.compile session).outcome = .ok document) :
    (checkSchema document.toJson = .ok () ↔
        ∀ identity ∈ document.identities, identity.2 ≠ "") ∧
      (∀ options : EmitOptions, (∃ text, document.render options = .ok text) ↔
        ∀ identity ∈ document.identities, identity.2 ≠ "") ∧
      ((∀ identity ∈ e.identities, identity.2 ≠ "") →
        checkSchema document.toJson = .ok () ∧
          ∀ options : EmitOptions, ∃ text, document.render options = .ok text) := by
  obtain ⟨expanded, ids, index, slots, hcompiled⟩ := e.compile_ok h
  have hcheck := hcompiled.checkSchema_eq_ok_iff
  have hrender : ∀ options : EmitOptions, (∃ text, document.render options = .ok text) ↔
      ∀ identity ∈ document.identities, identity.2 ≠ "" := by
    intro options
    rw [document.exists_render_iff, hcheck]
  refine ⟨hcheck, hrender, fun hnamed => ?_⟩
  have hkept : ∀ identity ∈ document.identities, identity.2 ≠ "" := by
    rw [hcompiled.resolves.identities_eq]
    exact hcompiled.expands.named hnamed
  exact ⟨hcheck.mpr hkept, fun options => (hrender options).mpr hkept⟩

/-- The document of the worked example is rendered. -/
theorem Experiment.compile_conforms_worked :
    (checkSchema Document.Experiment.worked.toJson = .ok () ↔
        ∀ identity ∈ Document.Experiment.worked.identities, identity.2 ≠ "") ∧
      (∀ options : EmitOptions,
        (∃ text, Document.Experiment.worked.render options = .ok text) ↔
          ∀ identity ∈ Document.Experiment.worked.identities, identity.2 ≠ "") ∧
      checkSchema Document.Experiment.worked.toJson = .ok () ∧
        ∀ options : EmitOptions, ∃ text, Document.Experiment.worked.render options = .ok text := by
  obtain ⟨hcheck, hrender, hnamed⟩ := Experiment.compile_conforms Experiment.compile_worked
  exact ⟨hcheck, hrender, hnamed (by decide)⟩

end Paradigm
