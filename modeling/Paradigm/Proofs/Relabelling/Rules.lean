/-
Module: Paradigm.Proofs.Relabelling.Rules
Layer: Proofs
Purpose: Rules read identifiers only to compare them. The check of a relabelled node corresponds to
  the check of the node: both pass, or both are refused for the same cause, as long as different
  identifiers of blocks stay different. The warnings of both checks correspond too.
Imports: Paradigm.Rules.Block, Paradigm.Proofs.Relabelling.Reports
Main exports: Guard.check_relabel, Choice.check_relabel, Page.check_relabel, Item.check_relabel,
  Block.check_relabel, Block.notices_relabel, Experiment.check_relabel, Experiment.notices_relabel
-/
import Paradigm.Proofs.Relabelling.Reports
import Paradigm.Rules.Block

namespace Paradigm

variable {r : Relabelling} {owner owner' : String}

/-! ### Guards -/

theorem checkPattern_relabel (hnode : r.Takes owner owner') (pattern : String) :
    Verdict.Relabelled r (checkPattern owner pattern) (checkPattern owner' pattern) :=
  .require _ hnode (.invalidPattern pattern)

/-- The check of a guard counts and compares what is there, whatever it is called. -/
theorem Guard.check_relabel (hnode : r.Takes owner owner') (g : Guard) :
    Verdict.Relabelled r (g.check owner) ((g.relabel r).check owner') := by
  obtain ⟨item, page, choice, regex, permutation⟩ := g
  unfold Guard.check Guard.targetCount Guard.relabel
  simp only [Option.isSome_map]
  apply Verdict.Relabelled.seq (.require _ hnode (.guardTargets _))
  apply Verdict.Relabelled.seq (.require _ hnode .guardChoiceAndRegex)
  apply Verdict.Relabelled.seq (.require _ hnode .guardPermutationTest)
  cases item with
  | none =>
      cases regex with
      | none => exact .ok
      | some pattern => exact checkPattern_relabel hnode pattern
  | some handle =>
      apply Verdict.Relabelled.seq (.require _ hnode (.watchedPages handle.id handle.pages))
      cases regex with
      | none => exact .ok
      | some pattern => exact checkPattern_relabel hnode pattern

theorem Guard.checkOption_relabel (hnode : r.Takes owner owner') (g : Option Guard) :
    Verdict.Relabelled r (Guard.checkOption g owner)
      (Guard.checkOption (g.map (Guard.relabel r)) owner') := by
  cases g with
  | none => exact .ok
  | some guard => exact guard.check_relabel hnode

/-! ### Pages and items -/

theorem Feedback.check_relabel (hnode : r.Takes owner owner') (feedback : Option Feedback) :
    Verdict.Relabelled r (Feedback.check feedback owner)
      (Feedback.check (feedback.map (Feedback.relabel r)) owner') := by
  rcases feedback with _ | (label | shown)
  · exact .ok
  · rw [Option.map_some, Feedback.relabel]
    exact .ok
  · rw [Option.map_some, Feedback.relabel, Feedback.check, Feedback.check, Page.relabel_eq,
      List.isEmpty_map]
    exact .require _ hnode (.feedbackWithChoices shown.id)

theorem Choice.check_relabel (choice : Choice) :
    Verdict.Relabelled r choice.check (choice.relabel r).check := by
  rw [Choice.check, Choice.check, Choice.relabel_eq]
  exact Feedback.check_relabel (.node .choice choice.id) choice.feedback

/-- What a node is listed with, and what the relabelled node is listed with. -/
def Relabelling.TakesEntry {α : Type} (r : Relabelling) (entry entry' : String × α) : Prop :=
  r.Takes entry.1 entry'.1 ∧ entry'.2 = entry.2

/-- Nodes that are listed with a value which no identifier is part of. -/
theorem Relabelling.takesEntries {α β : Type} {change : α → α} {read : α → String × β}
    (h : ∀ x, r.TakesEntry (read x) (read (change x))) (xs : List α) :
    List.Forall₂ r.TakesEntry (xs.map read) ((xs.map change).map read) := by
  induction xs with
  | nil => exact .nil
  | cons x rest ih => exact .cons (h x) ih

theorem Page.answerKeys_relabel (page : Page) :
    List.Forall₂ r.TakesEntry page.answerKeys (page.relabel r).answerKeys := by
  have hchoices : List.Forall₂ r.TakesEntry
      (page.choices.map fun choice => (choice.id, choice.correct))
      ((page.choices.map (Choice.relabel r)).map fun choice => (choice.id, choice.correct)) := by
    apply Relabelling.takesEntries
    intro choice
    rw [Choice.relabel_eq]
    exact ⟨.node .choice choice.id, rfl⟩
  rw [Page.answerKeys, Page.answerKeys, Page.relabel_eq]
  exact List.rel_append hchoices (.cons ⟨.node .page page.id, rfl⟩ .nil)

theorem checkTextBoxKey_relabel {key key' : String × Option AnswerKey}
    (h : r.TakesEntry key key') :
    Verdict.Relabelled r (checkTextBoxKey key) (checkTextBoxKey key') := by
  obtain ⟨node, answer⟩ := key
  obtain ⟨node', answer'⟩ := key'
  obtain ⟨hnode, rfl⟩ := h
  rcases answer' with _ | (flag | pattern)
  · exact .ok
  · exact .refuse hnode .flagOnTextBox
  · exact checkPattern_relabel hnode pattern

theorem checkChoiceKey_relabel {key key' : String × Option AnswerKey} (h : r.TakesEntry key key') :
    Verdict.Relabelled r (checkChoiceKey key) (checkChoiceKey key') := by
  obtain ⟨node, answer⟩ := key
  obtain ⟨node', answer'⟩ := key'
  obtain ⟨hnode, rfl⟩ := h
  rcases answer' with _ | (flag | pattern)
  · exact .ok
  · exact .ok
  · exact .refuse hnode (.patternOnChoice pattern)

theorem Page.checkAnswers_relabel (page : Page) :
    Verdict.Relabelled r page.checkAnswers (page.relabel r).checkAnswers := by
  have hkeys := page.answerKeys_relabel (r := r)
  have hfreetext : (page.relabel r).isFreetext = page.isFreetext := by
    rw [Page.isFreetext, Page.isFreetext, Page.relabel_eq]
  have hlength : (page.relabel r).choices.length = page.choices.length := by
    rw [Page.relabel_eq, List.length_map]
  have hnode : r.Takes page.id (page.relabel r).id := by
    rw [Page.relabel_eq]
    exact .node .page page.id
  rw [Page.checkAnswers, Page.checkAnswers, hfreetext, hlength]
  split
  · apply Verdict.Relabelled.seq (.require _ hnode (.textBoxChoices _))
    exact .checkAll (hkeys.imp fun _ _ => checkTextBoxKey_relabel)
  · exact .checkAll (hkeys.imp fun _ _ => checkChoiceKey_relabel)

theorem Page.checkKeyboard_relabel (page : Page) :
    Verdict.Relabelled r page.checkKeyboard (page.relabel r).checkKeyboard := by
  have hnode : r.Takes page.id (r.name .page page.id) := .node .page page.id
  unfold Page.checkKeyboard
  rw [Page.relabel_eq]
  simp only [List.length_map]
  rcases page.keyboard with _ | ((_ | _) | names)
  · exact .ok
  · exact .ok
  · exact .require _ hnode (.standardKeys _)
  · exact .require _ hnode (.keyCount _ _)

/-- The check of a relabelled page corresponds to that of the page. -/
theorem Page.check_relabel (page : Page) :
    Verdict.Relabelled r page.check (page.relabel r).check := by
  have hnode : r.Takes page.id (r.name .page page.id) := .node .page page.id
  have hfeedback := Feedback.check_relabel hnode page.feedback
  have hguard := Guard.checkOption_relabel hnode page.guard
  apply Verdict.Relabelled.seq page.checkAnswers_relabel
  apply Verdict.Relabelled.seq page.checkKeyboard_relabel
  rw [Page.relabel_eq]
  exact .seq hfeedback hguard

theorem Item.pageCount_relabel (item : Item) : (item.relabel r).pageCount = item.pageCount := by
  unfold Item.pageCount Item.relabel
  cases item.contents <;> simp [ItemContents.relabel]

theorem Item.pages_relabel (item : Item) :
    (item.relabel r).pages = item.pages.map (Page.relabel r) := by
  unfold Item.pages Item.relabel
  cases item.contents <;> simp [ItemContents.relabel]

theorem Item.check_relabel (item : Item) :
    Verdict.Relabelled r item.check (item.relabel r).check := by
  have hnode : r.Takes item.id (r.name .item item.id) := .node .item item.id
  unfold Item.check
  rw [Item.pageCount_relabel]
  apply Verdict.Relabelled.seq (.require _ hnode .emptyItem)
  exact Guard.checkOption_relabel hnode item.guard

/-! ### Banks -/

theorem checkRecord_relabel (hnode : r.Takes owner owner') (name : String) (fields : List String)
    (entry : BankEntry) : Verdict.Relabelled r (checkRecord owner name fields entry)
      (checkRecord owner' name fields entry) := by
  cases entry with
  | text value => exact .refuse hnode (.mixedBank name)
  | record record => exact .require _ hnode (.unequalFields name)

theorem checkBank_relabel (hnode : r.Takes owner owner') (name : String) (bank : Bank) :
    Verdict.Relabelled r (checkBank owner name bank) (checkBank owner' name bank) := by
  rcases bank with _ | ⟨value | record, rest⟩
  · exact .refuse hnode (.emptyBank name)
  · exact .require _ hnode (.mixedBank name)
  · exact .checkAll (List.forall₂_same.mpr fun entry _ =>
      checkRecord_relabel hnode name record.keys entry)

theorem checkBanks_relabel (hnode : r.Takes owner owner') (banks : Banks) :
    Verdict.Relabelled r (checkBanks owner banks) (checkBanks owner' banks) :=
  .checkAll (List.forall₂_same.mpr fun declared _ =>
    checkBank_relabel hnode declared.1 declared.2)

/-! ### References -/

theorem references_map (f : String → String) (exchangeable counterbalance : List String)
    (treatments : List (List String)) :
    references (exchangeable.map f) (counterbalance.map f) (treatments.map (List.map f))
      = (references exchangeable counterbalance treatments).map fun ref => (ref.1, f ref.2) := by
  simp [references, List.map_flatten, Function.comp_def]

theorem contains_map_of_injective {f : String → String} (hf : Function.Injective f)
    (names : List String) (name : String) :
    (names.map f).contains (f name) = names.contains name := by
  rw [Bool.eq_iff_iff, List.contains_iff_mem, List.contains_iff_mem, List.mem_map_of_injective hf]

/-- A reference names a child where the relabelled one names the relabelled child. -/
theorem checkReferences_relabel (hnode : r.Takes owner owner')
    (hr : Function.Injective (r.name .block)) (children : List Block)
    (refs : List (ReferenceList × String)) :
    Verdict.Relabelled r (checkReferences owner children refs)
      (checkReferences owner' (children.map (Block.relabel r))
        (refs.map fun ref => (ref.1, r.name .block ref.2))) := by
  have hids : (children.map (Block.relabel r)).map (·.id)
      = (children.map (·.id)).map (r.name .block) := by
    simp [Block.relabel_eq]
  apply Verdict.Relabelled.checkAll_map
  intro ref
  rw [hids, contains_map_of_injective hr]
  exact .require _ hnode (.strayReference ref.1 ref.2)

theorem Block.contentKinds_relabel (block : Block) :
    (block.relabel r).contentKinds = block.contentKinds := by
  simp [Block.contentKinds, Block.relabel_eq]

theorem Block.takes_id (block : Block) : r.Takes block.id (block.relabel r).id := by
  rw [Block.relabel_eq]
  exact .node .block block.id

theorem Block.checkContents_relabel (block : Block) :
    Verdict.Relabelled r block.checkContents (block.relabel r).checkContents := by
  rw [Block.checkContents, Block.checkContents, Block.contentKinds_relabel]
  exact .require _ block.takes_id (.contentKinds _)

theorem Block.checkReferences_relabel (hr : Function.Injective (r.name .block)) (block : Block) :
    Verdict.Relabelled r block.checkReferences (block.relabel r).checkReferences := by
  have hrefs : (block.relabel r).references
      = block.references.map fun ref => (ref.1, r.name .block ref.2) := by
    rw [Block.references, Block.references, Block.relabel_eq]
    exact references_map _ _ _ _
  have hany : (block.relabel r).hasReferences = block.hasReferences := by
    simp [Block.hasReferences, Block.relabel_eq]
  have hnode : r.Takes block.id (r.name .block block.id) := .node .block block.id
  rw [Block.checkReferences, Block.checkReferences, hrefs, hany]
  cases block.hasReferences with
  | false => exact .ok
  | true =>
      rw [Block.relabel_eq]
      cases block.blocks with
      | none => exact .refuse hnode .referencesWithoutBlocks
      | some children => exact Paradigm.checkReferences_relabel hnode hr children _

/-! ### Ordering policies -/

theorem Block.checkLatinSquare_relabel (block : Block) :
    Verdict.Relabelled r block.checkLatinSquare (block.relabel r).checkLatinSquare := by
  have hnode : r.Takes block.id (r.name .block block.id) := .node .block block.id
  unfold Block.checkLatinSquare
  rw [Block.relabel_eq]
  split
  · rcases block.groups with _ | _ | ⟨first, rest⟩
    · exact .refuse hnode .latinSquareWithoutGroups
    · exact .ok
    · simp only [Option.map_some, List.map_cons, List.all_map, Function.comp_def, List.length_map]
      exact .require _ hnode .unequalGroups
  · exact .ok

/-- A member has its condition under whatever name. -/
theorem Block.literalCondition_relabel (block : Block) {member member' : String × Option Text}
    (h : r.TakesEntry member member') :
    Outcome.Relabelled r (fun condition => condition) (block.literalCondition member)
      ((block.relabel r).literalCondition member') := by
  obtain ⟨node, condition⟩ := member
  obtain ⟨node', condition'⟩ := member'
  obtain ⟨hnode, rfl⟩ := h
  have hid : (block.relabel r).id = r.name .block block.id := by rw [Block.relabel_eq]
  unfold Block.literalCondition
  rw [hid]
  rcases condition' with _ | (condition | p)
  · exact .refuse hnode (.conditionMissing block.id)
  · exact .same condition
  · exact .refuse hnode (.sampledCondition block.id)

theorem Block.literalConditions_relabel (block : Block)
    {members members' : List (String × Option Text)}
    (h : List.Forall₂ r.TakesEntry members members') :
    Outcome.Relabelled r (fun conditions => conditions) (block.literalConditions members)
      ((block.relabel r).literalConditions members') := by
  induction h with
  | nil => exact .same []
  | cons head tail ih =>
      apply Outcome.Relabelled.bind (block.literalCondition_relabel head)
      intro condition
      apply Outcome.Relabelled.bind ih
      intro others
      exact .pure rfl

theorem Item.effectiveCondition_relabel (item : Item) :
    (item.relabel r).effectiveCondition = item.effectiveCondition := by
  rw [Item.effectiveCondition, Item.effectiveCondition, Item.pages_relabel, List.head?_map]
  cases item.pages.head? with
  | none => rfl
  | some page => simp [Item.relabel, Page.relabel_eq]

theorem Item.members_relabel (items : List Item) :
    List.Forall₂ r.TakesEntry (items.map Item.member)
      ((items.map (Item.relabel r)).map Item.member) := by
  apply Relabelling.takesEntries
  intro item
  exact ⟨.node .item item.id, item.effectiveCondition_relabel⟩

theorem Page.members_relabel (pages : List Page) :
    List.Forall₂ r.TakesEntry (pages.map fun page => (page.id, page.condition))
      ((pages.map (Page.relabel r)).map fun page => (page.id, page.condition)) := by
  apply Relabelling.takesEntries
  intro page
  rw [Page.relabel_eq]
  exact ⟨.node .page page.id, rfl⟩

/-- Conditions are balanced, or there are none, whatever their nodes are called. -/
theorem Block.checkPseudorandom_relabel (block : Block) :
    Verdict.Relabelled r block.checkPseudorandom (block.relabel r).checkPseudorandom := by
  have hconditions := @Block.literalConditions_relabel r block
  have hnode := block.takes_id (r := r)
  have hgroups : (block.relabel r).groups
      = block.groups.map (List.map (List.map (Item.relabel r))) := by rw [Block.relabel_eq]
  have hpages : (block.relabel r).pages = block.pages.map (List.map (Page.relabel r)) := by
    rw [Block.relabel_eq]
  have hitems : (block.relabel r).items = block.items.map (List.map (Item.relabel r)) := by
    rw [Block.relabel_eq]
  have hrandom : (block.relabel r).pseudorandom = block.pseudorandom := by rw [Block.relabel_eq]
  have hsquare : (block.relabel r).latinSquare = block.latinSquare := by rw [Block.relabel_eq]
  rw [Block.checkPseudorandom, Block.checkPseudorandom, hrandom, hsquare, hgroups, hpages, hitems]
  cases block.pseudorandom == some true with
  | false => exact .ok
  | true =>
      rcases block.groups with _ | groups
      · rcases block.pages with _ | pages
        · rcases block.items with _ | items
          · exact .refuse hnode .pseudorandomBlocks
          · exact .bind (hconditions (Item.members_relabel items)) fun _ => .pure rfl
        · exact .bind (hconditions (Page.members_relabel pages)) fun _ => .pure rfl
      · cases block.latinSquare == some true with
        | false => exact .refuse hnode .pseudorandomGroups
        | true =>
            have hmembers := Item.members_relabel (r := r) groups.flatten
            rw [List.map_flatten (f := Item.relabel r)] at hmembers
            apply Outcome.Relabelled.bind (hconditions hmembers)
            intro conditions
            exact Verdict.Relabelled.require _ hnode .unequalConditions

theorem Block.checkRepetition_relabel (block : Block) :
    Verdict.Relabelled r block.checkRepetition (block.relabel r).checkRepetition := by
  have hnode : r.Takes block.id (r.name .block block.id) := .node .block block.id
  have hcutoff : Verdict.Relabelled r (require (block.cutoff != some 0) block.id .emptyCutoff)
      (require (block.cutoff != some 0) (r.name .block block.id) .emptyCutoff) :=
    .require _ hnode .emptyCutoff
  unfold Block.checkRepetition
  rw [Block.relabel_eq]
  rcases block.criterion with _ | (length | share)
  · exact hcutoff
  · exact .seq (.require _ hnode .emptyStreak) hcutoff
  · exact .seq (.require _ hnode (.proportionRange share)) hcutoff

/-! ### Blocks and experiments -/

/-- The check of a relabelled block corresponds to that of the block. -/
theorem Block.check_relabel (hr : Function.Injective (r.name .block)) (block : Block) :
    Verdict.Relabelled r block.check (block.relabel r).check := by
  have hnode : r.Takes block.id (r.name .block block.id) := .node .block block.id
  have hbanks := checkBanks_relabel hnode block.banks
  have hguard := Guard.checkOption_relabel hnode block.guard
  apply Verdict.Relabelled.seq block.checkContents_relabel
  apply Verdict.Relabelled.seq (block.checkReferences_relabel hr)
  apply Verdict.Relabelled.seq block.checkLatinSquare_relabel
  apply Verdict.Relabelled.seq block.checkPseudorandom_relabel
  apply Verdict.Relabelled.seq block.checkRepetition_relabel
  rw [Block.relabel_eq]
  exact .seq hbanks hguard

/-- Warnings beside those about the relabelled nodes. -/
abbrev Warnings.Relabelled (r : Relabelling) (warnings warnings' : List Warning) : Prop :=
  List.Forall₂ (Warning.Relabelled r) warnings warnings'

theorem sharedPermutation_relabel (hnode : r.Takes owner owner') (f : String → String)
    (counterbalance : List String) (treatments : List (List String)) :
    Warnings.Relabelled r (sharedPermutation owner counterbalance treatments)
      (sharedPermutation owner' (counterbalance.map f) (treatments.map (List.map f))) := by
  rw [sharedPermutation, sharedPermutation, List.isEmpty_map, List.isEmpty_map]
  split
  · exact .nil
  · exact .cons (.sharedPermutation hnode) .nil

/-- The warnings about a relabelled block are those about the block, about the relabelled node. -/
theorem Block.notices_relabel (hr : Function.Injective (r.name .block)) (block : Block) :
    Warnings.Relabelled r block.notices (block.relabel r).notices := by
  have hcontents := block.checkContents_relabel (r := r)
  have hreferences := block.checkReferences_relabel hr
  have hshared := sharedPermutation_relabel (r := r) (.node .block block.id) (r.name .block)
    block.counterbalance block.treatments
  unfold Block.notices
  generalize block.checkContents = contents at hcontents ⊢
  generalize (block.relabel r).checkContents = contents' at hcontents ⊢
  generalize block.checkReferences = references at hreferences ⊢
  generalize (block.relabel r).checkReferences = references' at hreferences ⊢
  rw [Block.relabel_eq]
  cases hcontents with
  | error report => exact .nil
  | ok u =>
      cases hreferences with
      | error report => exact .nil
      | ok u => exact hshared

theorem Experiment.checkReferences_relabel (hr : Function.Injective (r.name .block))
    (e : Experiment) : Verdict.Relabelled r e.checkReferences (e.relabel r).checkReferences := by
  have hall := Paradigm.checkReferences_relabel .root hr e.blocks
    (references e.exchangeable e.counterbalance e.treatments)
  rwa [← references_map] at hall

theorem Experiment.check_relabel (hr : Function.Injective (r.name .block)) (e : Experiment) :
    Verdict.Relabelled r e.check (e.relabel r).check :=
  .seq (e.checkReferences_relabel hr) (checkBanks_relabel .root e.banks)

theorem Experiment.notices_relabel (hr : Function.Injective (r.name .block)) (e : Experiment) :
    Warnings.Relabelled r e.notices (e.relabel r).notices := by
  have hreferences := e.checkReferences_relabel hr
  have hshared := sharedPermutation_relabel (r := r) .root (r.name .block) e.counterbalance
    e.treatments
  unfold Experiment.notices
  generalize e.checkReferences = references at hreferences ⊢
  generalize (e.relabel r).checkReferences = references' at hreferences ⊢
  cases hreferences with
  | error report => exact .nil
  | ok u => exact hshared

end Paradigm
