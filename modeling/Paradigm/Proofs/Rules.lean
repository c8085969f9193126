/-
Module: Paradigm.Proofs.Rules
Layer: Proofs
Purpose: What it takes for nodes to pass their checks. The check of a node passes where each of its
  rules does; what single rules demand is read off beside them.
Imports: Paradigm.Proofs.Step, Paradigm.Rules.Block
Main exports: Guard.Checked, Page.Checked, Item.Checked, Block.Checked, Experiment.Checked,
  Guard.check_eq_ok_iff, Block.check_eq_ok_iff, checkReferences_eq_ok_iff,
  Block.checkReferences_eq_ok_iff, Block.forall_references_of_check,
  mem_children_of_checkReferences, Block.mem_children_of_checkReferences, ne_nil_of_checkBanks
-/
import Paradigm.Proofs.Step
import Paradigm.Rules.Block

namespace Paradigm

/-! ### Guards -/

/-- The rules of a guard. -/
structure Guard.Checked (g : Guard) : Prop where
  target : g.targetCount = 1
  test : g.choice = none ∨ g.regex = none
  beside : g.permutation.isSome = true → g.choice = none ∧ g.regex = none
  watched : ∀ item, g.item = some item → item.pages = 1
  pattern : ∀ regex, g.regex = some regex → Pattern.isValid regex = true

theorem checkPattern_eq_ok_iff {node pattern : String} :
    checkPattern node pattern = .ok () ↔ Pattern.isValid pattern = true :=
  require_eq_ok_iff

theorem Guard.check_eq_ok_iff {g : Guard} {owner : String} :
    g.check owner = .ok () ↔ g.Checked := by
  have htest : (!(g.choice.isSome && g.regex.isSome)) = true
      ↔ (g.choice = none ∨ g.regex = none) := by
    cases g.choice <;> cases g.regex <;> simp
  have hbeside : (!(g.permutation.isSome && (g.choice.isSome || g.regex.isSome))) = true
      ↔ (g.permutation.isSome = true → g.choice = none ∧ g.regex = none) := by
    cases g.permutation <;> simp
  simp only [Guard.check, Verdict.seq_eq_ok_iff, require_eq_ok_iff, beq_iff_eq, htest, hbeside]
  constructor
  · rintro ⟨htarget, htest, hbeside, hrest⟩
    refine ⟨htarget, htest, hbeside, ?_, ?_⟩
    · intro item hitem
      simp only [hitem, Verdict.seq_eq_ok_iff, require_eq_ok_iff, beq_iff_eq] at hrest
      exact hrest.1
    · intro regex hregex
      cases hitem : g.item with
      | none =>
          simp only [hitem, hregex] at hrest
          exact checkPattern_eq_ok_iff.mp hrest
      | some item =>
          simp only [hitem, hregex, Verdict.seq_eq_ok_iff] at hrest
          exact checkPattern_eq_ok_iff.mp hrest.2
  · rintro ⟨htarget, htest, hbeside, hwatched, hpattern⟩
    refine ⟨htarget, htest, hbeside, ?_⟩
    have hcount : ∀ item, g.item = some item →
        require (item.pages == 1) owner (.watchedPages item.id item.pages) = .ok () :=
      fun item hitem => require_eq_ok_iff.mpr (beq_iff_eq.mpr (hwatched item hitem))
    cases hregex : g.regex with
    | none =>
        cases hitem : g.item with
        | none => rfl
        | some item => exact Verdict.seq_eq_ok_iff.mpr ⟨hcount item hitem, rfl⟩
    | some regex =>
        have hvalid : checkPattern owner regex = .ok () :=
          checkPattern_eq_ok_iff.mpr (hpattern regex hregex)
        cases hitem : g.item with
        | none => exact hvalid
        | some item => exact Verdict.seq_eq_ok_iff.mpr ⟨hcount item hitem, hvalid⟩

/-! ### Pages and items -/

/-- The rules of a page. -/
structure Page.Checked (page : Page) : Prop where
  answers : page.checkAnswers = .ok ()
  keyboard : page.checkKeyboard = .ok ()
  feedback : Feedback.check page.feedback page.id = .ok ()
  guard : Guard.checkOption page.guard page.id = .ok ()

theorem Page.check_eq_ok_iff {page : Page} : page.check = .ok () ↔ page.Checked := by
  simp only [Page.check, Verdict.seq_eq_ok_iff]
  constructor
  · intro hall
    rcases hall with ⟨hanswers, hkeyboard, hfeedback, hguard⟩
    exact ⟨hanswers, hkeyboard, hfeedback, hguard⟩
  · intro hchecked
    exact ⟨hchecked.answers, hchecked.keyboard, hchecked.feedback, hchecked.guard⟩

/-- The rules of an item. -/
structure Item.Checked (item : Item) : Prop where
  pages : item.pageCount ≠ 0
  guard : Guard.checkOption item.guard item.id = .ok ()

theorem Item.check_eq_ok_iff {item : Item} : item.check = .ok () ↔ item.Checked := by
  simp only [Item.check, Verdict.seq_eq_ok_iff, require_eq_ok_iff, bne_iff_ne]
  constructor
  · intro hall
    rcases hall with ⟨hpages, hguard⟩
    exact ⟨hpages, hguard⟩
  · intro hchecked
    exact ⟨hchecked.pages, hchecked.guard⟩

/-! ### Blocks -/

theorem Block.length_contentKinds (block : Block) : block.contentKinds.length
    = [block.pages.isSome, block.items.isSome, block.groups.isSome, block.blocks.isSome].count
        true := by
  unfold Block.contentKinds
  cases block.pages.isSome <;> cases block.items.isSome <;> cases block.groups.isSome <;>
    cases block.blocks.isSome <;> rfl

/-- The rules of a block. -/
structure Block.Checked (block : Block) : Prop where
  contents : [block.pages.isSome, block.items.isSome, block.groups.isSome,
    block.blocks.isSome].count true = 1
  references : block.checkReferences = .ok ()
  latinSquare : block.checkLatinSquare = .ok ()
  pseudorandom : block.checkPseudorandom = .ok ()
  repetition : block.checkRepetition = .ok ()
  banks : checkBanks block.id block.banks = .ok ()
  guard : Guard.checkOption block.guard block.id = .ok ()

theorem Block.check_eq_ok_iff {block : Block} : block.check = .ok () ↔ block.Checked := by
  simp only [Block.check, Block.checkContents, Verdict.seq_eq_ok_iff, require_eq_ok_iff, beq_iff_eq,
    Block.length_contentKinds]
  constructor
  · intro hall
    rcases hall with ⟨hcontents, hreferences, hsquare, hpseudorandom, hrepetition, hbanks, hguard⟩
    exact ⟨hcontents, hreferences, hsquare, hpseudorandom, hrepetition, hbanks, hguard⟩
  · intro hchecked
    exact ⟨hchecked.contents, hchecked.references, hchecked.latinSquare, hchecked.pseudorandom,
      hchecked.repetition, hchecked.banks, hchecked.guard⟩

/-- The rules of the root. -/
structure Experiment.Checked (e : Experiment) : Prop where
  references : e.checkReferences = .ok ()
  banks : checkBanks Experiment.node e.banks = .ok ()

theorem Experiment.check_eq_ok_iff {e : Experiment} : e.check = .ok () ↔ e.Checked := by
  rw [Experiment.check, Verdict.seq_eq_ok_iff]
  constructor
  · intro hall
    rcases hall with ⟨hreferences, hbanks⟩
    exact ⟨hreferences, hbanks⟩
  · intro hchecked
    exact ⟨hchecked.references, hchecked.banks⟩

/-! ### Single rules -/

/-- References are in order where the blocks that are referred to are children. -/
theorem checkReferences_eq_ok_iff {owner : String} {children : List Block}
    {refs : List (ReferenceList × String)} :
    checkReferences owner children refs = .ok () ↔
      ∀ ref ∈ refs, ref.2 ∈ children.map (·.id) := by
  simp only [checkReferences, checkAll_eq_ok_iff, require_eq_ok_iff, List.contains_iff_mem]

theorem forall_references_of_check {owner : String} {children : List Block}
    {refs : List (ReferenceList × String)} (h : checkReferences owner children refs = .ok ()) :
    ∀ ref ∈ refs, ref.2 ∈ children.map (·.id) :=
  checkReferences_eq_ok_iff.mp h

/-- The references of a block are in order where it has blocks if it refers to any, and refers to
those only. -/
theorem Block.checkReferences_eq_ok_iff {block : Block} : block.checkReferences = .ok () ↔
    (block.hasReferences = true → block.blocks.isSome = true) ∧
      ∀ ref ∈ block.references, ref.2 ∈ (block.blocks.getD []).map (·.id) := by
  unfold Block.checkReferences
  by_cases hreferences : block.hasReferences = true
  · rw [if_pos hreferences]
    cases hblocks : block.blocks with
    | none => simp [refuse, hreferences]
    | some children => simp [Paradigm.checkReferences_eq_ok_iff]
  · rw [if_neg hreferences]
    -- All lists are empty.
    simp only [Block.hasReferences, Bool.not_eq_true, Bool.or_eq_false_iff,
      Bool.not_eq_false', List.isEmpty_iff] at hreferences
    obtain ⟨⟨hexchangeable, hcounterbalance⟩, htreatments⟩ := hreferences
    simp [Block.hasReferences, Block.references, Paradigm.references, hexchangeable,
      hcounterbalance, htreatments]

theorem Block.forall_references_of_check {block : Block} (h : block.checkReferences = .ok ()) :
    ∀ ref ∈ block.references, ref.2 ∈ (block.blocks.getD []).map (·.id) :=
  (Block.checkReferences_eq_ok_iff.mp h).2

/-- Blocks named for an order are referred to. -/
theorem mem_references_of_order {exchangeable counterbalance : List String} {id : String}
    (h : id ∈ exchangeable ++ counterbalance) (treatments : List (List String)) :
    ∃ list, (list, id) ∈ references exchangeable counterbalance treatments := by
  unfold references
  rcases List.mem_append.mp h with h | h
  · exact ⟨.exchangeable, by simp [h]⟩
  · exact ⟨.counterbalance, by simp [h]⟩

/-- Without its treatments a node refers to no other blocks. -/
theorem mem_references_of_untreated {exchangeable counterbalance : List String}
    {ref : ReferenceList × String} (h : ref ∈ references exchangeable counterbalance [])
    (treatments : List (List String)) :
    ref ∈ references exchangeable counterbalance treatments := by
  rw [references, List.flatten_nil, List.map_nil, List.append_nil] at h
  exact List.mem_append_left _ h

/-- Blocks named for an order are children. -/
theorem mem_children_of_checkReferences {owner : String} {children : List Block}
    {exchangeable counterbalance : List String} {treatments : List (List String)}
    (h : checkReferences owner children (references exchangeable counterbalance treatments)
      = .ok ()) :
    ∀ id ∈ exchangeable ++ counterbalance, id ∈ children.map (·.id) := by
  intro id hid
  obtain ⟨list, hlist⟩ := mem_references_of_order hid treatments
  exact forall_references_of_check h _ hlist

theorem Block.mem_children_of_checkReferences {block : Block}
    (h : block.checkReferences = .ok ()) :
    ∀ id ∈ block.exchangeable ++ block.counterbalance,
      id ∈ (block.blocks.getD []).map (·.id) := by
  intro id hid
  obtain ⟨list, hlist⟩ := mem_references_of_order hid block.treatments
  exact Block.forall_references_of_check h _ hlist

/-- Banks in order have values. -/
theorem ne_nil_of_checkBanks {owner : String} {banks : Banks}
    (h : checkBanks owner banks = .ok ()) : ∀ declared ∈ banks.entries, declared.2 ≠ [] := by
  unfold checkBanks at h
  rw [checkAll_eq_ok_iff] at h
  intro declared hdeclared hnil
  have hbank := h declared hdeclared
  rw [hnil] at hbank
  simp [checkBank, refuse] at hbank

end Paradigm
