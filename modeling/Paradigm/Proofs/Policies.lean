/-
Module: Paradigm.Proofs.Policies
Layer: Proofs
Purpose: The policies of blocks. What the rules for contents, order, repetition and banks read of a
  block is its form, which the blocks of a tree and of a document have alike. The rules are stated
  of forms: a block of the tree that passes its check has a form that fits, and resolution keeps
  forms, with the condition that counts for an item read off the pages that it has after expansion.
  The trials are a latin square whose items are ordered by their conditions.
Imports: Paradigm.Proofs.Conformance
Main exports: BlockForm, BlockForm.Fits, Issuing.map_literal_conditions, balanced_iff,
  Block.checkLatinSquare_eq_ok_iff, Block.checkPseudorandom_eq_ok_iff, checkBank_eq_ok_iff,
  Block.check_eq_ok_iff_fits, Block.Resolved.form_eq, Experiment.compile_policies
-/
import Paradigm.Proofs.Conformance

namespace Paradigm

/-! ### Conditions -/

/-- The text itself where it is not drawn. -/
def Text.literal? : Text → Option String
  | .literal value => some value
  | .sample _ => none

/-- The text itself where it is not drawn. -/
def Document.Text.literal? : Document.Text → Option String
  | .literal value => some value
  | .sample _ => none

/-- The condition that counts for an item of the document: its own, or else that of its first
page. -/
def Document.Item.effectiveCondition (item : Document.Item) : Option Document.Text :=
  item.condition.or (item.pages.head?.bind (·.condition))

/-! ### Forms of blocks -/

/-- What policies read of a block: its contents by the conditions of their members, where these are
literal, and its settings. -/
structure BlockForm where
  pages : Option (List (Option String))
  items : Option (List (Option String))
  groups : Option (List (List (Option String)))
  holdsBlocks : Bool
  exchangeable : List String
  counterbalance : List String
  latinSquare : Option Bool
  pseudorandom : Option Bool
  criterion : Option Criterion
  cutoff : Option UInt32
  banks : Banks

/-- Every member has a literal condition. -/
def AllLiteral (members : List (Option String)) : Prop := ∀ member ∈ members, member.isSome = true

/-- All that occur do so equally often. -/
def Balanced {α : Type} [BEq α] (members : List α) : Prop :=
  ∀ one ∈ members, ∀ other ∈ members, members.count one = members.count other

/-- All groups have one length. -/
def SameLength {α : Type} (groups : List (List α)) : Prop :=
  ∀ one ∈ groups, ∀ other ∈ groups, one.length = other.length

/-- The members of a block can be ordered by their conditions: its pages, its items, or the items of
a latin square whose conditions are balanced over all groups. -/
inductive BlockForm.Orderable (form : BlockForm) : Prop where
  | pages {members : List (Option String)} (contents : form.pages = some members)
      (literal : AllLiteral members)
  | items {members : List (Option String)} (contents : form.items = some members)
      (literal : AllLiteral members)
  | groups {members : List (List (Option String))} (contents : form.groups = some members)
      (square : form.latinSquare = some true) (literal : AllLiteral members.flatten)
      (balanced : Balanced members.flatten)

/-- A criterion that answers can meet: a streak of at least one, or a share above zero and at most
one, compared as exact numbers. -/
def Criterion.Meetable : Criterion → Prop
  | .streak length => 1 ≤ length
  | .proportion share => share.isFinite = true ∧ 0 < share.signedUnits ∧
      share.signedUnits ≤ Binary64.unitsPerOne

/-- All values of a bank are texts. -/
def Bank.OfTexts (bank : Bank) : Prop := ∀ entry ∈ bank, ∃ value, entry = .text value

/-- All values of a bank are records with the same keys. -/
def Bank.OfRecords (bank : Bank) : Prop :=
  ∃ fields : List String, ∀ entry ∈ bank, ∃ record, entry = .record record ∧
    ∀ name, name ∈ record.keys ↔ name ∈ fields

/-- A bank has values, and they are all texts or all records with one set of keys. -/
structure Bank.Uniform (bank : Bank) : Prop where
  nonempty : bank ≠ []
  entries : bank.OfTexts ∨ bank.OfRecords

/-- The policies of a block fit its contents. -/
structure BlockForm.Fits (form : BlockForm) : Prop where
  /-- There is exactly one kind of contents. -/
  contents : [form.pages.isSome, form.items.isSome, form.groups.isSome, form.holdsBlocks].count true
    = 1
  exchangeable : form.exchangeable ≠ [] → form.holdsBlocks = true
  counterbalance : form.counterbalance ≠ [] → form.holdsBlocks = true
  /-- A latin square is of groups of one length. -/
  square : form.latinSquare = some true → ∃ groups, form.groups = some groups ∧ SameLength groups
  order : form.pseudorandom = some true → form.Orderable
  criterion : ∀ c, form.criterion = some c → c.Meetable
  cutoff : ∀ runs, form.cutoff = some runs → 1 ≤ runs
  banks : ∀ declared ∈ form.banks.entries, declared.2.Uniform

/-- The form of a block of the tree. -/
def Block.form (block : Block) : BlockForm where
  pages := block.pages.map (·.map fun page => page.condition.bind Text.literal?)
  items := block.items.map (·.map fun item => item.effectiveCondition.bind Text.literal?)
  groups := block.groups.map
    (·.map (·.map fun item => item.effectiveCondition.bind Text.literal?))
  holdsBlocks := block.blocks.isSome
  exchangeable := block.exchangeable
  counterbalance := block.counterbalance
  latinSquare := block.latinSquare
  pseudorandom := block.pseudorandom
  criterion := block.criterion
  cutoff := block.cutoff
  banks := block.banks

/-- What policies read of pages, of items and of groups stays as it is in steps that keep the
conditions of single pages and items. -/
theorem Issuing.map_literal_conditions {page : Page → Issuing Page} {item : Item → Issuing Item}
    (hpage : ∀ x ids, (page x ids).1.condition = x.condition)
    (hitem : ∀ x ids, (item x ids).1.effectiveCondition = x.effectiveCondition) :
    let ofPage := fun page : Page => page.condition.bind Text.literal?
    let ofItem := fun item : Item => item.effectiveCondition.bind Text.literal?
    (∀ pages ids, (expandOption (·.mapM page) pages ids).1.map (List.map ofPage)
        = pages.map (List.map ofPage)) ∧
      (∀ items ids, (expandOption (·.mapM item) items ids).1.map (List.map ofItem)
        = items.map (List.map ofItem)) ∧
      ∀ groups ids,
        (expandOption (·.mapM (·.mapM item)) groups ids).1.map (List.map (List.map ofItem))
          = groups.map (List.map (List.map ofItem)) := by
  intro ofPage ofItem
  have hofPage : ∀ x ids, ofPage (page x ids).1 = ofPage x :=
    fun x ids => congrArg (·.bind Text.literal?) (hpage x ids)
  have hofItem : ∀ x ids, ofItem (item x ids).1 = ofItem x :=
    fun x ids => congrArg (·.bind Text.literal?) (hitem x ids)
  refine ⟨?_, ?_, ?_⟩
  · exact map_expandOption _ (Issuing.map_mapM ofPage hofPage)
  · exact map_expandOption _ (Issuing.map_mapM ofItem hofItem)
  · exact map_expandOption _ (Issuing.map_mapM _ (Issuing.map_mapM ofItem hofItem))

/-- The form of a block of the document. -/
def Document.Block.form (block : Document.Block) : BlockForm where
  pages := block.pages.map (·.map fun page => page.condition.bind Document.Text.literal?)
  items := block.items.map (·.map fun item => item.effectiveCondition.bind Document.Text.literal?)
  groups := block.groups.map
    (·.map (·.map fun item => item.effectiveCondition.bind Document.Text.literal?))
  holdsBlocks := block.blocks.isSome
  exchangeable := block.exchangeable
  counterbalance := block.counterbalance
  latinSquare := block.latinSquare
  pseudorandom := block.pseudorandom
  criterion := block.criterion
  cutoff := block.cutoff
  banks := block.banks

/-! ### Tallies -/

/-- Each step of a tally raises the count of the name that it reads. -/
theorem get?_foldl_tally (names : List String) (counts : Assoc Nat) (name : String) :
    ((names.foldl (fun counts name => counts.insert name ((counts.get? name).getD 0 + 1))
      counts).get? name).getD 0 = (counts.get? name).getD 0 + names.count name := by
  induction names generalizing counts with
  | nil => simp
  | cons head rest ih =>
      rw [List.foldl_cons, ih, Assoc.get?_insert, List.count_cons]
      by_cases hname : name = head
      · subst hname
        simp only [if_true, Option.getD_some, beq_self_eq_true]
        omega
      · have hother : (head == name) = false := beq_false_of_ne (Ne.symm hname)
        simp [hname, hother]

theorem keys_foldl_tally (names : List String) (counts : Assoc Nat) (name : String) :
    name ∈ (names.foldl (fun counts name => counts.insert name ((counts.get? name).getD 0 + 1))
      counts).keys ↔ name ∈ counts.keys ∨ name ∈ names := by
  induction names generalizing counts with
  | nil => simp
  | cons head rest ih =>
      rw [List.foldl_cons, ih, Assoc.keys_insert, List.mem_cons]
      by_cases hhead : head ∈ counts.keys
      · rw [if_pos hhead]
        constructor
        · rintro (hold | hrest)
          · exact .inl hold
          · exact .inr (.inr hrest)
        · rintro (hold | rfl | hrest)
          · exact .inl hold
          · exact .inl hhead
          · exact .inr hrest
      · rw [if_neg hhead, List.mem_append, List.mem_singleton, or_assoc]

theorem Assoc.get?_of_mem {α : Type} {m : Assoc α} {key : String} {value : α}
    (h : (key, value) ∈ m.entries) : m.get? key = some value := by
  obtain ⟨other, hother⟩ : ∃ other, m.get? key = some other := by
    apply Assoc.get?_of_contains
    exact List.contains_iff_mem.mpr (List.mem_map.mpr ⟨_, h, rfl⟩)
  have hsame := List.inj_on_of_nodup_map m.nodup h (Assoc.mem_of_get? hother) rfl
  cases hsame
  exact hother

/-- A tally counts the names. -/
theorem mem_values_tally {names : List String} {count : Nat} :
    count ∈ (tally names).values ↔ ∃ name ∈ names, names.count name = count := by
  have hcount : ∀ name, ((tally names).get? name).getD 0 = names.count name := by
    intro name
    rw [tally, get?_foldl_tally, Assoc.get?_empty, Option.getD_none, Nat.zero_add]
  have hkeys : ∀ name, name ∈ (tally names).keys ↔ name ∈ names := by
    intro name
    rw [tally, keys_foldl_tally]
    exact or_iff_right List.not_mem_nil
  constructor
  · intro hvalue
    obtain ⟨⟨name, _⟩, hentry, rfl⟩ := List.mem_map.mp hvalue
    refine ⟨name, (hkeys name).mp (List.mem_map_of_mem hentry), ?_⟩
    rw [← hcount, Assoc.get?_of_mem hentry, Option.getD_some]
  · rintro ⟨name, hname, rfl⟩
    obtain ⟨⟨_, value⟩, hentry, rfl⟩ := List.mem_map.mp ((hkeys name).mpr hname)
    rw [← hcount, Assoc.get?_of_mem hentry, Option.getD_some]
    exact List.mem_map_of_mem hentry

/-- The check of balance passes where all names occur equally often. -/
theorem balanced_iff {names : List String} : balanced names = true ↔ Balanced names := by
  have hsame : balanced names = true ↔
      ∀ one ∈ (tally names).values, ∀ other ∈ (tally names).values, one = other := by
    unfold balanced
    cases (tally names).values with
    | nil => simp
    | cons first rest =>
        rw [List.all_eq_true]
        constructor
        · intro hall
          have hfirst : ∀ value ∈ first :: rest, value = first :=
            List.forall_mem_cons.mpr ⟨rfl, fun value hvalue => beq_iff_eq.mp (hall value hvalue)⟩
          intro one hone other hother
          rw [hfirst one hone, hfirst other hother]
        · intro hall value hvalue
          exact beq_iff_eq.mpr (hall value (List.mem_cons_of_mem _ hvalue) first List.mem_cons_self)
  rw [hsame]
  constructor
  · intro hvalues one hone other hother
    exact hvalues _ (mem_values_tally.mpr ⟨one, hone, rfl⟩) _
      (mem_values_tally.mpr ⟨other, hother, rfl⟩)
  · intro hbalanced value hvalue value' hvalue'
    obtain ⟨one, hone, rfl⟩ := mem_values_tally.mp hvalue
    obtain ⟨other, hother, rfl⟩ := mem_values_tally.mp hvalue'
    exact hbalanced one hone other hother

/-! ### Rules for order -/

/-- Reading something of the members of groups changes no length. -/
theorem sameLength_map_iff {α β : Type} {f : α → β} {groups : List (List α)} :
    SameLength (groups.map (·.map f)) ↔ SameLength groups := by
  unfold SameLength
  simp only [List.forall_mem_map, List.length_map]

theorem Block.checkLatinSquare_eq_ok_iff {block : Block} : block.checkLatinSquare = .ok () ↔
    (block.latinSquare = some true → ∃ groups, block.groups = some groups ∧ SameLength groups) := by
  unfold Block.checkLatinSquare
  by_cases hsquare : block.latinSquare = some true
  · rw [if_pos (beq_iff_eq.mpr hsquare)]
    rcases hgroups : block.groups with _ | ⟨_ | ⟨first, rest⟩⟩
    · simp [refuse, hsquare]
    · simp [hsquare, SameLength]
    · simp only [require_eq_ok_iff, List.all_eq_true, beq_iff_eq, hsquare, true_implies,
        Option.some.injEq, exists_eq_left']
      constructor
      · intro hall
        have hfirst : ∀ group ∈ first :: rest, group.length = first.length :=
          List.forall_mem_cons.mpr ⟨rfl, hall⟩
        intro one hone other hother
        rw [hfirst one hone, hfirst other hother]
      · intro hsame group hgroup
        exact hsame group (List.mem_cons_of_mem _ hgroup) first List.mem_cons_self
  · rw [if_neg (mt beq_iff_eq.mp hsquare)]
    exact iff_of_true rfl fun h => absurd h hsquare

/-- A latin square is in order where its form has groups of one length. -/
theorem Block.checkLatinSquare_eq_ok_iff_form {block : Block} : block.checkLatinSquare = .ok () ↔
    (block.form.latinSquare = some true →
      ∃ groups, block.form.groups = some groups ∧ SameLength groups) := by
  rw [Block.checkLatinSquare_eq_ok_iff]
  cases hgroups : block.groups with
  | none => simp [Block.form, hgroups]
  | some groups => simp [Block.form, hgroups, sameLength_map_iff]

/-- A member has its condition where that is literal. -/
theorem Block.literalCondition_eq_ok_iff {block : Block} {member : String × Option Text}
    {condition : String} : block.literalCondition member = .ok condition ↔
      member.2.bind Text.literal? = some condition := by
  rcases member with ⟨node, _ | (value | placeholder)⟩ <;>
    simp [Block.literalCondition, Text.literal?, refuse]

theorem Block.literalConditions_eq_ok_iff {block : Block} {members : List (String × Option Text)}
    {conditions : List String} : block.literalConditions members = .ok conditions ↔
      members.map (fun member => member.2.bind Text.literal?) = conditions.map some := by
  induction members generalizing conditions with
  | nil =>
      cases conditions <;> simp [Block.literalConditions]
  | cons member rest ih =>
      rw [Block.literalConditions]
      simp only [Outcome.bind_eq_ok_iff, Outcome.pure_eq_ok_iff, Block.literalCondition_eq_ok_iff,
        ih, List.map_cons]
      constructor
      · rintro ⟨condition, hcondition, others, hothers, rfl⟩
        rw [hcondition, hothers, List.map_cons]
      · intro hall
        cases conditions with
        | nil => simp at hall
        | cons condition others =>
            rw [List.map_cons, List.cons.injEq] at hall
            exact ⟨condition, hall.1, others, hall.2, rfl⟩

/-- Members have conditions where all of them are literal. -/
theorem Block.exists_literalConditions_iff (block : Block)
    {members : List (String × Option Text)} :
    (∃ conditions, block.literalConditions members = .ok conditions) ↔
      AllLiteral (members.map fun member => member.2.bind Text.literal?) := by
  simp only [Block.literalConditions_eq_ok_iff]
  constructor
  · rintro ⟨conditions, hconditions⟩ member hmember
    rw [hconditions] at hmember
    obtain ⟨_, _, rfl⟩ := List.mem_map.mp hmember
    rfl
  · intro hall
    refine ⟨(members.map fun member => member.2.bind Text.literal?).map (·.getD ""), ?_⟩
    rw [List.map_map]
    apply (List.map_id _).symm.trans
    apply List.map_congr_left
    intro member hmember
    obtain ⟨condition, rfl⟩ := Option.isSome_iff_exists.mp (hall member hmember)
    rfl

/-- Counting is the same for names and for members that state them. -/
theorem balanced_map_some_iff {names : List String} :
    Balanced (names.map some) ↔ Balanced names := by
  have hcount : ∀ name, (names.map some).count (some name) = names.count name := fun name =>
    List.count_map_of_injective names some (Option.some_injective String) name
  unfold Balanced
  simp only [List.forall_mem_map, hcount]

/-- A list of members passes where their conditions are literal. -/
theorem Block.readConditions_eq_ok_iff (block : Block) (members : List (String × Option Text)) :
    (do let _ ← block.literalConditions members : Verdict) = .ok () ↔
      AllLiteral (members.map fun member => member.2.bind Text.literal?) := by
  rw [Outcome.bind_eq_ok_iff, ← block.exists_literalConditions_iff]
  simp only [Outcome.pure_eq_ok_iff, and_true]

/-- The items of groups pass where their conditions are literal and balanced. -/
theorem Block.balancedConditions_eq_ok_iff (block : Block)
    (members : List (String × Option Text)) :
    (do
      let conditions ← block.literalConditions members
      require (balanced conditions) block.id .unequalConditions : Verdict) = .ok () ↔
      AllLiteral (members.map fun member => member.2.bind Text.literal?) ∧
        Balanced (members.map fun member => member.2.bind Text.literal?) := by
  simp only [Outcome.bind_eq_ok_iff, require_eq_ok_iff, balanced_iff]
  constructor
  · rintro ⟨conditions, hconditions, hbalanced⟩
    refine ⟨block.exists_literalConditions_iff.mp ⟨conditions, hconditions⟩, ?_⟩
    rw [Block.literalConditions_eq_ok_iff.mp hconditions]
    exact balanced_map_some_iff.mpr hbalanced
  · rintro ⟨hliteral, hbalanced⟩
    obtain ⟨conditions, hconditions⟩ := block.exists_literalConditions_iff.mpr hliteral
    rw [Block.literalConditions_eq_ok_iff.mp hconditions] at hbalanced
    exact ⟨conditions, hconditions, balanced_map_some_iff.mp hbalanced⟩

theorem BlockForm.orderable_iff {form : BlockForm} : form.Orderable ↔
    (∃ members, form.pages = some members ∧ AllLiteral members) ∨
    (∃ members, form.items = some members ∧ AllLiteral members) ∨
    ∃ members, form.groups = some members ∧ form.latinSquare = some true ∧
      AllLiteral members.flatten ∧ Balanced members.flatten := by
  constructor
  · rintro (⟨contents, literal⟩ | ⟨contents, literal⟩ | ⟨contents, square, literal, balanced⟩)
    · exact .inl ⟨_, contents, literal⟩
    · exact .inr (.inl ⟨_, contents, literal⟩)
    · exact .inr (.inr ⟨_, contents, square, literal, balanced⟩)
  · rintro (⟨_, contents, literal⟩ | ⟨_, contents, literal⟩ |
      ⟨_, contents, square, literal, balanced⟩)
    · exact .pages contents literal
    · exact .items contents literal
    · exact .groups contents square literal balanced

/-- What the check of a pseudorandom order demands of a block with one kind of contents. -/
theorem Block.checkPseudorandom_eq_ok_iff {block : Block}
    (h : [block.pages.isSome, block.items.isSome, block.groups.isSome, block.blocks.isSome].count
      true = 1) :
    block.checkPseudorandom = .ok () ↔ (block.pseudorandom = some true → block.form.Orderable) := by
  unfold Block.checkPseudorandom
  by_cases hon : block.pseudorandom = some true
  · rw [if_pos (beq_iff_eq.mpr hon), BlockForm.orderable_iff]
    simp only [hon, true_implies, Block.form]
    rcases hgroups : block.groups with _ | groups
    · rcases hpages : block.pages with _ | pages
      · rcases hitems : block.items with _ | items
        · simp [refuse]
        · have hmembers := block.readConditions_eq_ok_iff (items.map Item.member)
          simpa [Item.member, Function.comp_def] using hmembers
      · have hitems : block.items = none := by
          cases hitems : block.items <;> simp_all
        have hmembers := block.readConditions_eq_ok_iff
          (pages.map fun page => (page.id, page.condition))
        simpa [hitems, Function.comp_def] using hmembers
    · have hothers : block.pages = none ∧ block.items = none := by
        cases hpages : block.pages <;> cases hitems : block.items <;> simp_all
      obtain ⟨hpages, hitems⟩ := hothers
      by_cases hsquare : block.latinSquare = some true
      · have hmembers := block.balancedConditions_eq_ok_iff (groups.flatten.map Item.member)
        simpa [hpages, hitems, hsquare, Item.member, Function.comp_def, List.map_flatten]
          using hmembers
      · simp [hpages, hitems, hsquare, refuse]
  · rw [if_neg (mt beq_iff_eq.mp hon)]
    exact iff_of_true rfl fun h => absurd h hon

/-! ### Rules for banks and repetition -/

theorem sameNames_iff {xs ys : List String} :
    sameNames xs ys = true ↔ ∀ name, name ∈ xs ↔ name ∈ ys := by
  simp only [sameNames, Bool.and_eq_true, List.all_eq_true, List.contains_iff_mem]
  constructor
  · rintro ⟨hforth, hback⟩ name
    exact ⟨hforth name, hback name⟩
  · intro hsame
    exact ⟨fun name => (hsame name).mp, fun name => (hsame name).mpr⟩

theorem checkRecord_eq_ok_iff {owner name : String} {fields : List String} {entry : BankEntry} :
    checkRecord owner name fields entry = .ok () ↔
      ∃ record, entry = .record record ∧ ∀ key, key ∈ record.keys ↔ key ∈ fields := by
  cases entry with
  | text value => simp [checkRecord, refuse]
  | record record => simp [checkRecord, sameNames_iff]

/-- A bank passes its check where it is uniform, whoever declares it. -/
theorem checkBank_eq_ok_iff {owner name : String} {bank : Bank} :
    checkBank owner name bank = .ok () ↔ bank.Uniform := by
  rcases bank with _ | ⟨value | record, rest⟩
  · exact iff_of_false (by simp [checkBank, refuse]) fun h => h.nonempty rfl
  · have hrecords : ¬ Bank.OfRecords (.text value :: rest) := by
      rintro ⟨_, hall⟩
      obtain ⟨_, hrecord, _⟩ := hall _ List.mem_cons_self
      cases hrecord
    simp only [checkBank, require_eq_ok_iff, List.all_eq_true]
    constructor
    · intro hall
      refine ⟨List.cons_ne_nil _ _, .inl (List.forall_mem_cons.mpr ⟨⟨_, rfl⟩, ?_⟩)⟩
      intro entry hentry
      have hmatches := hall entry hentry
      cases entry with
      | text value => exact ⟨value, rfl⟩
      | record record => cases hmatches
    · intro huniform entry hentry
      have htexts := huniform.entries.resolve_right hrecords
      obtain ⟨_, rfl⟩ := htexts entry (List.mem_cons_of_mem _ hentry)
      rfl
  · have htexts : ¬ Bank.OfTexts (.record record :: rest) := by
      intro hall
      obtain ⟨_, htext⟩ := hall _ List.mem_cons_self
      cases htext
    simp only [checkBank, checkAll_eq_ok_iff, checkRecord_eq_ok_iff]
    constructor
    · intro hall
      exact ⟨List.cons_ne_nil _ _, .inr ⟨record.keys, hall⟩⟩
    · intro huniform entry hentry
      obtain ⟨fields, hall⟩ := huniform.entries.resolve_left htexts
      obtain ⟨_, hfirst, hkeys⟩ := hall _ List.mem_cons_self
      obtain ⟨other, hother, hkeys'⟩ := hall entry hentry
      cases hfirst
      exact ⟨other, hother, fun key => (hkeys' key).trans (hkeys key).symm⟩

theorem checkBanks_eq_ok_iff {owner : String} {banks : Banks} :
    checkBanks owner banks = .ok () ↔ ∀ declared ∈ banks.entries, declared.2.Uniform := by
  rw [checkBanks, checkAll_eq_ok_iff]
  simp only [checkBank_eq_ok_iff]

/-- A criterion is in range where it can be met: a share between the bounds is an exact number
between them. -/
theorem Criterion.inRange_iff_meetable {c : Criterion} : c.InRange ↔ c.Meetable := by
  cases c with
  | streak length =>
      show length ≠ 0 ↔ 1 ≤ length
      rw [UInt32.le_iff_toNat_le, ne_eq, ← UInt32.toNat_inj]
      exact Nat.one_le_iff_ne_zero.symm
  | proportion share =>
      have hbounds : share.isFinite = true → (share.gtInt 0 = true ∧ share.leInt 1 = true ↔
          0 < share.signedUnits ∧ share.signedUnits ≤ Binary64.unitsPerOne) := by
        intro hfinite
        have hnan : share.isNaN = false := by
          simp only [Binary64.isFinite, bne_iff_ne] at hfinite
          simp [Binary64.isNaN, hfinite]
        unfold Binary64.gtInt Binary64.leInt
        simp only [hnan, hfinite, Bool.false_eq_true, if_false, if_true, decide_eq_true_eq,
          zero_mul, one_mul]
      constructor
      · intro hrange
        have hfinite := Binary64.isFinite_of_inRange hrange.1 hrange.2
        exact ⟨hfinite, (hbounds hfinite).mp hrange⟩
      · intro hmeetable
        exact (hbounds hmeetable.1).mpr hmeetable.2

/-- Repetition is in order where the criterion can be met and the block runs at least once. -/
theorem Block.checkRepetition_eq_ok_iff_meetable {block : Block} :
    block.checkRepetition = .ok () ↔
      (∀ c, block.criterion = some c → c.Meetable) ∧
      ∀ runs, block.cutoff = some runs → 1 ≤ runs := by
  have hruns : ∀ runs : UInt32, runs ≠ 0 ↔ 1 ≤ runs := fun runs =>
    Criterion.inRange_iff_meetable (c := .streak runs)
  simp only [Block.checkRepetition_eq_ok_iff, Criterion.inRange_iff_meetable, hruns]

/-! ### Forms of blocks that pass their checks -/

theorem Block.isSome_blocks_of_mem {block : Block} {id : String}
    (h : id ∈ (block.blocks.getD []).map (·.id)) : block.blocks.isSome = true := by
  cases hblocks : block.blocks with
  | none => simp [hblocks] at h
  | some children => rfl

/-- A block passes its check where its policies fit its contents, it refers to its children only,
and its guard is in order. -/
theorem Block.check_eq_ok_iff_fits {block : Block} : block.check = .ok () ↔
    block.form.Fits ∧ block.checkReferences = .ok () ∧
      Guard.checkOption block.guard block.id = .ok () := by
  rw [Block.check_eq_ok_iff]
  constructor
  · intro hchecked
    refine ⟨?_, hchecked.references, hchecked.guard⟩
    have hchildren := Block.mem_children_of_checkReferences hchecked.references
    obtain ⟨hcriterion, hcutoff⟩ :=
      Block.checkRepetition_eq_ok_iff_meetable.mp hchecked.repetition
    constructor
    · have hcontents := hchecked.contents
      simpa only [Block.form, Option.isSome_map] using hcontents
    · intro hlist
      obtain ⟨id, hid⟩ := List.exists_mem_of_ne_nil _ hlist
      exact Block.isSome_blocks_of_mem (hchildren id (List.mem_append_left _ hid))
    · intro hlist
      obtain ⟨id, hid⟩ := List.exists_mem_of_ne_nil _ hlist
      exact Block.isSome_blocks_of_mem (hchildren id (List.mem_append_right _ hid))
    · rw [← Block.checkLatinSquare_eq_ok_iff_form]
      exact hchecked.latinSquare
    · exact (Block.checkPseudorandom_eq_ok_iff hchecked.contents).mp hchecked.pseudorandom
    · exact hcriterion
    · exact hcutoff
    · exact checkBanks_eq_ok_iff.mp hchecked.banks
  · rintro ⟨hfits, hreferences, hguard⟩
    have hcontents : [block.pages.isSome, block.items.isSome, block.groups.isSome,
        block.blocks.isSome].count true = 1 := by
      have hcontents := hfits.contents
      simpa only [Block.form, Option.isSome_map] using hcontents
    constructor
    · exact hcontents
    · exact hreferences
    · rw [Block.checkLatinSquare_eq_ok_iff_form]
      exact hfits.square
    · exact (Block.checkPseudorandom_eq_ok_iff hcontents).mpr hfits.order
    · exact Block.checkRepetition_eq_ok_iff_meetable.mpr ⟨hfits.criterion, hfits.cutoff⟩
    · exact checkBanks_eq_ok_iff.mpr hfits.banks
    · exact hguard

/-! ### Forms of resolved blocks -/

section Resolved

variable {index : Index}

theorem Text.Resolved.literal?_eq {given : Text} {shown : Document.Text}
    (h : given.Resolved shown) : shown.literal? = given.literal? := by
  cases h <;> rfl

theorem Text.literal?_eq_of_rel {given : Option Text} {shown : Option Document.Text}
    (h : Option.Rel Text.Resolved given shown) :
    shown.bind Document.Text.literal? = given.bind Text.literal? := by
  cases h with
  | none => rfl
  | some text => exact text.literal?_eq

theorem Page.Resolved.condition {page : Page} {shown : Document.Page}
    (h : page.Resolved index shown) : Option.Rel Text.Resolved page.condition shown.condition := by
  cases h with
  | mk checked texts options feedbacks files conditions guards => exact conditions

/-- The condition that counts for an item of the document is that of its item in the tree, whose
pages are those that it has after expansion. -/
theorem Item.Resolved.effectiveCondition {item : Item} {shown : Document.Item}
    (h : item.Resolved index shown) :
    Option.Rel Text.Resolved item.effectiveCondition shown.effectiveCondition := by
  have hpages := h.pages
  cases h with
  | mk checked contents conditions guards =>
      unfold Item.effectiveCondition Document.Item.effectiveCondition
      generalize item.condition = given, item.pages = its at conditions hpages ⊢
      cases conditions with
      | some text => exact .some text
      | none =>
          cases hpages with
          | nil => exact .none
          | cons first rest => exact first.condition

/-- A list of related members has the same readings, where there is one. -/
theorem map_map_eq_of_rel {α β γ : Type} {rel : α → β → Prop} {f : α → γ} {g : β → γ}
    {xs : Option (List α)} {ys : Option (List β)} (h : Option.Rel (List.Forall₂ rel) xs ys)
    (heq : ∀ x y, rel x y → g y = f x) : ys.map (·.map g) = xs.map (·.map f) := by
  cases h with
  | none => rfl
  | some members => exact congrArg some (map_eq_of_forall₂ members heq)

/-- A block of the document has the form of its block in the tree. -/
theorem Block.Resolved.form_eq {block : Block} {shown : Document.Block}
    (h : block.Resolved index shown) : shown.form = block.form := by
  cases h with
  | mk checked ofPages ofItems ofGroups children guards shape served =>
      subst shape
      have hpages := map_map_eq_of_rel ofPages fun _ _ page =>
        Text.literal?_eq_of_rel (Page.Resolved.condition page)
      have hitems := map_map_eq_of_rel ofItems fun _ _ item =>
        Text.literal?_eq_of_rel (Item.Resolved.effectiveCondition item)
      have hgroups := map_map_eq_of_rel ofGroups fun _ _ group =>
        map_eq_of_forall₂ group fun _ _ item =>
          Text.literal?_eq_of_rel (Item.Resolved.effectiveCondition item)
      simp only [Document.Block.form, Block.form, hpages, hitems, hgroups, children.isSome_eq]

/-- Blocks are checked as they are emitted. -/
theorem Block.Resolved.form_fits {block : Block} {shown : Document.Block}
    (h : block.Resolved index shown) : shown.form.Fits := by
  rw [h.form_eq]
  cases h with
  | mk checked ofPages ofItems ofGroups children guards shape served =>
      exact (Block.check_eq_ok_iff_fits.mp checked).1

end Resolved

/-! ### Trials -/

/-- A word shown under a condition of the item. -/
def Item.trial (word condition : String) : Item where
  id := word
  contents := .text (.literal word)
  condition := some (.literal condition)

/-- A word shown under a condition of its page, with a text as feedback. -/
def Item.trialWithFeedback (word page condition : String) : Item where
  id := word
  contents := .page
    { id := page
      text := .single (.sample { bank := "frames", draw := .replacing, field := some "frame" })
      feedback := some (.text (.literal "Well done"))
      condition := some (.literal condition) }

/-- The item of a word in the document. -/
def Document.Item.trial (word page condition : String) : Document.Item where
  id := word
  pages := [{ id := page, text := .single (.literal word) }]
  condition := some (.literal condition)

/-- The item of a word with feedback in the document. -/
def Document.Item.trialWithFeedback (word page feedback condition : String) : Document.Item where
  id := word
  pages := [
    { id := page
      text := .single (.sample { bank := "frames", field := some "frame", replacing := true })
      condition := some (.literal condition) },
    { id := feedback, text := .single (.literal "Well done") }]

/-- A bank of records with the same keys. -/
def Banks.frames : Banks :=
  .ofList [("frames", [.record (.ofList [("frame", "one"), ("tone", "low")]),
    .record (.ofList [("tone", "high"), ("frame", "two")])])]

/-- Each participant sees one word of each group, ordered by their conditions. There is practice
before, which ends after three correct answers in a row and is gone through twice at most. -/
def Experiment.trials : Experiment where
  blocks := [
    { id := "session"
      blocks := some [
        { id := "practice"
          pages := some [{ id := "example", text := .single (.literal "Is this a word?") }]
          criterion := some (.streak 3)
          cutoff := some 2 },
        { id := "test"
          groups := some [
            [.trial "ant" "short", .trialWithFeedback "antelope" "p" "long"],
            [.trialWithFeedback "bee" "q" "short", .trial "beetroot" "long"]]
          latinSquare := some true
          pseudorandom := some true }]
      counterbalance := ["practice", "test"]
      banks := .frames }]

/-- The trials with identifiers for the pages made of texts and of feedback. -/
def Document.Experiment.trials : Document.Experiment where
  blocks := [
    { id := "session"
      blocks := some [
        { id := "practice"
          pages := some [{ id := "example", text := .single (.literal "Is this a word?") }]
          criterion := some (.streak 3)
          cutoff := some 2 },
        { id := "test"
          groups := some [
            [.trial "ant" "1" "short", .trialWithFeedback "antelope" "p" "2" "long"],
            [.trialWithFeedback "bee" "q" "3" "short", .trial "beetroot" "4" "long"]]
          latinSquare := some true
          pseudorandom := some true }]
      counterbalance := ["practice", "test"]
      banks := .frames }]
  exchangeable := []
  counterbalance := []
  banks := .empty

/-- The trials compile. -/
theorem Experiment.compile_trials :
    (Experiment.trials.compile {}).outcome = .ok Document.Experiment.trials := by
  cbv

/-! ### Compilation -/

/-- In a compiled document the policies of every block, at any depth, fit its contents, with the
conditions that its items have there; every item has a page, and the banks of the root are uniform
as those of blocks are. -/
theorem Experiment.compile_policies {e : Experiment} {session : Session}
    {document : Document.Experiment} (h : (e.compile session).outcome = .ok document) :
    (∀ block ∈ document.allBlocks, block.form.Fits) ∧
      (∀ item ∈ document.allItems, item.pages ≠ []) ∧
      ∀ declared ∈ document.banks.entries, declared.2.Uniform := by
  obtain ⟨expanded, ids, index, slots, hcompiled⟩ := e.compile_ok h
  refine ⟨?_, ?_, ?_⟩
  · intro block hblock
    obtain ⟨given, hgiven⟩ := hcompiled.resolves.mem_allBlocks block hblock
    exact hgiven.form_fits
  · intro item hitem hnil
    obtain ⟨given, hgiven, hrel⟩ := exists_left_of_forall₂ hcompiled.resolves.allItems item hitem
    have hpages := hrel.pages
    rw [hnil] at hpages
    exact hcompiled.pages_ne_nil given hgiven (List.forall₂_nil_right_iff.mp hpages)
  · rw [hcompiled.resolves.banks]
    exact checkBanks_eq_ok_iff.mp hcompiled.expands.checkBanks

/-- The trials order a latin square by balanced conditions, repeat their practice and draw from a
bank of records. -/
theorem Experiment.compile_policies_trials :
    (Experiment.trials.compile {}).outcome = .ok Document.Experiment.trials ∧
      (∀ block ∈ Document.Experiment.trials.allBlocks, block.form.Fits) ∧
      (∀ item ∈ Document.Experiment.trials.allItems, item.pages ≠ []) ∧
      ∀ declared ∈ Document.Experiment.trials.banks.entries, declared.2.Uniform :=
  ⟨Experiment.compile_trials, Experiment.compile_policies Experiment.compile_trials⟩

end Paradigm
