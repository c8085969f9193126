/-
Module: Paradigm.Proofs.Pseudorandom
Layer: Proofs
Purpose: The rule for pseudorandom blocks from both sides. A block passes where its members have
  literal conditions, over a latin square equally often each. Where it fails, the first member
  without a literal condition decides; that conditions are unbalanced is found only once all of them
  are literal. Whether a block passes does not depend on the order of its members, nor on the groups
  that its items stand in.
Imports: Paradigm.Proofs.Policies
Main exports: ConditionFault, Block.members, Block.literalConditions_eq_error_iff,
  Block.OrderFault, Block.checkPseudorandom_eq_error_iff, Block.Shuffled, Block.pseudorandom_rule
-/
import Paradigm.Proofs.Policies

namespace Paradigm

/-! ### The first member to fail -/

/-- What is wrong with a member of a pseudorandom block: it has no condition, or one to be drawn. -/
inductive ConditionFault (block : String) : String × Option Text → Failure → Prop where
  | missing (node : String) :
      ConditionFault block (node, none) (.rule node (.conditionMissing block))
  | sampled (node : String) (placeholder : Placeholder) :
      ConditionFault block (node, some (.sample placeholder)) (.rule node (.sampledCondition block))

/-- The literal condition of a member, if it has one. -/
def literalOf (member : String × Option Text) : Option String := member.2.bind Text.literal?

/-- The members of a block by their conditions: its pages, or its items with those of its groups. -/
def Block.members (block : Block) : List (String × Option Text) :=
  (block.pages.getD []).map (fun page => (page.id, page.condition))
    ++ block.ownItems.map Item.member

/-- A block with one kind of contents has nothing of the other kinds. -/
theorem Block.only_contents (block : Block) (h : block.contentKinds.length = 1) :
    (∃ pages, block.pages = some pages ∧ block.items = none ∧ block.groups = none ∧
      block.blocks = none) ∨
    (∃ items, block.pages = none ∧ block.items = some items ∧ block.groups = none ∧
      block.blocks = none) ∨
    (∃ groups, block.pages = none ∧ block.items = none ∧ block.groups = some groups ∧
      block.blocks = none) ∨
    ∃ blocks, block.pages = none ∧ block.items = none ∧ block.groups = none ∧
      block.blocks = some blocks := by
  rw [Block.length_contentKinds] at h
  cases hpages : block.pages <;> cases hitems : block.items <;> cases hgroups : block.groups <;>
    cases hblocks : block.blocks <;> simp_all

/-- The first of some members that has no literal condition, with the failure for it. -/
inductive FirstConditionFault (block : String) (members : List (String × Option Text))
    (failure : Failure) : Prop where
  | mk {before after : List (String × Option Text)} {member : String × Option Text}
      (order : members = before ++ member :: after) (literal : AllLiteral (before.map literalOf))
      (fault : ConditionFault block member failure) : FirstConditionFault block members failure

theorem Block.literalCondition_eq_error_iff {block : Block} {member : String × Option Text}
    {failure : Failure} : block.literalCondition member = .error failure ↔
      ConditionFault block.id member failure := by
  constructor
  · intro hfails
    rcases member with ⟨node, _ | (value | placeholder)⟩
    · cases hfails
      exact .missing node
    · cases hfails
    · cases hfails
      exact .sampled node placeholder
  · rintro (_ | _) <;> rfl

theorem Block.literalConditions_cons_eq_error_iff {block : Block}
    {member : String × Option Text} {rest : List (String × Option Text)} {failure : Failure} :
    block.literalConditions (member :: rest) = .error failure ↔
      block.literalCondition member = .error failure ∨
        (∃ condition, block.literalCondition member = .ok condition) ∧
          block.literalConditions rest = .error failure := by
  rw [literalConditions]
  cases block.literalCondition member <;> cases block.literalConditions rest <;>
    simp [bind, Except.bind, pure, Except.pure]

/-- The conditions of members are refused as the first one is that is not literal. -/
theorem Block.literalConditions_eq_error_iff {block : Block}
    {members : List (String × Option Text)} {failure : Failure} :
    block.literalConditions members = .error failure ↔
      FirstConditionFault block.id members failure := by
  constructor
  · intro hfails
    induction members with
    | nil => cases hfails
    | cons member rest ih =>
        rcases literalConditions_cons_eq_error_iff.mp hfails with hmember | ⟨⟨_, hmember⟩, hrest⟩
        · have hfault := literalCondition_eq_error_iff.mp hmember
          exact .mk (List.nil_append _).symm (List.forall_mem_nil _) hfault
        · obtain ⟨rfl, hbefore, hfault⟩ := ih hrest
          have hliteral := Option.isSome_of_eq_some (literalCondition_eq_ok_iff.mp hmember)
          exact .mk List.cons_append.symm (List.forall_mem_cons.mpr ⟨hliteral, hbefore⟩) hfault
  · rintro ⟨rfl, hbefore, hfault⟩
    rename_i before after member
    induction before with
    | nil =>
        exact literalConditions_cons_eq_error_iff.mpr
          (.inl (literalCondition_eq_error_iff.mpr hfault))
    | cons first before ih =>
        obtain ⟨hfirst, hrest⟩ := List.forall_mem_cons.mp hbefore
        obtain ⟨condition, hcondition⟩ := Option.isSome_iff_exists.mp hfirst
        exact literalConditions_cons_eq_error_iff.mpr
          (.inr ⟨⟨condition, literalCondition_eq_ok_iff.mpr hcondition⟩, ih hrest⟩)

/-! ### Blocks that cannot be ordered -/

/-- Why a pseudorandom block with one kind of contents is refused, with the failure for it. -/
inductive Block.OrderFault (block : Block) : Failure → Prop where
  /-- Child blocks are not ordered by conditions. -/
  | blocks (contents : block.blocks.isSome = true) :
      Block.OrderFault block (.rule block.id .pseudorandomBlocks)
  /-- Without a latin square it is open which items of the groups are shown. -/
  | groups (contents : block.groups.isSome = true) (drawn : block.latinSquare ≠ some true) :
      Block.OrderFault block (.rule block.id .pseudorandomGroups)
  /-- The first member without a literal condition decides. -/
  | condition {failure : Failure}
      (square : block.groups.isSome = true → block.latinSquare = some true)
      (first : FirstConditionFault block.id block.members failure) :
      Block.OrderFault block failure
  /-- All items of the latin square have literal conditions, some more often than others. -/
  | unequal (contents : block.groups.isSome = true) (square : block.latinSquare = some true)
      (literal : AllLiteral (block.members.map literalOf))
      (unequal : ¬ Balanced (block.members.map literalOf)) :
      Block.OrderFault block (.rule block.id .unequalConditions)

/-- A list of members is refused as the first one is without a literal condition. -/
theorem Block.readConditions_eq_error_iff {block : Block} {members : List (String × Option Text)}
    {failure : Failure} :
    (do let _ ← block.literalConditions members : Verdict) = .error failure ↔
      FirstConditionFault block.id members failure := by
  rw [← literalConditions_eq_error_iff]
  cases block.literalConditions members <;> simp [bind, Except.bind, pure, Except.pure]

theorem refuse_eq_error_iff {node : String} {cause : Cause} {failure : Failure} :
    (refuse node cause : Verdict) = .error failure ↔ failure = .rule node cause := by
  rw [refuse, Except.error.injEq, eq_comm]

theorem require_eq_error_iff {condition : Bool} {node : String} {cause : Cause}
    {failure : Failure} : require condition node cause = .error failure ↔
      condition = false ∧ failure = .rule node cause := by
  cases condition <;> simp [require, refuse, eq_comm]

/-- The items of a latin square are refused as the first one is without a literal condition, and
else for conditions that are not balanced. -/
theorem Block.balancedConditions_eq_error_iff {block : Block}
    {members : List (String × Option Text)} {failure : Failure} :
    (do
      let conditions ← block.literalConditions members
      require (balanced conditions) block.id .unequalConditions : Verdict) = .error failure ↔
      FirstConditionFault block.id members failure ∨
        AllLiteral (members.map literalOf) ∧ ¬ Balanced (members.map literalOf) ∧
          failure = .rule block.id .unequalConditions := by
  cases hconditions : block.literalConditions members with
  | error other =>
      have hliteral : ¬ AllLiteral (members.map literalOf) := by
        intro hall
        obtain ⟨conditions, hok⟩ := (exists_literalConditions_iff block).mpr hall
        rw [hconditions] at hok
        cases hok
      have hsecond : ¬ (AllLiteral (members.map literalOf) ∧ ¬ Balanced (members.map literalOf) ∧
          failure = .rule block.id .unequalConditions) := fun h => hliteral h.1
      rw [or_iff_left hsecond, ← literalConditions_eq_error_iff, hconditions]
      simp only [bind, Except.bind, Except.error.injEq]
  | ok conditions =>
      have hliteral : AllLiteral (members.map literalOf) :=
        (exists_literalConditions_iff block).mp ⟨conditions, hconditions⟩
      have hnone : ¬ FirstConditionFault block.id members failure := by
        rw [← literalConditions_eq_error_iff, hconditions]
        exact nofun
      have hnames : members.map literalOf = conditions.map some :=
        literalConditions_eq_ok_iff.mp hconditions
      rw [or_iff_right hnone, hnames, balanced_map_some_iff, ← balanced_iff, ← hnames,
        Bool.not_eq_true]
      exact require_eq_error_iff.trans (and_iff_right hliteral).symm

/-- Pages and items are refused for their conditions only. -/
theorem Block.orderFault_iff_of_plain {block : Block} (hgroups : block.groups = none)
    (hblocks : block.blocks = none) {failure : Failure} :
    block.OrderFault failure ↔ FirstConditionFault block.id block.members failure := by
  constructor
  · rintro (contents | ⟨contents, _⟩ | ⟨_, first⟩ | ⟨contents⟩)
    · simp [hblocks] at contents
    · simp [hgroups] at contents
    · exact first
    · simp [hgroups] at contents
  · exact .condition (by simp [hgroups])

/-- A latin square is refused for the conditions of its items or for their balance. -/
theorem Block.orderFault_iff_of_square {block : Block} (hgroups : block.groups.isSome = true)
    (hblocks : block.blocks = none) (hsquare : block.latinSquare = some true)
    {failure : Failure} : block.OrderFault failure ↔
      FirstConditionFault block.id block.members failure ∨
        AllLiteral (block.members.map literalOf) ∧ ¬ Balanced (block.members.map literalOf) ∧
          failure = .rule block.id .unequalConditions := by
  constructor
  · rintro (contents | ⟨_, drawn⟩ | ⟨_, first⟩ | ⟨_, _, literal, unequal⟩)
    · simp [hblocks] at contents
    · exact absurd hsquare drawn
    · exact .inl first
    · exact .inr ⟨literal, unequal, rfl⟩
  · rintro (first | ⟨literal, unequal, rfl⟩)
    · exact .condition (fun _ => hsquare) first
    · exact .unequal hgroups hsquare literal unequal

/-- Groups that are not a latin square are refused as they are. -/
theorem Block.orderFault_iff_of_drawn {block : Block} (hgroups : block.groups.isSome = true)
    (hblocks : block.blocks = none) (hsquare : block.latinSquare ≠ some true)
    {failure : Failure} :
    block.OrderFault failure ↔ failure = .rule block.id .pseudorandomGroups := by
  constructor
  · rintro (contents | _ | ⟨square, _⟩ | ⟨_, square⟩)
    · simp [hblocks] at contents
    · rfl
    · exact absurd (square hgroups) hsquare
    · exact absurd square hsquare
  · rintro rfl
    exact .groups hgroups hsquare

/-- Child blocks are refused as they are. -/
theorem Block.orderFault_iff_of_blocks {block : Block} (hmembers : block.members = [])
    (hgroups : block.groups = none) (hblocks : block.blocks.isSome = true) {failure : Failure} :
    block.OrderFault failure ↔ failure = .rule block.id .pseudorandomBlocks := by
  constructor
  · rintro (_ | ⟨contents, _⟩ | ⟨_, order, _, _⟩ | ⟨contents⟩)
    · rfl
    · simp [hgroups] at contents
    · simp [hmembers] at order
    · simp [hgroups] at contents
  · rintro rfl
    exact .blocks hblocks

/-- A block with one kind of contents is refused for its order where it is to be pseudorandom and
there is something wrong with its contents or with their conditions. -/
theorem Block.checkPseudorandom_eq_error_iff {block : Block} (h : block.contentKinds.length = 1)
    {failure : Failure} : block.checkPseudorandom = .error failure ↔
      block.pseudorandom = some true ∧ block.OrderFault failure := by
  by_cases hon : block.pseudorandom = some true
  · rw [checkPseudorandom, if_pos (beq_iff_eq.mpr hon), and_iff_right hon]
    rcases block.only_contents h with ⟨pages, hpages, hitems, hgroups, hblocks⟩ |
      ⟨items, hpages, hitems, hgroups, hblocks⟩ | ⟨groups, hpages, hitems, hgroups, hblocks⟩ |
      ⟨blocks, hpages, hitems, hgroups, hblocks⟩
    · have hmembers : block.members = pages.map fun page => (page.id, page.condition) := by
        simp [members, ownItems, hpages, hitems, hgroups]
      rw [orderFault_iff_of_plain hgroups hblocks, hmembers, hgroups, hpages]
      exact readConditions_eq_error_iff
    · have hmembers : block.members = items.map Item.member := by
        simp [members, ownItems, hpages, hitems, hgroups]
      rw [orderFault_iff_of_plain hgroups hblocks, hmembers, hgroups, hpages, hitems]
      exact readConditions_eq_error_iff
    · have hsome : block.groups.isSome = true := Option.isSome_of_eq_some hgroups
      have hmembers : block.members = groups.flatten.map Item.member := by
        simp [members, ownItems, hpages, hitems, hgroups]
      rw [hgroups]
      by_cases hsquare : block.latinSquare = some true
      · rw [orderFault_iff_of_square hsome hblocks hsquare, hmembers]
        simp only [if_pos (beq_iff_eq.mpr hsquare)]
        exact balancedConditions_eq_error_iff
      · rw [orderFault_iff_of_drawn hsome hblocks hsquare]
        simp only [if_neg (mt beq_iff_eq.mp hsquare)]
        exact refuse_eq_error_iff
    · have hsome : block.blocks.isSome = true := Option.isSome_of_eq_some hblocks
      have hmembers : block.members = [] := by
        simp [members, ownItems, hpages, hitems, hgroups]
      rw [orderFault_iff_of_blocks hmembers hgroups hsome, hgroups, hpages, hitems]
      exact refuse_eq_error_iff
  · rw [checkPseudorandom, if_neg (mt beq_iff_eq.mp hon)]
    simp [hon]

/-! ### Members in another order -/

/-- Two blocks with the same members and policies for them. Pages and items stand in any order, and
the items of groups in any order and in any groups. -/
structure Block.Shuffled (block other : Block) : Prop where
  pages : Option.Rel List.Perm block.pages other.pages
  items : Option.Rel List.Perm block.items other.items
  groups : Option.Rel (fun groups others => groups.flatten.Perm others.flatten) block.groups
    other.groups
  blocks : other.blocks.isSome = block.blocks.isSome
  latinSquare : other.latinSquare = block.latinSquare
  pseudorandom : other.pseudorandom = block.pseudorandom

theorem AllLiteral.of_perm {members others : List (Option String)} (h : members.Perm others)
    (hall : AllLiteral members) : AllLiteral others := fun member hmember =>
  hall member (h.mem_iff.mpr hmember)

theorem Balanced.of_perm {α : Type} [BEq α] {members others : List α} (h : members.Perm others)
    (hbalanced : Balanced members) : Balanced others := by
  intro one hone other hother
  rw [← h.count_eq, ← h.count_eq]
  exact hbalanced one (h.mem_iff.mpr hone) other (h.mem_iff.mpr hother)

/-- What is read of members in another order is in another order. -/
theorem exists_perm_of_rel {α β : Type} {xs ys : Option (List α)} {f : α → β} {members : List β}
    (h : Option.Rel List.Perm xs ys) (hmembers : xs.map (·.map f) = some members) :
    ∃ others, ys.map (·.map f) = some others ∧ members.Perm others := by
  cases h with
  | none => cases hmembers
  | some order =>
      cases hmembers
      exact ⟨_, rfl, order.map f⟩

theorem rel_flip {α β : Type} {rel : α → β → Prop} {back : β → α → Prop} {x : Option α}
    {y : Option β} (h : Option.Rel rel x y) (hback : ∀ a b, rel a b → back b a) :
    Option.Rel back y x := by
  cases h with
  | none => exact .none
  | some related => exact .some (hback _ _ related)

namespace Block.Shuffled

variable {block other : Block}

theorem symm (h : block.Shuffled other) : other.Shuffled block where
  pages := rel_flip h.pages fun _ _ => List.Perm.symm
  items := rel_flip h.items fun _ _ => List.Perm.symm
  groups := rel_flip h.groups fun _ _ => List.Perm.symm
  blocks := h.blocks.symm
  latinSquare := h.latinSquare.symm
  pseudorandom := h.pseudorandom.symm

/-- Members that can be ordered can be ordered from any order. -/
theorem orderable (h : block.Shuffled other) (horderable : block.form.Orderable) :
    other.form.Orderable := by
  cases horderable with
  | pages contents literal =>
      obtain ⟨others, hothers, order⟩ := exists_perm_of_rel h.pages contents
      exact .pages hothers (literal.of_perm order)
  | items contents literal =>
      obtain ⟨others, hothers, order⟩ := exists_perm_of_rel h.items contents
      exact .items hothers (literal.of_perm order)
  | @groups members contents square literal balanced =>
      obtain ⟨groups, hgroups, rfl⟩ := Option.map_eq_some_iff.mp contents
      obtain ⟨others, hothers, order⟩ : ∃ others, other.groups = some others ∧
          groups.flatten.Perm others.flatten := by
        have hrel := h.groups
        rw [hgroups] at hrel
        generalize other.groups = given at hrel
        cases hrel with
        | some order => exact ⟨_, rfl, order⟩
      have hcontents : other.form.groups = some (others.map
          (·.map fun item => item.effectiveCondition.bind Text.literal?)) := by
        rw [Block.form, hothers]
        rfl
      have hread := order.map fun item => item.effectiveCondition.bind Text.literal?
      rw [List.map_flatten, List.map_flatten] at hread
      exact .groups hcontents (h.latinSquare.trans square) (literal.of_perm hread)
        (balanced.of_perm hread)

theorem contentKinds_eq (h : block.Shuffled other) : other.contentKinds = block.contentKinds := by
  rw [contentKinds, contentKinds, h.blocks, isSome_eq_of_rel h.pages, isSome_eq_of_rel h.items,
    isSome_eq_of_rel h.groups]

end Block.Shuffled

/-! ### The rule -/

/-- A block with one kind of contents passes the rule for pseudorandom blocks where it is not to be
pseudorandom, or its pages or items have literal conditions, or it is a latin square whose items
have literal conditions, each equally often over all groups. It is refused for the first member
without a literal condition, and for conditions that are not balanced only where there is no such
member. In which order the members stand, and in which groups, decides nothing about whether it
passes. -/
theorem Block.pseudorandom_rule {block : Block} (h : block.contentKinds.length = 1) :
    (block.checkPseudorandom = .ok () ↔ (block.pseudorandom = some true → block.form.Orderable)) ∧
      (∀ failure, block.checkPseudorandom = .error failure ↔
        block.pseudorandom = some true ∧ block.OrderFault failure) ∧
      ∀ other, block.Shuffled other →
        (other.checkPseudorandom = .ok () ↔ block.checkPseudorandom = .ok ()) := by
  have hrule : ∀ given : Block, given.contentKinds.length = 1 → (given.checkPseudorandom = .ok () ↔
      (given.pseudorandom = some true → given.form.Orderable)) := by
    intro given hgiven
    rw [length_contentKinds] at hgiven
    exact checkPseudorandom_eq_ok_iff hgiven
  refine ⟨hrule block h, fun _ => checkPseudorandom_eq_error_iff h, ?_⟩
  intro other hshuffled
  have hother : other.contentKinds.length = 1 := hshuffled.contentKinds_eq ▸ h
  rw [hrule block h, hrule other hother, hshuffled.pseudorandom]
  exact imp_congr_right fun _ => ⟨hshuffled.symm.orderable, hshuffled.orderable⟩

/-- Words in groups, with a short and a long one in each. -/
def Item.paired : List (List Item) :=
  [[.trial "ant" "short", .trial "antelope" "long"],
    [.trial "bee" "short", .trial "beetroot" "long"]]

/-- A word without a condition. -/
def Item.untold : Item := { id := "cat", contents := .text (.literal "cat") }

/-- One word of each group is shown, and words are ordered by their conditions. -/
def Block.words (groups : List (List Item)) : Block where
  id := "words"
  groups := some groups
  latinSquare := some true
  pseudorandom := some true

/-- The words can be ordered, and from back to front too. With one more pair they are refused for
the word without a condition, although the conditions of the others are not balanced either. -/
theorem Block.pseudorandom_rule_words :
    (Block.words Item.paired).contentKinds.length = 1 ∧
      (Block.words Item.paired).form.Orderable ∧
      (Block.words (Item.paired.map List.reverse).reverse).checkPseudorandom = .ok () ∧
      (Block.words (Item.paired ++ [[.untold, .trial "catalogue" "long"]])).OrderFault
        (.rule "cat" (.conditionMissing "words")) := by
  have hok : (Block.words Item.paired).checkPseudorandom = .ok () := by decide
  have hshuffled :
      (Block.words Item.paired).Shuffled (.words (Item.paired.map List.reverse).reverse) := by
    refine ⟨.none, .none, .some ?_, rfl, rfl, rfl⟩
    rw [← List.reverse_flatten]
    exact (List.reverse_perm _).symm
  have hkind : ∀ groups, (Block.words groups).contentKinds.length = 1 := fun _ => rfl
  obtain ⟨hpasses, _, hreverse⟩ := Block.pseudorandom_rule (hkind Item.paired)
  obtain ⟨_, hfails, _⟩ := Block.pseudorandom_rule
    (hkind (Item.paired ++ [[.untold, .trial "catalogue" "long"]]))
  exact ⟨hkind _, hpasses.mp hok rfl, (hreverse _ hshuffled).mpr hok, ((hfails _).mp rfl).2⟩

end Paradigm
