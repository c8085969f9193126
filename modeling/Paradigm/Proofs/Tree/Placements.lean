/-
Module: Paradigm.Proofs.Tree.Placements
Layer: Proofs
Purpose: Placeholders with the declarations around them. A declaration is told from all others by
  its place in the tree, so that banks of one name on a block, on a block in it and on a sibling of
  it stay apart whatever they hold. A placeholder is bound to the nearest declaration of its bank.
Imports: Paradigm.Proofs.Tree.Placeholders
Main exports: Declaration, Placement.nearest, Block.placements, Block.declarations,
  Experiment.placements, Experiment.declarations, Experiment.map_placeholder_placements,
  Declaration.LiesFrom, Block.around_of_mem_placements, Block.nearest_ne_of_later,
  Block.nearest_ne_of_earlier, Experiment.nearest_liesAt
-/
import Paradigm.Proofs.Tree.Placeholders

namespace Paradigm

/-! ### Declarations and placements -/

/-- A node with the banks that it declares. The place of a block is its position among its siblings,
followed by the place of the node that holds them; the root has the empty place. -/
structure Declaration where
  place : List Nat
  banks : Banks
deriving DecidableEq

/-- A placeholder with the declarations of the nodes around it, innermost first. -/
structure Placement where
  around : List Declaration
  placeholder : Placeholder

/-- Whether a node declares the bank of a placeholder. -/
def Declaration.declares (d : Declaration) (p : Placement) : Bool :=
  d.banks.contains p.placeholder.bank

namespace Placement

/-- The nearest declaration around a placeholder that declares its bank. -/
def nearest (p : Placement) : Option Declaration := p.around.find? (·.declares p)

/-- Whether no declaration around a placeholder has its bank, apart from a number of outermost
ones. -/
def undeclaredWithin (outermost : Nat) (p : Placement) : Bool :=
  (p.around.take (p.around.length - outermost)).all (!·.declares p)

theorem mem_around_of_nearest {p : Placement} {d : Declaration} (h : p.nearest = some d) :
    d ∈ p.around :=
  List.mem_of_find?_eq_some h

theorem undeclaredWithin_eq {p : Placement} {inner outer : List Declaration}
    (h : p.around = inner ++ outer) :
    p.undeclaredWithin outer.length = inner.all (!·.declares p) := by
  unfold undeclaredWithin
  rw [h, List.length_append, Nat.add_sub_cancel, List.take_left]

/-- With one declaration more. -/
theorem undeclaredWithin_cons {p : Placement} {inner outer : List Declaration} {d : Declaration}
    (h : p.around = inner ++ d :: outer) :
    p.undeclaredWithin outer.length
      = (!d.declares p && p.undeclaredWithin (outer.length + 1)) := by
  have hinner : p.undeclaredWithin (outer.length + 1) = inner.all (!·.declares p) :=
    undeclaredWithin_eq h
  have houter : p.undeclaredWithin outer.length = (inner ++ [d]).all (!·.declares p) := by
    apply undeclaredWithin_eq
    rw [h, List.append_cons]
  rw [houter, hinner, List.all_append, Bool.and_comm]
  simp

/-- A declaration that stands once around a placeholder is the nearest one exactly where it has the
bank and no declaration further in has it. -/
theorem nearest_eq_some_iff {p : Placement} {inner outer : List Declaration} {d : Declaration}
    (h : p.around = inner ++ d :: outer) (hinner : d ∉ inner) (houter : d ∉ outer) :
    p.nearest = some d ↔ p.undeclaredWithin (outer.length + 1) = true ∧ d.declares p = true := by
  have hwithin : p.undeclaredWithin (outer.length + 1) = inner.all (!·.declares p) :=
    undeclaredWithin_eq h
  rw [hwithin, nearest, h, List.find?_append]
  cases hfound : inner.find? (·.declares p) with
  | some other =>
      -- The nearest declaration is one of those further in.
      have hother : other ∈ inner := List.mem_of_find?_eq_some hfound
      have hdeclares : other.declares p = true := by simpa using List.find?_some hfound
      constructor
      · intro heq
        cases heq
        exact absurd hother hinner
      · rintro ⟨hnone, _⟩
        have := List.all_eq_true.mp hnone other hother
        simp [hdeclares] at this
  | none =>
      have hnone : inner.all (!·.declares p) = true := by
        rw [List.all_eq_true]
        intro other hother
        simpa using List.find?_eq_none.mp hfound other hother
      rw [hnone, Option.none_or, List.find?_cons]
      by_cases hdeclares : d.declares p = true
      · simp [hdeclares]
      · simp only [Bool.not_eq_true] at hdeclares
        simp only [hdeclares, Bool.false_eq_true, and_false, iff_false]
        intro hfar
        exact houter (List.mem_of_find?_eq_some hfar)

end Placement

/-! ### Placements of a tree -/

/-- The placeholders of a block itself: of its pages, its items and its groups. -/
def Block.ownPlaceholders (block : Block) : List Placeholder :=
  (block.pages.getD []).flatMap Page.placeholders ++ block.ownItems.flatMap Item.placeholders

/-- The banks of a block at its place. -/
def Block.declaration (place : List Nat) (block : Block) : Declaration :=
  { place := place, banks := block.banks }

mutual

/-- The placeholders of a block at its place, in order, with the declarations around them. -/
def Block.placements (place : List Nat) (outer : List Declaration) : Block → List Placement
  | block@{ blocks, .. } =>
    block.ownPlaceholders.map
        (fun p => { around := block.declaration place :: outer, placeholder := p })
      ++ Block.placementsOption place (block.declaration place :: outer) blocks

/-- The placeholders of child blocks where there are any. -/
def Block.placementsOption (place : List Nat) (outer : List Declaration) :
    Option (List Block) → List Placement
  | none => []
  | some blocks => Block.placementsList place 0 outer blocks

/-- The placeholders of blocks in order, the first of which has a given position. -/
def Block.placementsList (place : List Nat) (position : Nat) (outer : List Declaration) :
    List Block → List Placement
  | [] => []
  | block :: rest =>
    block.placements (position :: place) outer
      ++ Block.placementsList place (position + 1) outer rest

end

mutual

/-- The declarations of a block at its place and of the blocks in it. -/
def Block.declarations (place : List Nat) : Block → List Declaration
  | block@{ blocks, .. } =>
    block.declaration place :: Block.declarationsOption place blocks

/-- The declarations of child blocks where there are any. -/
def Block.declarationsOption (place : List Nat) : Option (List Block) → List Declaration
  | none => []
  | some blocks => Block.declarationsList place 0 blocks

/-- The declarations of blocks, the first of which has a given position. -/
def Block.declarationsList (place : List Nat) (position : Nat) : List Block → List Declaration
  | [] => []
  | block :: rest =>
    block.declarations (position :: place) ++ Block.declarationsList place (position + 1) rest

end

/-- The declaration of the root. -/
def Experiment.declaration (e : Experiment) : Declaration := { place := [], banks := e.banks }

/-- The placeholders of a tree in order, with the declarations around them. -/
def Experiment.placements (e : Experiment) : List Placement :=
  Block.placementsList [] 0 [e.declaration] e.blocks

/-- The declarations of a tree: of the root and of all blocks. -/
def Experiment.declarations (e : Experiment) : List Declaration :=
  e.declaration :: Block.declarationsList [] 0 e.blocks

mutual

theorem Block.map_placeholder_placements : ∀ (place : List Nat) (outer : List Declaration)
    (block : Block), (block.placements place outer).map (·.placeholder)
      = block.placeholders Item.placeholders
  | place, outer, ⟨_, _, _, _, blocks, _, _, _, _, _, _, _, _, _⟩ => by
      rw [Block.placements, Block.placeholders, List.map_append, List.map_map,
        Block.map_placeholder_placementsOption]
      congr 1
      exact List.map_id' _

theorem Block.map_placeholder_placementsOption : ∀ (place : List Nat)
    (outer : List Declaration) (blocks : Option (List Block)),
    (Block.placementsOption place outer blocks).map (·.placeholder)
      = Block.placeholdersOption Item.placeholders blocks
  | _, _, none => rfl
  | place, outer, some blocks => by
      rw [Block.placementsOption, Block.placeholdersOption, Block.map_placeholder_placementsList]

theorem Block.map_placeholder_placementsList : ∀ (place : List Nat) (position : Nat)
    (outer : List Declaration) (blocks : List Block),
    (Block.placementsList place position outer blocks).map (·.placeholder)
      = Block.placeholdersList Item.placeholders blocks
  | _, _, _, [] => rfl
  | place, position, outer, block :: rest => by
      rw [Block.placementsList, Block.placeholdersList, List.map_append,
        Block.map_placeholder_placements, Block.map_placeholder_placementsList]

end

/-- The placements of a tree are those of its placeholders, in order. -/
theorem Experiment.map_placeholder_placements (e : Experiment) :
    e.placements.map (·.placeholder) = Block.placeholdersList Item.placeholders e.blocks :=
  Block.map_placeholder_placementsList _ _ _ _

/-! ### Places -/

/-- A declaration lies at a place or inside of it. -/
def Declaration.LiesAt (place : List Nat) (d : Declaration) : Prop := place <:+ d.place

/-- A declaration lies in a child of a place that has at least the given position. -/
def Declaration.LiesFrom (place : List Nat) (position : Nat) (d : Declaration) : Prop :=
  ∃ n, position ≤ n ∧ d.LiesAt (n :: place)

/-- Declarations all lie around a place and not in it. -/
def LieAround (place : List Nat) (outer : List Declaration) : Prop :=
  ∀ d ∈ outer, d.place.length < place.length

section Places

variable {place : List Nat} {position : Nat} {d : Declaration} {outer : List Declaration}

theorem Block.liesAt_declaration (place : List Nat) (block : Block) :
    (block.declaration place).LiesAt place :=
  List.suffix_refl place

theorem Declaration.LiesFrom.mono {position' : Nat} (h : d.LiesFrom place position')
    (hle : position ≤ position') : d.LiesFrom place position := by
  obtain ⟨n, hn, hlies⟩ := h
  exact ⟨n, Nat.le_trans hle hn, hlies⟩

/-- What lies in a child of a place does not lie at the place itself or around it. -/
theorem Declaration.LiesFrom.length_lt (h : d.LiesFrom place position) :
    place.length < d.place.length := by
  obtain ⟨n, _, hlies⟩ := h
  have := hlies.length_le
  rwa [List.length_cons] at this

/-- What lies in a child does not lie in a later one. -/
theorem Declaration.LiesAt.not_liesFrom (h : d.LiesAt (position :: place)) :
    ¬ d.LiesFrom place (position + 1) := by
  rintro ⟨n, hn, hlies⟩
  have hsuffix : n :: place <:+ position :: place :=
    List.suffix_of_suffix_length_le hlies h (by simp)
  have heq := hsuffix.eq_of_length (by simp)
  cases heq
  omega

/-- The declaration at a place is none of those in the children of the place. -/
theorem Declaration.not_mem_of_liesFrom {inner : List Declaration} (hplace : d.place = place)
    (hinner : ∀ other ∈ inner, other.LiesFrom place position) : d ∉ inner := by
  intro hmem
  have hlt := (hinner d hmem).length_lt
  rw [hplace] at hlt
  exact Nat.lt_irrefl _ hlt

/-- Around the blocks at the root stands the root. -/
theorem Experiment.lieAround (e : Experiment) : LieAround [0] [e.declaration] := by
  intro d hd
  rw [List.mem_singleton] at hd
  subst hd
  exact Nat.zero_lt_one

theorem LieAround.not_mem (houter : LieAround place outer) (h : d.LiesAt place) : d ∉ outer := by
  intro hmem
  exact absurd h.length_le (Nat.not_le.mpr (houter d hmem))

/-- Around the children of a block stand its own declaration and those around the block. -/
theorem LieAround.child (houter : LieAround place outer) (block : Block) (n : Nat) :
    LieAround (n :: place) (block.declaration place :: outer) := by
  intro d hd
  rcases List.mem_cons.mp hd with rfl | hd
  · exact Nat.lt_succ_self _
  · exact Nat.lt_succ_of_lt (houter d hd)

end Places

mutual

theorem Block.liesAt_of_mem_declarations : ∀ (place : List Nat) (block : Block),
    ∀ d ∈ block.declarations place, d.LiesAt place
  | place, ⟨_, _, _, _, blocks, _, _, _, _, _, _, _, _, _⟩, d, hd => by
      rw [Block.declarations, List.mem_cons] at hd
      rcases hd with rfl | hd
      · exact List.suffix_refl place
      · obtain ⟨n, _, hlies⟩ := Block.liesFrom_of_mem_declarationsOption place blocks d hd
        exact (List.suffix_cons n place).trans hlies

theorem Block.liesFrom_of_mem_declarationsOption : ∀ (place : List Nat)
    (blocks : Option (List Block)), ∀ d ∈ Block.declarationsOption place blocks,
      d.LiesFrom place 0
  | _, none, d, hd => by simp [Block.declarationsOption] at hd
  | place, some blocks, d, hd => by
      rw [Block.declarationsOption] at hd
      exact Block.liesFrom_of_mem_declarationsList place 0 blocks d hd

theorem Block.liesFrom_of_mem_declarationsList : ∀ (place : List Nat) (position : Nat)
    (blocks : List Block), ∀ d ∈ Block.declarationsList place position blocks,
      d.LiesFrom place position
  | _, _, [], d, hd => by simp [Block.declarationsList] at hd
  | place, position, block :: rest, d, hd => by
      rw [Block.declarationsList, List.mem_append] at hd
      rcases hd with hd | hd
      · exact ⟨position, Nat.le_refl _, Block.liesAt_of_mem_declarations _ block d hd⟩
      · exact (Block.liesFrom_of_mem_declarationsList place _ rest d hd).mono (Nat.le_succ _)

end

mutual

/-- Around a placeholder of a block stand declarations of blocks in it, its own one, and those
around the block. -/
theorem Block.exists_inner_of_mem_placements : ∀ (place : List Nat) (outer : List Declaration)
    (block : Block), ∀ p ∈ block.placements place outer, ∃ inner,
      p.around = inner ++ block.declaration place :: outer ∧ ∀ d ∈ inner, d.LiesFrom place 0
  | place, outer, ⟨_, _, _, _, blocks, _, _, _, _, _, _, _, _, _⟩, p, hp => by
      rw [Block.placements, List.mem_append] at hp
      rcases hp with hp | hp
      · obtain ⟨placeholder, _, rfl⟩ := List.mem_map.mp hp
        exact ⟨[], rfl, by simp⟩
      · exact Block.exists_inner_of_mem_placementsOption place _ blocks p hp

theorem Block.exists_inner_of_mem_placementsOption : ∀ (place : List Nat)
    (outer : List Declaration) (blocks : Option (List Block)),
    ∀ p ∈ Block.placementsOption place outer blocks, ∃ inner,
      p.around = inner ++ outer ∧ ∀ d ∈ inner, d.LiesFrom place 0
  | _, _, none, p, hp => by simp [Block.placementsOption] at hp
  | place, outer, some blocks, p, hp => by
      rw [Block.placementsOption] at hp
      exact Block.exists_inner_of_mem_placementsList place 0 outer blocks p hp

theorem Block.exists_inner_of_mem_placementsList : ∀ (place : List Nat) (position : Nat)
    (outer : List Declaration) (blocks : List Block),
    ∀ p ∈ Block.placementsList place position outer blocks, ∃ inner,
      p.around = inner ++ outer ∧ ∀ d ∈ inner, d.LiesFrom place position
  | _, _, _, [], p, hp => by simp [Block.placementsList] at hp
  | place, position, outer, block :: rest, p, hp => by
      rw [Block.placementsList, List.mem_append] at hp
      rcases hp with hp | hp
      · obtain ⟨inner, haround, hinner⟩ := Block.exists_inner_of_mem_placements _ outer block p hp
        refine ⟨inner ++ [block.declaration (position :: place)], ?_, ?_⟩
        · rw [haround, List.append_assoc]
          rfl
        · intro d hd
          rcases List.mem_append.mp hd with hd | hd
          · obtain ⟨n, _, hlies⟩ := hinner d hd
            exact ⟨position, Nat.le_refl _, (List.suffix_cons n _).trans hlies⟩
          · rw [List.mem_singleton] at hd
            subst hd
            exact ⟨position, Nat.le_refl _, List.suffix_refl _⟩
      · obtain ⟨inner, haround, hinner⟩ :=
          Block.exists_inner_of_mem_placementsList place _ outer rest p hp
        exact ⟨inner, haround, fun d hd => (hinner d hd).mono (Nat.le_succ _)⟩

end

/-- Around a placeholder of a block, its declaration stands once. -/
theorem Block.around_of_mem_placements {place : List Nat} {outer : List Declaration}
    {block : Block} : ∀ p ∈ block.placements place outer, ∃ inner,
      p.around = inner ++ block.declaration place :: outer ∧ block.declaration place ∉ inner := by
  intro p hp
  obtain ⟨inner, haround, hinner⟩ := Block.exists_inner_of_mem_placements place outer block p hp
  exact ⟨inner, haround, Declaration.not_mem_of_liesFrom rfl hinner⟩

/-- Around a placeholder of a tree, the declaration of the root stands once. -/
theorem Experiment.around_of_mem_placements {e : Experiment} : ∀ p ∈ e.placements, ∃ inner,
    p.around = inner ++ [e.declaration] ∧ e.declaration ∉ inner := by
  intro p hp
  obtain ⟨inner, haround, hinner⟩ :=
    Block.exists_inner_of_mem_placementsList [] 0 [e.declaration] e.blocks p hp
  exact ⟨inner, haround, Declaration.not_mem_of_liesFrom rfl hinner⟩

/-! ### Declarations that stay apart -/

section Apart

variable {place : List Nat} {position : Nat} {d : Declaration} {outer : List Declaration}

theorem Placement.nearest_ne_of_not_mem {p : Placement} (h : d ∉ p.around) : p.nearest ≠ some d :=
  fun hnearest => h (Placement.mem_around_of_nearest hnearest)

/-- No placeholder of a block itself is bound to a declaration in a child of it. -/
theorem Block.nearest_ne_of_child (block : Block) (houter : LieAround place outer)
    (hd : d.LiesFrom place position) :
    ∀ p ∈ block.ownPlaceholders.map fun placeholder =>
        ({ around := block.declaration place :: outer, placeholder := placeholder } : Placement),
      p.nearest ≠ some d := by
  intro p hp
  obtain ⟨placeholder, _, rfl⟩ := List.mem_map.mp hp
  obtain ⟨n, _, hlies⟩ := hd
  exact Placement.nearest_ne_of_not_mem ((houter.child block n).not_mem hlies)

/-- No placeholder of later siblings is bound to a declaration of a block. -/
theorem Block.nearest_ne_of_later (rest : List Block)
    (houter : LieAround (position :: place) outer) (hd : d.LiesAt (position :: place)) :
    ∀ p ∈ Block.placementsList place (position + 1) outer rest, p.nearest ≠ some d := by
  intro p hp
  obtain ⟨inner, haround, hinner⟩ :=
    Block.exists_inner_of_mem_placementsList place (position + 1) outer rest p hp
  apply Placement.nearest_ne_of_not_mem
  rw [haround, List.mem_append]
  rintro (hmem | hmem)
  · exact hd.not_liesFrom (hinner d hmem)
  · exact houter.not_mem hd hmem

/-- No placeholder of a block is bound to a declaration of later siblings. -/
theorem Block.nearest_ne_of_earlier (block : Block)
    (houter : LieAround (position :: place) outer) (hd : d.LiesFrom place (position + 1)) :
    ∀ p ∈ block.placements (position :: place) outer, p.nearest ≠ some d := by
  intro p hp
  obtain ⟨inner, haround, hinner⟩ :=
    Block.exists_inner_of_mem_placements (position :: place) outer block p hp
  have hhere : ¬ d.LiesAt (position :: place) := fun hlies => hlies.not_liesFrom hd
  apply Placement.nearest_ne_of_not_mem
  rw [haround, List.mem_append, List.mem_cons]
  rintro (hmem | rfl | hmem)
  · obtain ⟨n, _, hlies⟩ := hinner d hmem
    exact hhere ((List.suffix_cons n _).trans hlies)
  · exact hhere (List.suffix_refl _)
  · obtain ⟨n, _, hlies⟩ := hd
    have haside : LieAround (n :: place) outer := houter
    exact haside.not_mem hlies hmem

end Apart

/-! ### Declarations one around the other -/

/-- Declarations lie one around the other, the innermost first, and all of them around a place. -/
def Nested (place : List Nat) (outer : List Declaration) : Prop :=
  (∀ far ∈ outer, far.place <:+ place) ∧
    outer.Pairwise fun near far => near.LiesAt far.place

theorem Nested.child {place : List Nat} {outer : List Declaration} (h : Nested place outer)
    (position : Nat) : Nested (position :: place) outer :=
  ⟨fun far hfar => (h.1 far hfar).trans (List.suffix_cons position place), h.2⟩

theorem Nested.block {place : List Nat} {outer : List Declaration} (h : Nested place outer)
    (block : Block) : Nested place (block.declaration place :: outer) := by
  refine ⟨List.forall_mem_cons.mpr ⟨List.suffix_refl place, h.1⟩, List.pairwise_cons.mpr ?_⟩
  exact ⟨h.1, h.2⟩

mutual

theorem Block.nested_placements : ∀ {place : List Nat} {outer : List Declaration} {block : Block},
    Nested place outer → ∀ p ∈ block.placements place outer, ∃ own, Nested own p.around
  | place, outer, ⟨_, _, _, _, blocks, _, _, _, _, _, _, _, _, _⟩, h, p, hp => by
      rw [Block.placements, List.mem_append] at hp
      rcases hp with hp | hp
      · obtain ⟨placeholder, _, rfl⟩ := List.mem_map.mp hp
        exact ⟨place, h.block _⟩
      · exact Block.nested_placementsOption (h.block _) p hp

theorem Block.nested_placementsOption : ∀ {place : List Nat} {outer : List Declaration}
    {blocks : Option (List Block)}, Nested place outer →
      ∀ p ∈ Block.placementsOption place outer blocks, ∃ own, Nested own p.around
  | _, _, none, _, p, hp => by simp [Block.placementsOption] at hp
  | _, _, some _, h, p, hp => by
      rw [Block.placementsOption] at hp
      exact Block.nested_placementsList h p hp

theorem Block.nested_placementsList : ∀ {place : List Nat} {position : Nat}
    {outer : List Declaration} {blocks : List Block}, Nested place outer →
      ∀ p ∈ Block.placementsList place position outer blocks, ∃ own, Nested own p.around
  | _, _, _, [], _, p, hp => by simp [Block.placementsList] at hp
  | _, position, _, _ :: _, h, p, hp => by
      rw [Block.placementsList, List.mem_append] at hp
      rcases hp with hp | hp
      · exact Block.nested_placements (h.child position) p hp
      · exact Block.nested_placementsList h p hp

end

/-- A placeholder below a declaration of its bank is bound to that declaration or to one inside of
it: never to one around it and never to one beside it. -/
theorem Experiment.nearest_liesAt {e : Experiment} {p : Placement} (hp : p ∈ e.placements)
    {inner d : Declaration} (hinner : inner ∈ p.around) (hdeclares : inner.declares p = true)
    (hnearest : p.nearest = some d) : d.LiesAt inner.place := by
  have hroot : Nested [] [e.declaration] := ⟨by simp [Experiment.declaration], by simp⟩
  obtain ⟨_, _, hpairwise⟩ := Block.nested_placementsList hroot p hp
  obtain ⟨within, without, haround⟩ := List.append_of_mem hinner
  rw [haround, List.pairwise_append] at hpairwise
  obtain ⟨_, _, hwithin⟩ := hpairwise
  rw [Placement.nearest, haround, List.find?_append] at hnearest
  cases hfound : within.find? (·.declares p) with
  | some found =>
      rw [hfound, Option.some_or] at hnearest
      cases hnearest
      exact hwithin d (List.mem_of_find?_eq_some hfound) inner List.mem_cons_self
  | none =>
      rw [hfound, Option.none_or, List.find?_cons] at hnearest
      simp only [hdeclares] at hnearest
      cases hnearest
      exact List.suffix_refl _

end Paradigm
