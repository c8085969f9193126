/-
Module: Paradigm.Proofs.Families
Layer: Proofs
Purpose: Blocks side by side. The blocks of a tree fall into families, each under the treatments of
  its parent; a block has the treatment with the greatest index among those that name it. In the
  document the children of each parent stand as they do in the tree, under the guards that their
  treatments give them.
Imports: Paradigm.Proofs.Compilation, Paradigm.Proofs.Expansion.Minting,
  Paradigm.Proofs.Resolution.Nodes
Main exports: NamedAt, finalIndex_eq_some_iff, finalIndex_eq_none_iff, Family, Experiment.families,
  Experiment.mem_allBlocks_iff, Block.PlacedAs, Experiment.Compiled.families
-/
import Paradigm.Proofs.Compilation
import Paradigm.Proofs.Expansion.Minting
import Paradigm.Proofs.Resolution.Nodes

namespace Paradigm

/-! ### The treatment of a block -/

/-- Whether the sublist at an index names a block. -/
def NamedAt (treatments : List (List String)) (id : String) (index : Nat) : Prop :=
  ∃ sublist, treatments[index]? = some sublist ∧ id ∈ sublist

theorem NamedAt.lt {treatments : List (List String)} {id : String} {index : Nat}
    (h : NamedAt treatments id index) : index < treatments.length := by
  obtain ⟨sublist, hsublist, _⟩ := h
  exact (List.getElem?_eq_some_iff.mp hsublist).1

theorem namedAt_concat {treatments : List (List String)} {last : List String} {id : String}
    {index : Nat} : NamedAt (treatments ++ [last]) id index ↔
      NamedAt treatments id index ∨ index = treatments.length ∧ id ∈ last := by
  unfold NamedAt
  rcases Nat.lt_trichotomy index treatments.length with hlt | rfl | hgt
  · simp [List.getElem?_append_left hlt, hlt.ne]
  · simp
  · have hpast : treatments.length ≤ index := hgt.le
    have hnone : treatments[index]? = none := List.getElem?_eq_none hpast
    have hlast : ([last] : List (List String))[index - treatments.length]? = none :=
      List.getElem?_eq_none (by simp; omega)
    simp [List.getElem?_append_right hpast, hnone, hlast, hgt.ne']

/-- Blocks named in some sublist are named at some index. -/
theorem exists_namedAt_iff {treatments : List (List String)} {id : String} :
    (∃ index, NamedAt treatments id index) ↔ id ∈ treatments.flatten := by
  rw [List.mem_flatten]
  constructor
  · rintro ⟨index, sublist, hsublist, hid⟩
    exact ⟨sublist, List.mem_of_getElem? hsublist, hid⟩
  · rintro ⟨sublist, hsublist, hid⟩
    obtain ⟨index, hindex⟩ := List.getElem?_of_mem hsublist
    exact ⟨index, sublist, hindex, hid⟩

/-- One more sublist takes over the blocks that it names. -/
theorem finalIndex_concat (treatments : List (List String)) (last : List String) (id : String) :
    finalIndex (assignments (treatments ++ [last])) id =
      if id ∈ last then some treatments.length else finalIndex (assignments treatments) id := by
  have hsplit : assignments (treatments ++ [last])
      = assignments treatments ++ last.map fun name => (name, treatments.length) := by
    simp [assignments, List.zipIdx_append]
  have hlast : ∀ names : List String,
      (names.map fun name => (name, treatments.length)).lookup id
        = if id ∈ names then some treatments.length else none := by
    intro names
    induction names with
    | nil => rfl
    | cons name rest ih =>
        rw [List.map_cons, List.lookup_cons, ih]
        by_cases hname : id = name
        · simp [hname]
        · simp [hname, beq_eq_false_iff_ne.mpr hname]
  rw [hsplit, finalIndex, List.reverse_append, List.lookup_append, ← List.map_reverse, hlast]
  by_cases hid : id ∈ last <;> simp [hid, finalIndex]

/-- A block that no sublist names has no treatment. -/
theorem finalIndex_eq_none_iff {treatments : List (List String)} {id : String} :
    finalIndex (assignments treatments) id = none ↔ id ∉ treatments.flatten := by
  induction treatments using List.reverseRecOn with
  | nil => simp [assignments, finalIndex]
  | append_singleton treatments last ih =>
      rw [finalIndex_concat, List.flatten_concat, List.mem_append]
      split
      · rename_i hlast
        simp [hlast]
      · rename_i hlast
        rw [ih]
        simp [hlast]

/-- A block has the treatment with the greatest index among those that name it. -/
theorem finalIndex_eq_some_iff {treatments : List (List String)} {id : String} {index : Nat} :
    finalIndex (assignments treatments) id = some index ↔
      IsGreatest { other | NamedAt treatments id other } index := by
  induction treatments using List.reverseRecOn with
  | nil => simp [assignments, finalIndex, NamedAt, IsGreatest]
  | append_singleton treatments last ih =>
      rw [finalIndex_concat]
      split
      · rename_i hlast
        -- The last sublist names the block, and no index is beyond it.
        have hgreatest : IsGreatest { other | NamedAt (treatments ++ [last]) id other }
            treatments.length := by
          constructor
          · exact namedAt_concat.mpr (.inr ⟨rfl, hlast⟩)
          · intro other hother
            have hlt := NamedAt.lt hother
            rw [List.length_append, List.length_singleton] at hlt
            exact Nat.le_of_lt_succ hlt
        rw [Option.some.injEq]
        constructor
        · rintro rfl
          exact hgreatest
        · intro hindex
          exact hgreatest.unique hindex
      · rename_i hlast
        rw [ih]
        simp [namedAt_concat, hlast]

/-! ### Families of blocks -/

/-- Blocks that stand side by side, with the treatments of their parent. -/
structure Family where
  treatments : List (List String)
  children : List Block

/-- The blocks directly in a block. -/
def Block.family (block : Block) : Family :=
  { treatments := block.treatments, children := block.blocks.getD [] }

/-- The families of an experiment: the blocks at the top, then those directly in each block. -/
def Experiment.families (e : Experiment) : List Family :=
  { treatments := e.treatments, children := e.blocks } :: e.allBlocks.map Block.family

/-- The blocks of a document that stand side by side, in the same order. -/
def Document.Experiment.families (document : Document.Experiment) : List (List Document.Block) :=
  document.blocks :: document.allBlocks.map fun block => block.blocks.getD []

mutual

theorem Block.mem_within_iff : ∀ (outer block : Block), block ∈ outer.within ↔
    block = outer ∨ ∃ parent ∈ outer.within, block ∈ parent.blocks.getD []
  | ⟨_, _, _, _, blocks, _, _, _, _, _, _, _, _, _⟩, block => by
      have hchildren := Block.mem_withinOption_iff blocks block
      rw [Block.within, List.mem_cons, hchildren]
      simp

theorem Block.mem_withinOption_iff : ∀ (blocks : Option (List Block)) (block : Block),
    block ∈ Block.withinOption blocks ↔ block ∈ blocks.getD [] ∨
      ∃ parent ∈ Block.withinOption blocks, block ∈ parent.blocks.getD []
  | none, block => by simp [Block.withinOption]
  | some blocks, block => by
      rw [Block.withinOption]
      exact Block.mem_withinList_iff blocks block

theorem Block.mem_withinList_iff : ∀ (blocks : List Block) (block : Block),
    block ∈ Block.withinList blocks ↔ block ∈ blocks ∨
      ∃ parent ∈ Block.withinList blocks, block ∈ parent.blocks.getD []
  | [], block => by simp [Block.withinList]
  | first :: rest, block => by
      have hfirst := Block.mem_within_iff first block
      have hrest := Block.mem_withinList_iff rest block
      rw [Block.withinList, List.mem_append, hfirst, hrest, List.mem_cons]
      simp only [List.mem_append, or_and_right, exists_or]
      exact or_or_or_comm

end

/-- Every block is in a family, and families hold nothing else. -/
theorem Experiment.mem_allBlocks_iff {e : Experiment} {block : Block} :
    block ∈ e.allBlocks ↔ ∃ family ∈ e.families, block ∈ family.children := by
  rw [Experiment.allBlocks, Block.mem_withinList_iff]
  simp [Experiment.families, Block.family, Experiment.allBlocks]

/-- Families of a document hold blocks of it. -/
theorem Document.Experiment.mem_allBlocks {document : Document.Experiment}
    {siblings : List Document.Block} {block : Document.Block} (h : siblings ∈ document.families)
    (hblock : block ∈ siblings) : block ∈ document.allBlocks := by
  rcases List.mem_cons.mp h with rfl | h
  · exact Document.Block.mem_withinList_of_mem hblock
  · obtain ⟨parent, hparent, rfl⟩ := List.mem_map.mp h
    exact Document.Block.child_mem_withinList _ parent hparent block hblock

/-! ### Children in the document -/

/-- A child block beside its block of the document, under the treatment that its parent has for it:
its guard under the treatment was found in order and resolved. -/
structure Block.PlacedAs (index : Index) (treatments : List (List String)) (block : Block)
    (shown : Document.Block) : Prop where
  id : shown.id = block.id
  checked : Guard.checkOption (block.treated (finalIndex (assignments treatments) block.id)).guard
    block.id = .ok ()
  guard : index.resolveOption block.id
    (block.treated (finalIndex (assignments treatments) block.id)).guard = .ok shown.guard

section Placed

variable {index : Index}

theorem Block.placedAs_of_resolved {treatments : List (List String)} {ids ids' : IdSource}
    {block expanded : Block} {shown : Document.Block}
    (h : Block.Expanded (finalIndex (assignments treatments) block.id) ids block expanded ids')
    (hresolved : expanded.Resolved index shown) : block.PlacedAs index treatments shown := by
  have hid := h.id_eq
  have hguard := h.guard_eq
  cases hresolved with
  | mk checked ofPages ofItems ofGroups children guards shape served =>
      subst shape
      have hcheck := (Block.check_eq_ok_iff.mp checked).guard
      rw [hid, hguard] at hcheck guards
      exact ⟨hid, hcheck, guards⟩

/-- Children that were expanded under their treatments and resolved, in order. -/
theorem Block.ExpandedList.placedAs {treatments : List (List String)} :
    ∀ {blocks expanded : List Block} {shown : List Document.Block} {ids ids' : IdSource},
      Block.ExpandedList (assignments treatments) ids blocks expanded ids' →
        Block.ResolvedList index expanded shown →
          List.Forall₂ (Block.PlacedAs index treatments) blocks shown
  | _, _, _, _, _, .nil, .nil => .nil
  | _, _, _, _, _, .cons head tail, .cons first rest => by
      apply List.Forall₂.cons
      · exact Block.placedAs_of_resolved head first
      · exact tail.placedAs rest

theorem Block.ExpandedOption.placedAs {treatments : List (List String)}
    {blocks expanded : Option (List Block)} {shown : Option (List Document.Block)}
    {ids ids' : IdSource}
    (h : Block.ExpandedOption (assignments treatments) ids blocks expanded ids')
    (hresolved : Block.ResolvedOption index expanded shown) :
    List.Forall₂ (Block.PlacedAs index treatments) (blocks.getD []) (shown.getD []) := by
  cases h with
  | none =>
      cases hresolved
      exact .nil
  | some list =>
      cases hresolved with
      | some blocks => exact list.placedAs blocks

/-- A family beside the blocks that stand in its place in the document. -/
def Family.PlacedAs (index : Index) (family : Family) (shown : List Document.Block) : Prop :=
  List.Forall₂ (Block.PlacedAs index family.treatments) family.children shown

theorem Block.family_placedAs {ids ids' : IdSource} {block expanded : Block}
    {shown : Document.Block} (h : Block.ExpandedWithin ids ids' block expanded)
    (hresolved : expanded.Resolved index shown) :
    block.family.PlacedAs index (shown.blocks.getD []) := by
  obtain ⟨treatment, ids₁, ids₂, _, _, hexpanded⟩ := h
  obtain ⟨ids₃, _, hchildren⟩ := hexpanded.children
  cases hresolved with
  | mk checked ofPages ofItems ofGroups children guards shape served =>
      subst shape
      exact hchildren.placedAs children

/-- The families of a tree that compiles stand in the document in their order. -/
theorem Experiment.Compiled.families {e expanded : Experiment} {session : Session}
    {ids : IdSource} {slots : SlotAllocator} {document : Document.Experiment}
    (h : e.Compiled session expanded ids index slots document) :
    List.Forall₂ (Family.PlacedAs index) e.families document.families := by
  apply List.Forall₂.cons
  · exact h.expands.blocks.placedAs h.resolves.blocks
  · rw [List.forall₂_map_left_iff, List.forall₂_map_right_iff]
    exact forall₂_comp h.expands.allBlocks h.resolves.allBlocks fun _ _ _ => Block.family_placedAs

end Placed

end Paradigm
