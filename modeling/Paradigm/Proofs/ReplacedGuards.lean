/-
Module: Paradigm.Proofs.ReplacedGuards
Layer: Proofs
Purpose: Guards that treatments replace, and what is said of it. A block that does not have the
  guard of the author in the document is named by the treatments of its parent and runs for the last
  index of a sublist with it. A guard that is not on the permutation is reported as replaced. One
  that is on the permutation is replaced without a word, unless two sublists name the block.
Imports: Paradigm.Proofs.CopiedBlocks, Paradigm.Proofs.Treatments, Paradigm.Proofs.Warnings
Main exports: exists_reassigned_iff, Experiment.allBlocks_perm, Experiment.family_unique,
  Experiment.guardReplaced_mem_iff, Experiment.exists_reassigned_mem_iff, Block.Overruled,
  Block.GuardedAs, Experiment.compile_replacements
-/
import Paradigm.Proofs.CopiedBlocks
import Paradigm.Proofs.Treatments
import Paradigm.Proofs.Warnings

namespace Paradigm

/-! ### Blocks under two indices -/

theorem mem_indicesOf_iff {given : List (String × Nat)} {id : String} {index : Nat} :
    index ∈ indicesOf given id ↔ (id, index) ∈ given := by
  simp [indicesOf]

theorem indicesOf_concat (given : List (String × Nat)) (last : String × Nat) (id : String) :
    indicesOf (given ++ [last]) id
      = indicesOf given id ++ if last.1 = id then [last.2] else [] := by
  unfold indicesOf
  rw [List.filter_append, List.map_append]
  by_cases hlast : last.1 = id <;> simp [hlast]

/-- Blocks are assigned the indices of the sublists that name them. -/
theorem mem_assignments_iff {treatments : List (List String)} {id : String} {index : Nat} :
    (id, index) ∈ assignments treatments ↔ NamedAt treatments id index := by
  simp [assignments, NamedAt, List.mem_zipIdx_iff_getElem?]

theorem mem_collision_iff {owner : String} {before : List (String × Nat)} {next : String × Nat}
    {warning : Warning} : warning ∈ collision owner before next ↔
      ∃ previous, (indicesOf before next.1).getLast? = some previous ∧ previous ≠ next.2 ∧
        warning = .reassigned owner next.1 previous next.2 := by
  unfold collision
  cases (indicesOf before next.1).getLast? with
  | none => simp
  | some previous => by_cases hsame : previous = next.2 <;> simp [hsame]

/-- One more assignment adds its own collision. -/
theorem collisions_concat (owner : String) (given : List (String × Nat)) (last : String × Nat) :
    collisions owner (given ++ [last])
      = collisions owner given ++ collision owner given last := by
  have hbefore : ∀ entry ∈ given.zipIdx,
      collision owner ((given ++ [last]).take entry.2) entry.1
        = collision owner (given.take entry.2) entry.1 := by
    rintro ⟨entry, position⟩ hentry
    have hlt : position < given.length := by
      have hlookup := List.mem_zipIdx_iff_getElem?.mp hentry
      exact (List.getElem?_eq_some_iff.mp hlookup).1
    rw [List.take_append_of_le_length hlt.le]
  unfold collisions
  rw [List.zipIdx_append, List.flatMap_append, List.flatMap_congr hbefore]
  simp

/-- One more assignment is a collision over a block where it gives the block another index than the
last one before. -/
theorem exists_reassigned_concat {owner : String} {given : List (String × Nat)}
    {last : String × Nat} {id : String} :
    (∃ node previous next, .reassigned node id previous next ∈ collisions owner (given ++ [last])) ↔
      (∃ node previous next, .reassigned node id previous next ∈ collisions owner given) ∨
        last.1 = id ∧ ∃ previous ∈ (indicesOf given id).getLast?, previous ≠ last.2 := by
  simp only [collisions_concat, List.mem_append, exists_or, mem_collision_iff,
    Warning.reassigned.injEq]
  apply or_congr_right
  constructor
  · rintro ⟨_, previous, _, _, hprevious, hother, rfl, rfl, rfl, rfl⟩
    exact ⟨rfl, previous, hprevious, hother⟩
  · rintro ⟨rfl, previous, hprevious, hother⟩
    exact ⟨owner, previous, last.2, previous, hprevious, hother, rfl, rfl, rfl, rfl⟩

/-- There is a collision over a block where it is given two indices. -/
theorem exists_reassigned_iff {owner : String} {given : List (String × Nat)} {id : String} :
    (∃ node previous next, .reassigned node id previous next ∈ collisions owner given) ↔
      ∃ index ∈ indicesOf given id, ∃ other ∈ indicesOf given id, other ≠ index := by
  induction given using List.reverseRecOn with
  | nil => simp [collisions, indicesOf]
  | append_singleton given last ih =>
      rw [exists_reassigned_concat, ih, indicesOf_concat]
      by_cases hlast : last.1 = id
      · rw [if_pos hlast]
        cases hprevious : (indicesOf given id).getLast? with
        | none =>
            have hnone := List.getLast?_eq_none_iff.mp hprevious
            simp [hnone]
        | some previous =>
            have hmem : previous ∈ indicesOf given id := List.mem_of_getLast? hprevious
            by_cases hsame : previous = last.2
            · -- The index is not a new one.
              have hkept : ∀ index,
                  index ∈ indicesOf given id ++ [last.2] ↔ index ∈ indicesOf given id := by
                intro index
                rw [List.mem_append, List.mem_singleton, or_iff_left_of_imp]
                rintro rfl
                exact hsame ▸ hmem
              simp [hkept, hsame]
            · have htwo : ∃ index ∈ indicesOf given id ++ [last.2],
                  ∃ other ∈ indicesOf given id ++ [last.2], other ≠ index :=
                ⟨last.2, by simp, previous, by simp [hmem], hsame⟩
              have hcollision : ∃ index ∈ some previous, index ≠ last.2 := ⟨previous, rfl, hsame⟩
              exact iff_of_true (.inr ⟨hlast, hcollision⟩) htwo
      · simp [hlast]

/-! ### Families apart -/

mutual

theorem Block.blocks_sublist : ∀ block : Block,
    (block.within.map fun inner => (NodeKind.block, inner.id)).Sublist block.identities
  | ⟨_, pages, items, groups, blocks, _, _, _, _, _, _, _, _, _⟩ => by
      have hchildren := Block.blocks_sublistOption blocks
      rw [Block.within, Block.identities, List.map_cons, List.cons_append, List.cons_append,
        List.cons_append]
      exact (hchildren.trans (List.sublist_append_right _ _)).cons_cons _

theorem Block.blocks_sublistOption : ∀ blocks : Option (List Block),
    ((Block.withinOption blocks).map fun inner => (NodeKind.block, inner.id)).Sublist
      (Block.identitiesOption blocks)
  | none => .slnil
  | some blocks => by
      rw [Block.withinOption, Block.identitiesOption]
      exact Block.blocks_sublistList blocks

theorem Block.blocks_sublistList : ∀ blocks : List Block,
    ((Block.withinList blocks).map fun inner => (NodeKind.block, inner.id)).Sublist
      (Block.identitiesList blocks)
  | [] => .slnil
  | block :: rest => by
      rw [Block.withinList, Block.identitiesList, List.map_append]
      exact (Block.blocks_sublist block).append (Block.blocks_sublistList rest)

end

mutual

theorem Block.within_perm : ∀ outer : Block,
    outer.within.Perm (outer :: outer.within.flatMap fun parent => parent.blocks.getD [])
  | ⟨_, _, _, _, blocks, _, _, _, _, _, _, _, _, _⟩ => by
      have hchildren := Block.withinOption_perm blocks
      rw [Block.within, List.flatMap_cons]
      exact hchildren.cons _

theorem Block.withinOption_perm : ∀ blocks : Option (List Block),
    (Block.withinOption blocks).Perm
      (blocks.getD [] ++ (Block.withinOption blocks).flatMap fun parent => parent.blocks.getD [])
  | none => .nil
  | some blocks => by
      rw [Block.withinOption]
      exact Block.withinList_perm blocks

theorem Block.withinList_perm : ∀ blocks : List Block,
    (Block.withinList blocks).Perm
      (blocks ++ (Block.withinList blocks).flatMap fun parent => parent.blocks.getD [])
  | [] => .nil
  | first :: rest => by
      have hfirst := Block.within_perm first
      have hrest := Block.withinList_perm rest
      rw [Block.withinList, List.flatMap_append, List.cons_append, ← List.append_assoc]
      apply (hfirst.append hrest).trans
      rw [List.cons_append]
      apply List.Perm.cons
      rw [← List.append_assoc]
      exact List.perm_append_comm.append_right _

end

/-- The families hold each block in one place. -/
theorem Experiment.allBlocks_perm (e : Experiment) :
    e.allBlocks.Perm (e.families.flatMap Family.children) := by
  have hperm := Block.withinList_perm e.blocks
  rw [Experiment.families, List.flatMap_cons, List.flatMap_map]
  exact hperm

/-- In a tree with distinct nodes, blocks with one identifier are one block in one family. -/
theorem Experiment.family_unique {e : Experiment} (h : e.identities.Nodup) :
    ∀ family ∈ e.families, ∀ other ∈ e.families, ∀ block ∈ family.children,
      ∀ same ∈ other.children, block.id = same.id → family = other ∧ block = same := by
  have hdistinct := h.sublist (Block.blocks_sublistList e.blocks)
  have hnodup : (e.families.flatMap Family.children).Nodup :=
    e.allBlocks_perm.nodup_iff.mp (.of_map _ hdistinct)
  intro family hfamily other hother block hblock same hsame hid
  have hmem : block ∈ e.allBlocks := Experiment.mem_allBlocks_iff.mpr ⟨family, hfamily, hblock⟩
  have hmem' : same ∈ e.allBlocks := Experiment.mem_allBlocks_iff.mpr ⟨other, hother, hsame⟩
  obtain rfl : block = same := List.inj_on_of_nodup_map hdistinct hmem hmem' (by rw [hid])
  refine ⟨?_, rfl⟩
  by_contra hne
  have hapart := (List.nodup_flatMap.mp hnodup).2
  have : Std.Symm (Function.onFun List.Disjoint Family.children) := ⟨fun _ _ h => h.symm⟩
  exact hapart.forall hfamily hother hne hblock hsame

/-- Treatments of a tree that expands name children. -/
theorem Experiment.Expanded.treatments_named {e expanded : Experiment} {ids ids' : IdSource}
    (h : Experiment.Expanded ids e expanded ids') :
    ∀ family ∈ e.families, ∀ id ∈ family.treatments.flatten,
      ∃ child ∈ family.children, child.id = id := by
  intro family hfamily id hid
  have href : (ReferenceList.treatments, id)
      ∈ family.treatments.flatten.map fun name => (ReferenceList.treatments, name) :=
    List.mem_map_of_mem hid
  rw [← List.mem_map]
  rcases List.mem_cons.mp hfamily with rfl | hfamily
  · have hroot := (Experiment.check_eq_ok_iff.mp h.checked).references
    exact forall_references_of_check hroot _ (List.mem_append_right _ href)
  · obtain ⟨block, hblock, rfl⟩ := List.mem_map.mp hfamily
    have hchildren := h.references block hblock
    exact Block.forall_references_of_check hchildren _ (List.mem_append_right _ href)

/-! ### Warnings about a child -/

namespace Parent

variable {parent : Parent} {id : String}

theorem guardReplaced_mem_iff {index : Nat} :
    .guardReplaced id index ∈ parent.warnings ↔ ∃ child ∈ parent.children, child.id = id ∧
      child.guardsItself = true ∧ finalIndex (assignments parent.treatments) id = some index := by
  have hshared : .guardReplaced id index ∉ parent.shared := by
    unfold shared
    split <;> simp
  have hcollisions : .guardReplaced id index
      ∉ collisions parent.id (assignments parent.treatments) := by
    simp [collisions, mem_collision_iff]
  simp only [warnings, List.mem_append, hshared, hcollisions, false_or]
  simp only [replacements, List.mem_flatMap, List.mem_filter, List.mem_map, Option.mem_toList,
    ← finalIndex_eq_getLast?, Warning.guardReplaced.injEq]
  constructor
  · rintro ⟨child, ⟨hchild, hitself⟩, _, hindex, rfl, rfl⟩
    exact ⟨child, hchild, rfl, hitself, hindex⟩
  · rintro ⟨child, hchild, rfl, hitself, hindex⟩
    exact ⟨child, ⟨hchild, hitself⟩, index, hindex, rfl, rfl⟩

theorem exists_reassigned_mem_iff :
    (∃ node previous next, .reassigned node id previous next ∈ parent.warnings) ↔
      ∃ index, NamedAt parent.treatments id index ∧
        ∃ other, NamedAt parent.treatments id other ∧ other ≠ index := by
  have hcollisions : ∀ node previous next, .reassigned node id previous next ∈ parent.warnings ↔
      .reassigned node id previous next
        ∈ collisions parent.id (assignments parent.treatments) := by
    intro node previous next
    have hshared : .reassigned node id previous next ∉ parent.shared := by
      unfold shared
      split <;> simp
    have hreplacements : .reassigned node id previous next ∉ parent.replacements := by
      simp [replacements]
    simp [warnings, hshared, hreplacements]
  simp only [hcollisions, exists_reassigned_iff, mem_indicesOf_iff, mem_assignments_iff]

end Parent

theorem Experiment.families_eq_parents (e : Experiment) :
    e.families = e.parents.map Parent.toFamily := by
  rw [Experiment.families, Experiment.parents, List.map_cons, List.map_map]
  rfl

section Distinct

variable {e : Experiment} {family : Family} {block : Block}

/-- A guard is reported as replaced where the treatments of the family name its block and it is not
on the permutation. -/
theorem Experiment.guardReplaced_mem_iff (h : e.identities.Nodup) (hfamily : family ∈ e.families)
    (hblock : block ∈ family.children) {index : Nat} :
    .guardReplaced block.id index ∈ e.parents.flatMap Parent.warnings ↔
      block.guardsItself = true ∧
        finalIndex (assignments family.treatments) block.id = some index := by
  have hunique := Experiment.family_unique h family hfamily
  rw [Experiment.families_eq_parents] at hfamily hunique
  rw [List.mem_flatMap]
  constructor
  · rintro ⟨parent, hparent, hwarning⟩
    obtain ⟨child, hchild, hid, hitself, hindex⟩ := Parent.guardReplaced_mem_iff.mp hwarning
    obtain ⟨rfl, rfl⟩ :=
      hunique _ (List.mem_map_of_mem hparent) block hblock child hchild hid.symm
    exact ⟨hitself, hindex⟩
  · rintro ⟨hitself, hindex⟩
    obtain ⟨parent, hparent, rfl⟩ := List.mem_map.mp hfamily
    exact ⟨parent, hparent, Parent.guardReplaced_mem_iff.mpr ⟨block, hblock, rfl, hitself, hindex⟩⟩

/-- There is a collision over a block where the treatments of the family name it at two indices. -/
theorem Experiment.exists_reassigned_mem_iff (h : e.identities.Nodup)
    (hnamed : ∀ family ∈ e.families, ∀ id ∈ family.treatments.flatten,
      ∃ child ∈ family.children, child.id = id)
    (hfamily : family ∈ e.families) (hblock : block ∈ family.children) :
    (∃ node previous next, .reassigned node block.id previous next
        ∈ e.parents.flatMap Parent.warnings) ↔
      ∃ index, NamedAt family.treatments block.id index ∧
        ∃ other, NamedAt family.treatments block.id other ∧ other ≠ index := by
  have hunique := Experiment.family_unique h family hfamily
  rw [Experiment.families_eq_parents] at hfamily hunique hnamed
  simp only [List.mem_flatMap]
  constructor
  · rintro ⟨node, previous, next, parent, hparent, hwarning⟩
    obtain ⟨index, hindex, hother⟩ :=
      Parent.exists_reassigned_mem_iff.mp ⟨node, previous, next, hwarning⟩
    have hsome := exists_namedAt_iff.mp ⟨index, hindex⟩
    obtain ⟨child, hchild, hid⟩ := hnamed _ (List.mem_map_of_mem hparent) _ hsome
    obtain ⟨rfl, _⟩ := hunique _ (List.mem_map_of_mem hparent) block hblock child hchild hid.symm
    exact ⟨index, hindex, hother⟩
  · intro htwo
    obtain ⟨parent, hparent, rfl⟩ := List.mem_map.mp hfamily
    obtain ⟨node, previous, next, hwarning⟩ := Parent.exists_reassigned_mem_iff.mpr htwo
    exact ⟨node, previous, next, parent, hparent, hwarning⟩

end Distinct

/-! ### Replaced guards -/

/-- A block whose guard gives way to a treatment. The treatments of its parent name it, and in the
document it runs for the last index of a sublist with it. That its guard is replaced is reported
unless the guard is on the permutation, and that it has more than one index always is. -/
structure Block.Overruled (warnings : List Warning) (treatments : List (List String))
    (block : Block) (g : Guard) (shown : Document.Block) (index : Nat) : Prop where
  last : IsGreatest { other | NamedAt treatments block.id other } index
  guard : shown.guard = some { permutation := some (UInt32.ofNat index) }
  replaced : ∀ value, .guardReplaced block.id value ∈ warnings ↔
    value = index ∧ g.permutation = none
  reassigned : (∃ node previous next, .reassigned node block.id previous next ∈ warnings) ↔
    ∃ other, NamedAt treatments block.id other ∧ other ≠ index

/-- A block beside its block of the document, in which a guard of the author gives way to nothing
but a treatment. -/
structure Block.GuardedAs (linked : Guard → Document.Guard → Prop) (warnings : List Warning)
    (treatments : List (List String)) (block : Block) (shown : Document.Block) : Prop where
  id : shown.id = block.id
  lost : ∀ g, block.guard = some g → (∀ d, shown.guard = some d → ¬ linked g d) →
    ∃ index, block.Overruled warnings treatments g shown index

/-- A compilation that succeeds gives the warnings of the nodes of its tree and no others. -/
theorem Experiment.warnings_of_compile {e : Experiment} {session : Session}
    {document : Document.Experiment} (h : (e.compile session).outcome = .ok document) :
    (e.compile session).warnings = e.parents.flatMap Parent.warnings := by
  obtain ⟨expanded, p, index, gathered, hexpand, hindex, hresolve, _⟩ :=
    Experiment.compile_eq_ok_iff.mp h
  have hwarnings := Experiment.expand_warnings hexpand
  have hsilent : Resolving.Silent
      (expanded.resolve { index := index, registry := session.registry }) :=
    Experiment.silent_resolve fun block hblock =>
      (Experiment.checks_of_expand hexpand block hblock).2
  have hnone : gathered.warnings = [] := by
    have hleft := hsilent (.start session.registry)
    rwa [Step.left_of_ok hresolve] at hleft
  rw [Experiment.compile_of_resolve_ok hexpand hindex hresolve, hnone, List.append_nil, hwarnings,
    List.nil_append]

section Compiled

variable {e expanded : Experiment} {session : Session} {ids : IdSource} {index : Index}
  {slots : SlotAllocator} {document : Document.Experiment}

/-- A child with a guard and a treatment is overruled. -/
theorem Experiment.Compiled.overruled_of_final
    (h : e.Compiled session expanded ids index slots document) {family : Family}
    (hfamily : family ∈ e.families) {block : Block} (hblock : block ∈ family.children)
    {shown : Document.Block} (hplaced : block.PlacedAs index family.treatments shown) {g : Guard}
    (hg : block.guard = some g) {last : Nat}
    (hfinal : finalIndex (assignments family.treatments) block.id = some last) :
    block.Overruled (e.parents.flatMap Parent.warnings) family.treatments g shown last := by
  obtain ⟨hdistinct, _, _⟩ := Index.ofTrees_eq_ok h.indexed
  have hgiven : e.identities.Nodup := h.expands.minted.nodup_before hdistinct
  have hgreatest := finalIndex_eq_some_iff.mp hfinal
  have hguard := hplaced.guard
  rw [hfinal, Block.treated] at hguard
  refine ⟨hgreatest, Index.resolveOption_permutation hguard, ?_, ?_⟩
  · intro value
    rw [Experiment.guardReplaced_mem_iff hgiven hfamily hblock, hfinal, Block.guardsItself, hg,
      Option.any_some, Option.isNone_iff_eq_none, Option.some.injEq, and_comm, eq_comm]
  · rw [Experiment.exists_reassigned_mem_iff hgiven h.expands.treatments_named hfamily hblock]
    constructor
    · rintro ⟨first, hfirst, second, hsecond, hne⟩
      -- One of the two indices is not the last one.
      by_cases hlast : first = last
      · exact ⟨second, hsecond, hlast ▸ hne⟩
      · exact ⟨first, hfirst, hlast⟩
    · rintro ⟨other, hother, hne⟩
      exact ⟨last, hgreatest.1, other, hother, hne⟩

/-- A child has lost its guard to its treatment, if it has lost it. -/
theorem Experiment.Compiled.guardedAs_of_placed
    (h : e.Compiled session expanded ids index slots document) {family : Family}
    (hfamily : family ∈ e.families) {block : Block} (hblock : block ∈ family.children)
    {shown : Document.Block} (hplaced : block.PlacedAs index family.treatments shown) :
    block.GuardedAs (Guard.LinkedAs e document (session.ids.Issued ids))
      (e.parents.flatMap Parent.warnings) family.treatments shown := by
  refine ⟨hplaced.id, ?_⟩
  intro g hg hlost
  cases hfinal : finalIndex (assignments family.treatments) block.id with
  | some last => exact ⟨last, h.overruled_of_final hfamily hblock hplaced hg hfinal⟩
  | none =>
      -- Without a treatment the guard is kept.
      obtain ⟨_, hcheck, hguard⟩ := hplaced
      rw [hfinal, Block.treated] at hcheck hguard
      have hkept := h.linkedAs_option hcheck hguard
      rw [hg] at hkept
      generalize hshown : shown.guard = after at hkept
      cases hkept with
      | some hlinked => exact absurd hlinked (hlost _ hshown)

end Compiled

/-- In a tree that compiles, a block that does not have the guard of the author in the document,
with its targets resolved, is overruled by the treatments of its parent. So a guard that is not on
the permutation is never lost without a warning about its block. Every block is a child of the root
or of another block. -/
theorem Experiment.compile_replacements {e : Experiment} {session : Session}
    {document : Document.Experiment} (h : (e.compile session).outcome = .ok document) :
    List.Forall₂
      (fun family shown => List.Forall₂
        (Block.GuardedAs
          (Guard.LinkedAs e document (session.ids.Issued (e.compile session).session.ids))
          (e.compile session).warnings family.treatments)
        family.children shown)
      e.families document.families ∧
    ∀ block, block ∈ e.allBlocks ↔ ∃ family ∈ e.families, block ∈ family.children := by
  refine ⟨?_, fun _ => Experiment.mem_allBlocks_iff⟩
  obtain ⟨expanded, p, index, slots, _, hcompiled⟩ := e.compiled_of_ok h
  rw [Experiment.warnings_of_compile h]
  have hfamilies := (List.forall₂_and_left _ _).mpr ⟨fun _ hmem => hmem, hcompiled.families⟩
  apply hfamilies.imp
  rintro family shown ⟨hfamily, hplaced⟩
  have hchildren := (List.forall₂_and_left _ _).mpr ⟨fun _ hmem => hmem, hplaced⟩
  apply hchildren.imp
  rintro block after ⟨hblock, hplaced⟩
  exact hcompiled.guardedAs_of_placed hfamily hblock hplaced

/-- In the day the morning is overruled: the page that it was to wait for is no longer watched. -/
theorem Experiment.compile_replacements_day :
    (Experiment.day.compile {}).outcome = .ok Document.Experiment.day ∧
    ∃ block ∈ Experiment.day.blocks.head?, ∃ shown ∈ Document.Experiment.day.blocks.head?,
      ∃ g ∈ block.guard, ∃ index, block.Overruled (Experiment.day.compile {}).warnings
        Experiment.day.treatments g shown index := by
  refine ⟨Experiment.compile_day, ?_⟩
  obtain ⟨hfamilies, _⟩ := Experiment.compile_replacements Experiment.compile_day
  cases hfamilies with
  | cons hroot _ =>
      cases hroot with
      | cons hmorning _ =>
          refine ⟨_, rfl, _, rfl, _, rfl, hmorning.lost _ rfl ?_⟩
          rintro _ ⟨⟩ hlinked
          exact absurd hlinked.permutation (by decide)

/-! ### A guard that is lost without a word -/

/-- A night and a day shift. The night is to run for one value of the permutation, and the
treatments give it another. -/
def Experiment.shifts : Experiment where
  blocks := [
    { id := "night"
      pages := some [.telling "dusk" "Good night"]
      guard := some { permutation := some 3 } },
    { id := "day"
      pages := some [.telling "dawn" "Good morning"] }]
  treatments := [["night"], ["day"]]

/-- The document of the shifts. -/
def Document.Experiment.shifts : Document.Experiment where
  blocks := [
    { id := "night"
      pages := some [.telling "dusk" "Good night"]
      guard := some { permutation := some 0 } },
    { id := "day"
      pages := some [.telling "dawn" "Good morning"]
      guard := some { permutation := some 1 } }]
  exchangeable := []
  counterbalance := []
  banks := .empty

/-- The night does not keep its guard, and there are no warnings. -/
theorem Experiment.compile_shifts_silent :
    (Experiment.shifts.compile {}).outcome = .ok Document.Experiment.shifts ∧
    (∃ block ∈ Experiment.shifts.allBlocks, ∃ shown ∈ Document.Experiment.shifts.allBlocks,
      shown.id = block.id ∧ ∃ g, block.guard = some g ∧
        ∀ d, shown.guard = some d → ¬ Guard.LinkedAs .shifts .shifts
          (IdSource.Issued {} (Experiment.shifts.compile {}).session.ids) g d) ∧
    (Experiment.shifts.compile {}).warnings = [] := by
  refine ⟨by cbv, ?_, by cbv⟩
  refine ⟨_, List.mem_cons_self, _, List.mem_cons_self, rfl, _, rfl, ?_⟩
  rintro _ ⟨⟩ hlinked
  exact absurd hlinked.permutation (by decide)

end Paradigm
