/-
Module: Paradigm.Proofs.Warnings
Layer: Proofs
Purpose: Which warnings a compilation gives, and in which order. Each node with child blocks, from
  the root down, is warned of once: of two lists that read one permutation, of blocks that its
  treatments name under different indices, and of guards that its treatments replace. All warnings
  are given in expansion. Resolution checks blocks again and gives none.
Imports: Paradigm.Proofs.Equivariance, Paradigm.Proofs.Families, Paradigm.Proofs.Resolution.Silence,
  Paradigm.Proofs.SecondChecks
Main exports: indicesOf, finalIndex_eq_getLast?, collisions, reassignments_eq_collisions, Parent,
  Experiment.parents, Parent.warnings, Parent.warnings_eq, Experiment.expand_warnings,
  Experiment.compile_warnings
-/
import Paradigm.Proofs.Equivariance
import Paradigm.Proofs.Families
import Paradigm.Proofs.Resolution.Silence
import Paradigm.Proofs.SecondChecks

namespace Paradigm

/-! ### Collisions -/

/-- The indices that a block is given, in order. -/
def indicesOf (given : List (String × Nat)) (id : String) : List Nat :=
  (given.filter fun entry => entry.1 = id).map Prod.snd

/-- The final index of a block is the last one that it is given. -/
theorem finalIndex_eq_getLast? (given : List (String × Nat)) (id : String) :
    finalIndex given id = (indicesOf given id).getLast? := by
  induction given using List.reverseRecOn with
  | nil => rfl
  | append_singleton given last ih =>
      obtain ⟨name, index⟩ := last
      unfold finalIndex indicesOf at ih ⊢
      rw [List.reverse_append, List.reverse_singleton, List.singleton_append, List.lookup_cons,
        List.filter_append, List.map_append]
      by_cases hname : id = name
      · simp [hname]
      · have hother : ¬name = id := fun heq => hname heq.symm
        rw [beq_eq_false_iff_ne.mpr hname, ih]
        simp [hother]

/-- What there is to warn of when a block is given an index: the last index that it was given before
is another one. -/
def collision (owner : String) (before : List (String × Nat)) (next : String × Nat) :
    List Warning :=
  match (indicesOf before next.1).getLast? with
  | some previous => if previous = next.2 then [] else [.reassigned owner next.1 previous next.2]
  | none => []

/-- The collisions among assignments, in order. -/
def collisions (owner : String) (given : List (String × Nat)) : List Warning :=
  given.zipIdx.flatMap fun entry => collision owner (given.take entry.2) entry.1

/-- Reading on behind the assignments that were read. -/
theorem reassignments_eq (owner : String) (before rest : List (String × Nat)) :
    reassignments owner before.reverse rest =
      (rest.zipIdx before.length).flatMap fun entry =>
        collision owner ((before ++ rest).take entry.2) entry.1 := by
  induction rest generalizing before with
  | nil => rfl
  | cons next rest ih =>
      have hnext := ih (before ++ [next])
      have hlast : before.reverse.lookup next.1 = (indicesOf before next.1).getLast? :=
        finalIndex_eq_getLast? before next.1
      rw [List.reverse_append, List.reverse_singleton, List.singleton_append, List.length_append,
        List.length_singleton, List.append_assoc, List.singleton_append] at hnext
      rw [reassignments, hnext, hlast, List.zipIdx_cons, List.flatMap_cons, List.take_left]
      rfl

/-- The warnings of reading treatments are those of the collisions in them. -/
theorem reassignments_eq_collisions (owner : String) (given : List (String × Nat)) :
    reassignments owner [] given = collisions owner given := by
  have hread := reassignments_eq owner [] given
  rwa [List.reverse_nil, List.nil_append] at hread

/-! ### Nodes with child blocks -/

/-- A node with child blocks and the lists that read the permutation: the experiment itself, or a
block. -/
structure Parent extends Family where
  id : String
  counterbalance : List String

/-- A block as the parent of its child blocks. -/
def Block.parent (block : Block) : Parent :=
  { block.family with id := block.id, counterbalance := block.counterbalance }

/-- The root as the parent of the top-level blocks. -/
def Experiment.parent (e : Experiment) : Parent where
  id := Experiment.node
  counterbalance := e.counterbalance
  treatments := e.treatments
  children := e.blocks

/-- The root and then all blocks, each before those in it. -/
def Experiment.parents (e : Experiment) : List Parent :=
  e.parent :: e.allBlocks.map Block.parent

/-- Whether a block has a guard that is not on the permutation. -/
def Block.guardsItself (block : Block) : Bool := block.guard.any (·.permutation.isNone)

namespace Parent

/-- Counterbalance and treatments share the permutation. -/
def shared (parent : Parent) : List Warning :=
  if parent.counterbalance ≠ [] ∧ parent.treatments ≠ [] then [.sharedPermutation parent.id] else []

/-- The guards of children that treatments replace, with the final index of each child. -/
def replacements (parent : Parent) : List Warning :=
  (parent.children.filter Block.guardsItself).flatMap fun child =>
    (indicesOf (assignments parent.treatments) child.id).getLast?.toList.map
      (.guardReplaced child.id ·)

/-- What there is to warn of at a node. -/
def warnings (parent : Parent) : List Warning :=
  parent.shared ++ collisions parent.id (assignments parent.treatments) ++ parent.replacements

theorem shared_eq (parent : Parent) :
    parent.shared = sharedPermutation parent.id parent.counterbalance parent.treatments := by
  unfold shared sharedPermutation
  cases parent.counterbalance <;> cases parent.treatments <;> rfl

theorem replacements_eq (parent : Parent) : parent.replacements
    = parent.children.flatMap (Block.replacement (assignments parent.treatments)) := by
  unfold replacements
  induction parent.children with
  | nil => rfl
  | cons child rest ih =>
      have hchild : child.replacement (assignments parent.treatments)
          = if child.guardsItself then
              (indicesOf (assignments parent.treatments) child.id).getLast?.toList.map
                (.guardReplaced child.id ·)
            else [] := by
        rw [Block.replacement, finalIndex_eq_getLast?, Block.guardsItself]
        cases (indicesOf (assignments parent.treatments) child.id).getLast? <;>
          cases child.guard <;> simp
      rw [List.flatMap_cons, hchild, ← ih, List.filter_cons]
      split <;> simp

/-- The notice that two lists share the permutation, followed by the warnings of applying the
treatments, are the warnings of the node. -/
theorem warnings_eq (parent : Parent) : parent.warnings
    = sharedPermutation parent.id parent.counterbalance parent.treatments
      ++ treatmentWarnings parent.id parent.treatments parent.children := by
  rw [warnings, shared_eq, replacements_eq, treatmentWarnings, reassignments_eq_collisions,
    List.append_assoc]

end Parent

/-! ### Expansion -/

theorem Block.notices_eq_of_check {block : Block} (h : block.check = .ok ()) :
    block.notices = sharedPermutation block.id block.counterbalance block.treatments := by
  have hchecked := Block.check_eq_ok_iff.mp h
  have hcontents : block.checkContents = .ok () := by
    rw [Block.checkContents, require_eq_ok_iff, beq_iff_eq, Block.length_contentKinds]
    exact hchecked.contents
  rw [Block.notices, hcontents, hchecked.references]

theorem Experiment.notices_eq_of_check {e : Experiment} (h : e.check = .ok ()) :
    e.notices = sharedPermutation Experiment.node e.counterbalance e.treatments := by
  rw [Experiment.notices, (Experiment.check_eq_ok_iff.mp h).references]

mutual

/-- Expanding a block warns of the block and then of those in it. -/
theorem Block.expand_warnings : ∀ {block expanded : Block} {treatment : Option Nat}
    {p p' : Progress}, block.expand treatment p = .ok expanded p' →
      p'.warnings = p.warnings ++ block.within.flatMap fun inner => inner.parent.warnings
  | ⟨id, pages, items, groups, blocks, exchangeable, counterbalance, treatments, latinSquare,
      pseudorandom, criterion, cutoff, guard, banks⟩, expanded, treatment, p, p', h => by
      simp only [Block.expand, Step.bind_eq_ok_iff, Step.pure_eq_ok_iff,
        Expanding.issuing_eq_ok_iff, Expanding.warn_eq_ok_iff, Expanding.check_eq_ok_iff] at h
      obtain ⟨_, _, rfl, _, _, ⟨hcheck, rfl⟩, _, _, rfl, _, _, ⟨rfl, rfl⟩, _, _, ⟨rfl, rfl⟩, _, _,
        ⟨rfl, rfl⟩, children, _, hchildren, rfl, rfl⟩ := h
      have hnotices := Block.notices_eq_of_check hcheck
      rw [Block.expandChildren_warnings hchildren, hnotices, Block.within, List.flatMap_cons,
        Parent.warnings_eq]
      cases treatment <;> simp [Block.treated, Block.parent, Block.family]

theorem Block.expandChildren_warnings : ∀ {blocks expanded : Option (List Block)}
    {given : List (String × Nat)} {p p' : Progress},
    Block.expandChildren given blocks p = .ok expanded p' →
      p'.warnings
        = p.warnings ++ (Block.withinOption blocks).flatMap fun inner => inner.parent.warnings
  | none, expanded, given, p, p', h => by
      simp only [Block.expandChildren, Step.pure_eq_ok_iff] at h
      obtain ⟨rfl, rfl⟩ := h
      simp [Block.withinOption]
  | some blocks, expanded, given, p, p', h => by
      simp only [Block.expandChildren, Step.bind_eq_ok_iff, Step.pure_eq_ok_iff] at h
      obtain ⟨list, _, hlist, rfl, rfl⟩ := h
      exact Block.expandList_warnings hlist

theorem Block.expandList_warnings : ∀ {blocks expanded : List Block} {given : List (String × Nat)}
    {p p' : Progress}, Block.expandList given blocks p = .ok expanded p' →
      p'.warnings
        = p.warnings ++ (Block.withinList blocks).flatMap fun inner => inner.parent.warnings
  | [], expanded, given, p, p', h => by
      simp only [Block.expandList, Step.pure_eq_ok_iff] at h
      obtain ⟨rfl, rfl⟩ := h
      simp [Block.withinList]
  | block :: rest, expanded, given, p, p', h => by
      simp only [Block.expandList, Step.bind_eq_ok_iff, Step.pure_eq_ok_iff] at h
      obtain ⟨first, _, hfirst, others, _, hothers, rfl, rfl⟩ := h
      rw [Block.expandList_warnings hothers, Block.expand_warnings hfirst, Block.withinList,
        List.flatMap_append, List.append_assoc]

end

/-- Expansion warns of the root and then of all blocks, each before those in it. -/
theorem Experiment.expand_warnings {e expanded : Experiment} {p p' : Progress}
    (h : e.expand p = .ok expanded p') :
    p'.warnings = p.warnings ++ e.parents.flatMap Parent.warnings := by
  unfold Experiment.expand at h
  simp only [Step.bind_eq_ok_iff, Step.pure_eq_ok_iff, Expanding.warn_eq_ok_iff,
    Expanding.check_eq_ok_iff] at h
  obtain ⟨_, _, rfl, _, _, ⟨hcheck, rfl⟩, _, _, rfl, blocks, _, hblocks, rfl, rfl⟩ := h
  rw [Block.expandList_warnings hblocks, Experiment.notices_eq_of_check hcheck, Experiment.parents,
    List.flatMap_cons, List.flatMap_map, Parent.warnings_eq]
  simp [Experiment.parent, Experiment.allBlocks]

/-! ### Compilation -/

/-- A tree that compiles is warned of node by node, the root first and each block before those in
it. All warnings are given in expansion; resolution gives none, whatever becomes of it. -/
theorem Experiment.compile_warnings {e : Experiment} {session : Session}
    {document : Document.Experiment} (h : (e.compile session).outcome = .ok document) :
    (e.compile session).warnings = e.parents.flatMap Parent.warnings ∧
      ∃ expanded p, e.expand { ids := session.ids, warnings := [] } = .ok expanded p ∧
        p.warnings = e.parents.flatMap Parent.warnings ∧
        ∀ env, Resolving.Silent (expanded.resolve env) := by
  obtain ⟨expanded, p, index, gathered, hexpand, hindex, hresolve, _⟩ :=
    Experiment.compile_eq_ok_iff.mp h
  have hwarnings := Experiment.expand_warnings hexpand
  rw [List.nil_append] at hwarnings
  have hsilent : ∀ env, Resolving.Silent (expanded.resolve env) := fun env =>
    Experiment.silent_resolve fun block hblock =>
      (Experiment.checks_of_expand hexpand block hblock).2
  have hnone : gathered.warnings = [] := by
    have hleft := hsilent { index := index, registry := session.registry } (.start session.registry)
    rwa [Step.left_of_ok hresolve] at hleft
  refine ⟨?_, expanded, p, hexpand, hwarnings, hsilent⟩
  rw [Experiment.compile_of_resolve_ok hexpand hindex hresolve, hnone, List.append_nil, hwarnings]

/-! ### A day -/

/-- A page with nothing but a text. -/
def Page.telling (id text : String) : Page where
  id := id
  text := .single (.literal text)

/-- A day in two parts. The root names the evening twice; the morning names its warm-up three times
and is counterbalanced over the same permutation. -/
def Experiment.day : Experiment where
  blocks := [
    { id := "morning"
      blocks := some [
        { id := "warm-up"
          pages := some [.telling "stretch" "Stretch"]
          guard := some { page := some "rest" } },
        { id := "race"
          pages := some [.telling "start" "Go"]
          guard := some { permutation := some 3 } }]
      counterbalance := ["race", "warm-up"]
      treatments := [["warm-up"], ["warm-up", "race"], ["warm-up"]]
      guard := some { page := some "rest" } },
    { id := "evening"
      pages := some [.telling "rest" "Rest"] }]
  treatments := [["evening"], ["morning", "evening"]]

/-- A page of a document with nothing but a text. -/
def Document.Page.telling (id text : String) : Document.Page where
  id := id
  text := .single (.literal text)

/-- The document of the day. -/
def Document.Experiment.day : Document.Experiment where
  blocks := [
    { id := "morning"
      blocks := some [
        { id := "warm-up"
          pages := some [.telling "stretch" "Stretch"]
          guard := some { permutation := some 2 } },
        { id := "race"
          pages := some [.telling "start" "Go"]
          guard := some { permutation := some 1 } }]
      counterbalance := ["race", "warm-up"]
      guard := some { permutation := some 1 } },
    { id := "evening"
      pages := some [.telling "rest" "Rest"]
      guard := some { permutation := some 1 } }]
  exchangeable := []
  counterbalance := []
  banks := .empty

/-- The day compiles. -/
theorem Experiment.compile_day :
    (Experiment.day.compile {}).outcome = .ok Document.Experiment.day := by
  cbv

/-- The root comes first, then the morning. The guards of the evening and of the race are not warned
of: the evening has none, and that of the race is on the permutation. -/
theorem Experiment.compile_warnings_day :
    (Experiment.day.compile {}).outcome = .ok Document.Experiment.day ∧
      (Experiment.day.compile {}).warnings = [
        .reassigned "experiment" "evening" 0 1, .guardReplaced "morning" 1,
        .sharedPermutation "morning", .reassigned "morning" "warm-up" 0 1,
        .reassigned "morning" "warm-up" 1 2, .guardReplaced "warm-up" 2] := by
  refine ⟨Experiment.compile_day, ?_⟩
  rw [(Experiment.compile_warnings Experiment.compile_day).1]
  cbv

end Paradigm
