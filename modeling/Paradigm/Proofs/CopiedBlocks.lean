/-
Module: Paradigm.Proofs.CopiedBlocks
Layer: Proofs
Purpose: Compilation of a copied block. A block that compiles on its own and watches nothing has a
  copy that compiles to the same document under other identifiers: one permutation of names for each
  kind of node takes the block to its copy and the one document to the other. So the lists and the
  treatments of the copy order its own children, and its own options call for its feedback.
Imports: Paradigm.Proofs.Compilation, Paradigm.Proofs.Relabelling.Compilation,
  Paradigm.Proofs.Relabelling.Copies, Paradigm.Proofs.Relabelling.Naming, Paradigm.Proofs.Renaming
Main exports: Block.alone, Block.exists_naming_of_copy, Experiment.compile_copy
-/
import Paradigm.Proofs.Compilation
import Paradigm.Proofs.Relabelling.Compilation
import Paradigm.Proofs.Relabelling.Copies
import Paradigm.Proofs.Relabelling.Naming
import Paradigm.Proofs.Renaming

namespace Paradigm

/-! ### Renamings -/

/-- The relabelling that renames the nodes of each kind by a permutation and moves no slot. -/
abbrev Relabelling.renaming (ν : NodeKind → Equiv.Perm String) : Relabelling :=
  { name := fun kind => ν kind }

/-! ### Blocks on their own -/

/-- An experiment of a single block. -/
def Block.alone (block : Block) (banks : Banks) : Experiment :=
  { blocks := [block], banks := banks }

theorem Block.alone_relabel (block : Block) (banks : Banks) (r : Relabelling) :
    (block.alone banks).relabel r = (block.relabel r).alone banks := rfl

/-- The lists of the blocks of a tree that expands name children. -/
theorem Experiment.Expanded.references {e expanded : Experiment} {ids ids' : IdSource}
    (h : Experiment.Expanded ids e expanded ids') :
    ∀ block ∈ e.allBlocks, block.checkReferences = .ok () := by
  intro block hblock
  obtain ⟨_, _, treatment, _, _, _, _, hexpanded⟩ :=
    exists_right_of_forall₂ h.allBlocks block hblock
  cases hexpanded with
  | mk checked _ _ _ _ _ =>
      have hreferences := (Block.check_eq_ok_iff.mp checked).references
      cases treatment with
      | none => exact hreferences
      | some index => exact hreferences

/-- A block that compiles on its own and whose guards watch nothing refers to nothing outside. -/
theorem Block.selfContained_of_compile {block : Block} {banks : Banks} {session : Session}
    {document : Document.Experiment} (hguards : ∀ g ∈ block.guards, g.watches = false)
    (h : ((block.alone banks).compile session).outcome = .ok document) :
    ∀ inner ∈ block.within, inner.SelfContained := by
  obtain ⟨_, _, _, _, hcompiled⟩ := Experiment.compile_ok h
  have hall : (block.alone banks).allBlocks = block.within := by
    show Block.withinList [block] = block.within
    rw [Block.withinList, Block.withinList, List.append_nil]
  intro inner hinner
  constructor
  · intro g hg
    exact hguards g (List.mem_flatMap.mpr ⟨inner, hinner, hg⟩)
  · apply hcompiled.expands.references
    rwa [hall]

/-! ### Copies -/

/-- A block of distinct nodes and its copy are the same up to a permutation of names for each kind,
which also takes the identifiers that are issued after the block to those issued after the copy. -/
theorem Block.exists_naming_of_copy (block : Block) {ids : IdSource} {earlier later count : Nat}
    (hroom : ids.HasRoom (earlier + count))
    (hroom' : ids.HasRoom (block.identities.length + later + count))
    (hdistinct : block.identities.Nodup)
    (hunissued : ∀ identity ∈ block.identities, ∀ n, ids.counter.toNat < n →
      identity.2 ≠ toString n)
    (hcontained : ∀ inner ∈ block.within, inner.SelfContained) :
    ∃ ν : NodeKind → Equiv.Perm String,
      (block.copy ids).1 = block.relabel (.renaming ν) ∧
        ∀ kind i, 0 < i → i ≤ count →
          ν kind (identifier ((ids.after earlier).last + i))
            = identifier (((block.copy ids).2.after later).last + i) := by
  obtain ⟨hminted, hkinds⟩ := Block.copies block ids
  have hsource : (block.copy ids).2 = ids.after block.identities.length := by
    rw [hminted.source, List.length_map]
  have hcopying : ids.HasRoom block.identities.length := hroom'.mono (by omega)
  have hcopies : (block.copy ids).1.identities.Nodup := by
    apply hminted.nodup _ .nil fun _ hnone => absurd hnone List.not_mem_nil
    rwa [List.length_map]
  -- After the copy was made, the counter has passed all numbers in it.
  have hnew : ∀ identity ∈ (block.copy ids).1.identities, ∀ n,
      ids.counter.toNat + (block.identities.length + later) < n → identity.2 ≠ toString n := by
    intro identity hidentity n hn hnumber
    rcases hminted.mem identity hidentity with hnone | hissued
    · exact absurd hnone List.not_mem_nil
    · rw [hsource] at hissued
      obtain ⟨m, _, hm, hid⟩ := hcopying.exists_of_issued hissued
      have hsame := toString_injective (hid.symm.trans hnumber)
      omega
  have hold : ∀ identity ∈ block.identities, ∀ n, ids.counter.toNat + earlier < n →
      identity.2 ≠ toString n :=
    fun identity hidentity n hn => hunissued identity hidentity n (by omega)
  obtain ⟨ν, hbears, hnumbers⟩ := exists_naming hkinds hdistinct hcopies hold hnew
  refine ⟨ν, Block.copy_eq_relabel (fun _ => rfl) block ids hcontained hbears, ?_⟩
  intro kind i hpos hi
  have hbefore : identifier ((ids.after earlier).last + i)
      = toString (ids.counter.toNat + earlier + i) := by
    rw [hroom.after.identifier_add hi, (hroom.mono (by omega)).toNat_counter_after]
  have hafter : identifier ((((block.copy ids).2).after later).last + i)
      = toString (ids.counter.toNat + (block.identities.length + later) + i) := by
    rw [hsource, IdSource.after_after, hroom'.after.identifier_add hi,
      (hroom'.mono (by omega)).toNat_counter_after]
  rw [hbefore, hafter]
  exact hnumbers kind i hpos

/-- A copy of a block that compiles on its own compiles as well, whatever banks there are: to the
document of the block under the renaming that takes the block to its copy. The nodes of the block
are distinct, none bears a number that was still to be issued when the copy was made, and no guard
watches a page or an item. The counter has room for the copy, for both compilations, and for what
the session issues in between. -/
theorem Experiment.compile_copy (block : Block) (banks : Banks) (session before after : Session)
    (document : Document.Experiment) (earlier later count : Nat)
    (hbefore : before.ids = session.ids.after earlier)
    (hafter : after.ids = (block.copy session.ids).2.after later)
    (hregistry : after.registry = before.registry)
    (hcount : ((block.alone banks).compile before).session = before.advance count)
    (hroom : session.ids.HasRoom (earlier + count))
    (hroom' : session.ids.HasRoom (block.identities.length + later + count))
    (hdistinct : block.identities.Nodup)
    (hunissued : ∀ identity ∈ block.identities, ∀ n, session.ids.counter.toNat < n →
      identity.2 ≠ toString n)
    (hguards : ∀ g ∈ block.guards, g.watches = false)
    (h : ((block.alone banks).compile before).outcome = .ok document) :
    ∃ ν : NodeKind → Equiv.Perm String,
      (block.copy session.ids).1 = block.relabel (.renaming ν) ∧
        (((block.copy session.ids).1.alone banks).compile after).outcome
          = .ok (document.relabel (.renaming ν)) := by
  have hcontained := Block.selfContained_of_compile hguards h
  obtain ⟨ν, hcopy, hissued⟩ :=
    block.exists_naming_of_copy hroom hroom' hdistinct hunissued hcontained
  rw [← hbefore, ← hafter] at hissued
  refine ⟨ν, hcopy, ?_⟩
  rcases Experiment.compile_relabel_of_ok
      (.ofNames (fun name => name) (fun kind => (ν kind).injective) hissued hregistry)
      (block.alone banks) h hcount with hok | ⟨_, _, _, _, size, slot, _, hin, hpast⟩
  · rw [hcopy, ← Block.alone_relabel]
    exact hok
  · exact absurd hin (Nat.not_lt.mpr hpast)

/-! ### A worked example -/

/-- A question with feedback on an option, and a pause. They may swap places, and each is shown
under one of two treatments. -/
def Block.lesson : Block where
  id := "lesson"
  blocks := some [
    { id := "animals"
      items := some [
        { id := "meow"
          contents := .page {
            id := "question"
            text := .single (.literal "Which says meow?")
            choices := [
              { id := "cat", feedback := some (.text (.literal "Right!")) },
              { id := "dog" }] } }] },
    { id := "rest"
      pages := some [{ id := "pause", text := .single (.literal "Take a break.") }] }]
  exchangeable := ["animals", "rest"]
  treatments := [["animals"], ["rest"]]

/-- The document of the lesson. -/
def Document.Experiment.lesson : Document.Experiment where
  blocks := [
    { id := "lesson"
      blocks := some [
        { id := "animals"
          items := some [
            { id := "meow"
              pages := [
                { id := "question"
                  text := .single (.literal "Which says meow?")
                  choices := [{ id := "cat" }, { id := "dog" }] },
                { id := "1"
                  text := .single (.literal "Right!")
                  guard := some { page := some "question", choice := some "cat" } }] }]
          guard := some { permutation := some 0 } },
        { id := "rest"
          pages := some [{ id := "pause", text := .single (.literal "Take a break.") }]
          guard := some { permutation := some 1 } }]
      exchangeable := ["animals", "rest"] }]
  exchangeable := []
  counterbalance := []
  banks := .empty

/-- The lesson compiles in a new session, and its copy after it was made. -/
theorem Experiment.compile_copy_lesson :
    ({} : IdSource).HasRoom (0 + 1) ∧
      ({} : IdSource).HasRoom (Block.lesson.identities.length + 0 + 1) ∧
      Block.lesson.identities.Nodup ∧
      (∀ identity ∈ Block.lesson.identities, ∀ n, 0 < n → identity.2 ≠ toString n) ∧
      (∀ g ∈ Block.lesson.guards, g.watches = false) ∧
      ((Block.lesson.alone .empty).compile {}).outcome = .ok Document.Experiment.lesson ∧
      ∃ ν : NodeKind → Equiv.Perm String,
        (Block.lesson.copy {}).1 = Block.lesson.relabel (.renaming ν) ∧
          (((Block.lesson.copy {}).1.alone .empty).compile { ids := { last := 8 } }).outcome
            = .ok (Document.Experiment.lesson.relabel (.renaming ν)) := by
  have hroom : ({} : IdSource).HasRoom (0 + 1) := by decide
  have hroom' : ({} : IdSource).HasRoom (Block.lesson.identities.length + 0 + 1) := by decide
  have hcopied : (Block.lesson.copy {}).2.last = 8 := by cbv
  have hafter : ({ last := 8 } : IdSource) = (Block.lesson.copy {}).2.after 0 := by
    rw [IdSource.after, hcopied]
  have hcount : ((Block.lesson.alone .empty).compile {}).session = Session.advance {} 1 := by cbv
  have hdistinct : Block.lesson.identities.Nodup := by decide
  have hunissued : ∀ identity ∈ Block.lesson.identities, ∀ n, 0 < n →
      identity.2 ≠ toString n := by
    have hread : Block.lesson.identities.map (fun identity => identity.2.toNat?)
        = List.replicate 8 none := by cbv
    intro identity hidentity n _
    exact ne_toString_of_mem hread identity hidentity n
  have hguards : ∀ g ∈ Block.lesson.guards, g.watches = false := by
    have hnone : Block.lesson.guards = [] := by cbv
    rw [hnone]
    exact fun _ hmem => absurd hmem List.not_mem_nil
  have hcompiles : ((Block.lesson.alone .empty).compile {}).outcome
      = .ok Document.Experiment.lesson := by cbv
  exact ⟨hroom, hroom', hdistinct, hunissued, hguards, hcompiles,
    Experiment.compile_copy .lesson .empty {} {} { ids := { last := 8 } } .lesson 0 0 1 rfl hafter
      rfl hcount hroom hroom' hdistinct hunissued hguards hcompiles⟩

/-- The copy of the lesson exchanges its own blocks, and its own option calls for the feedback. -/
example : (((Block.lesson.copy {}).1.alone .empty).compile { ids := { last := 8 } }).outcome
    = .ok (Document.Experiment.lesson.relabel
      { name := fun _ id => ((Assoc.ofList [("lesson", "1"), ("animals", "2"), ("meow", "3"),
        ("question", "4"), ("cat", "5"), ("dog", "6"), ("rest", "7"), ("pause", "8"),
        ("1", "9")]).get? id).getD id }) := by
  cbv

end Paradigm
