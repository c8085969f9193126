/-
Module: Paradigm.Proofs.Treatments
Layer: Proofs
Purpose: What treatments do. At the root and in every block, a child that the treatments name runs
  for the greatest index of a sublist with it and for nothing else; any other child keeps the guard
  that the author gave it. In which order and how often a sublist names its blocks makes no
  difference to the document.
Imports: Paradigm.Proofs.Compilation, Paradigm.Proofs.Guards, Paradigm.Proofs.SideBySide
Main exports: Block.TreatedAs, Family.TreatedAs, SameMembers, Experiment.Rearranged,
  Experiment.Compiled.treatedAs, Experiment.compile_rearranged, Experiment.compile_treatments
-/
import Paradigm.Proofs.Compilation
import Paradigm.Proofs.Guards
import Paradigm.Proofs.SideBySide

namespace Paradigm

/-! ### Guards of children -/

/-- A child block beside its block of the document: under the treatments of its parent where they
name it, and else under its own guard. -/
structure Block.TreatedAs (linked : Guard → Document.Guard → Prop) (treatments : List (List String))
    (block : Block) (shown : Document.Block) : Prop where
  id : shown.id = block.id
  named : block.id ∈ treatments.flatten → ∃ value : UInt32,
    IsGreatest { index | NamedAt treatments block.id index } value.toNat ∧
      shown.guard = some { permutation := some value }
  unnamed : block.id ∉ treatments.flatten → Option.Rel linked block.guard shown.guard

/-- The blocks of a family beside those of the document. -/
def Family.TreatedAs (linked : Guard → Document.Guard → Prop) (family : Family)
    (shown : List Document.Block) : Prop :=
  List.Forall₂ (Block.TreatedAs linked family.treatments) family.children shown

/-- A guard on the permutation is resolved to itself. -/
theorem Index.resolveOption_permutation {index : Index} {owner : String} {value : UInt32}
    {d : Option Document.Guard}
    (h : index.resolveOption owner (some { permutation := some value }) = .ok d) :
    d = some { permutation := some value } := by
  cases h
  rfl

section Compiled

variable {e expanded : Experiment} {session : Session} {ids : IdSource} {index : Index}
  {slots : SlotAllocator} {document : Document.Experiment}

/-- A child in its place is under its treatment, whose index is a 32-bit number. -/
theorem Experiment.Compiled.treatedAs_of_placed
    (h : e.Compiled session expanded ids index slots document) {treatments : List (List String)}
    (hshort : treatments.length < 2 ^ 32) {block : Block} {shown : Document.Block}
    (hplaced : block.PlacedAs index treatments shown) :
    block.TreatedAs (Guard.LinkedAs e document (session.ids.Issued ids)) treatments shown := by
  obtain ⟨hid, hcheck, hguard⟩ := hplaced
  constructor
  · exact hid
  · intro hnamed
    cases hfinal : finalIndex (assignments treatments) block.id with
    | none => exact absurd hnamed (finalIndex_eq_none_iff.mp hfinal)
    | some last =>
        have hgreatest := finalIndex_eq_some_iff.mp hfinal
        have hsmall : last < 2 ^ 32 := (NamedAt.lt hgreatest.1).trans hshort
        rw [hfinal, Block.treated] at hguard
        refine ⟨UInt32.ofNat last, ?_, Index.resolveOption_permutation hguard⟩
        rwa [UInt32.toNat_ofNat_of_lt' hsmall]
  · intro hunnamed
    rw [finalIndex_eq_none_iff.mpr hunnamed, Block.treated] at hcheck hguard
    exact h.linkedAs_option hcheck hguard

/-- The children at the root and in every block are under the treatments there. -/
theorem Experiment.Compiled.treatedAs
    (h : e.Compiled session expanded ids index slots document)
    (hshort : ∀ family ∈ e.families, family.treatments.length < 2 ^ 32) :
    List.Forall₂ (Family.TreatedAs (Guard.LinkedAs e document (session.ids.Issued ids)))
      e.families document.families := by
  have hfamilies := (List.forall₂_and_left _ _).mpr ⟨hshort, h.families⟩
  apply hfamilies.imp
  rintro family shown ⟨hfamily, hplaced⟩
  exact List.Forall₂.imp (fun _ _ => h.treatedAs_of_placed hfamily) hplaced

end Compiled

/-! ### Rearranged treatments -/

/-- Lists with the same members, in any order and any number. -/
def SameMembers (names others : List String) : Prop := ∀ name, name ∈ names ↔ name ∈ others

/-- Treatments whose sublists name the same blocks do so at the same indices. -/
theorem NamedAt.of_sameMembers {treatments others : List (List String)}
    (h : List.Forall₂ SameMembers treatments others) {id : String} {index : Nat}
    (hnamed : NamedAt treatments id index) : NamedAt others id index := by
  obtain ⟨sublist, hsublist, hid⟩ := hnamed
  obtain ⟨hlt, rfl⟩ := List.getElem?_eq_some_iff.mp hsublist
  have hlt' : index < others.length := h.length_eq ▸ hlt
  refine ⟨others[index], List.getElem?_eq_getElem hlt', ?_⟩
  exact (List.Forall₂.get h hlt hlt' id).mp hid

theorem sameMembers_symm {names others : List String} (h : SameMembers names others) :
    SameMembers others names := fun name => (h name).symm

/-- Treatments whose sublists name the same blocks give each block the same treatment. -/
theorem finalIndex_of_sameMembers {treatments others : List (List String)}
    (h : List.Forall₂ SameMembers treatments others) (id : String) :
    finalIndex (assignments others) id = finalIndex (assignments treatments) id := by
  have hback : List.Forall₂ SameMembers others treatments :=
    h.flip.imp fun _ _ => sameMembers_symm
  have hsame : { index | NamedAt others id index } = { index | NamedAt treatments id index } := by
    ext index
    exact ⟨.of_sameMembers hback, .of_sameMembers h⟩
  apply Option.ext
  intro index
  rw [finalIndex_eq_some_iff, finalIndex_eq_some_iff, hsame]

mutual

/-- A block beside the same block with its treatments rearranged, and those of the blocks in it: the
sublists name the same blocks. -/
inductive Block.Rearranged : Block → Block → Prop where
  | mk {block : Block} {blocks : Option (List Block)} {treatments : List (List String)}
      (children : Block.RearrangedOption block.blocks blocks)
      (sublists : List.Forall₂ SameMembers block.treatments treatments) :
      Block.Rearranged block { block with blocks := blocks, treatments := treatments }

/-- Child blocks, where there are any, beside the same ones with their treatments rearranged. -/
inductive Block.RearrangedOption : Option (List Block) → Option (List Block) → Prop where
  | none : Block.RearrangedOption none none
  | some {blocks others : List Block} (list : Block.RearrangedList blocks others) :
      Block.RearrangedOption (some blocks) (some others)

/-- Blocks beside the same ones with their treatments rearranged. -/
inductive Block.RearrangedList : List Block → List Block → Prop where
  | nil : Block.RearrangedList [] []
  | cons {block other : Block} {rest others : List Block} (head : Block.Rearranged block other)
      (tail : Block.RearrangedList rest others) :
      Block.RearrangedList (block :: rest) (other :: others)

end

/-- An experiment beside the same experiment with its treatments rearranged, those at the root and
those in every block. -/
inductive Experiment.Rearranged : Experiment → Experiment → Prop where
  | mk {e : Experiment} {blocks : List Block} {treatments : List (List String)}
      (children : Block.RearrangedList e.blocks blocks)
      (sublists : List.Forall₂ SameMembers e.treatments treatments) :
      Experiment.Rearranged e { e with blocks := blocks, treatments := treatments }

theorem Block.Rearranged.id_eq {block other : Block} (h : Block.Rearranged block other) :
    other.id = block.id := by
  cases h
  rfl

theorem Block.RearrangedList.map_id : ∀ {blocks others : List Block},
    Block.RearrangedList blocks others → others.map (·.id) = blocks.map (·.id)
  | _, _, .nil => rfl
  | _, _, .cons head tail => by rw [List.map_cons, List.map_cons, head.id_eq, tail.map_id]

mutual

/-- The same items stand in a tree whose treatments are rearranged. -/
theorem Block.Rearranged.allItems_eq : ∀ {block other : Block}, Block.Rearranged block other →
    other.allItems = block.allItems
  | ⟨_, _, _, _, _, _, _, _, _, _, _, _, _, _⟩, _, .mk children _ => by
      rw [Block.allItems, Block.allItems, children.allItems_eq]

theorem Block.RearrangedOption.allItems_eq : ∀ {blocks others : Option (List Block)},
    Block.RearrangedOption blocks others →
      Block.allItemsOption others = Block.allItemsOption blocks
  | _, _, .none => rfl
  | _, _, .some list => by
      rw [Block.allItemsOption, Block.allItemsOption]
      exact list.allItems_eq

theorem Block.RearrangedList.allItems_eq : ∀ {blocks others : List Block},
    Block.RearrangedList blocks others → Block.allItemsList others = Block.allItemsList blocks
  | _, _, .nil => rfl
  | _, _, .cons head tail => by
      rw [Block.allItemsList, Block.allItemsList, head.allItems_eq, tail.allItems_eq]

end

theorem mem_flatten_of_sameMembers {treatments others : List (List String)}
    (h : List.Forall₂ SameMembers treatments others) {id : String} (hid : id ∈ others.flatten) :
    id ∈ treatments.flatten := by
  have hback : List.Forall₂ SameMembers others treatments :=
    h.flip.imp fun _ _ => sameMembers_symm
  obtain ⟨index, hnamed⟩ := exists_namedAt_iff.mpr hid
  exact exists_namedAt_iff.mp ⟨index, hnamed.of_sameMembers hback⟩

/-- References that all name children still do so when the treatments are rearranged. -/
theorem checkReferences_rearranged {owner : String} {children others : List Block}
    {exchangeable counterbalance : List String} {treatments sublists : List (List String)}
    (hids : others.map (·.id) = children.map (·.id))
    (h : List.Forall₂ SameMembers treatments sublists)
    (hcheck : checkReferences owner children (references exchangeable counterbalance treatments)
      = .ok ()) :
    checkReferences owner others (references exchangeable counterbalance sublists) = .ok () := by
  have hknown := forall_references_of_check hcheck
  rw [checkReferences, checkAll_eq_ok_iff]
  intro ref href
  rw [require_eq_ok_iff, List.contains_iff_mem, hids]
  rcases List.mem_append.mp href with href | href
  · exact hknown ref (List.mem_append_left _ href)
  · obtain ⟨id, hid, rfl⟩ := List.mem_map.mp href
    have hgiven := mem_flatten_of_sameMembers h hid
    exact hknown _ (List.mem_append_right _ (List.mem_map_of_mem hgiven))

/-- What is read of a block that asks for the conditions of members is its identifier. -/
theorem Block.literalConditions_of_id {block other : Block} (h : other.id = block.id)
    (members : List (String × Option Text)) :
    other.literalConditions members = block.literalConditions members := by
  induction members with
  | nil => rfl
  | cons member rest ih =>
      rw [Block.literalConditions, Block.literalConditions, Block.literalCondition,
        Block.literalCondition, h, ih]

/-- A block that passes its check does so with its treatments rearranged. -/
theorem Block.check_rearranged {block : Block} {blocks : Option (List Block)}
    {treatments : List (List String)} (hchildren : Block.RearrangedOption block.blocks blocks)
    (hsublists : List.Forall₂ SameMembers block.treatments treatments)
    (h : block.check = .ok ()) :
    Block.check { block with blocks := blocks, treatments := treatments } = .ok () := by
  have hempty : treatments.isEmpty = block.treatments.isEmpty := by
    generalize block.treatments = given at hsublists
    cases hsublists <;> rfl
  rw [Block.check_eq_ok_iff] at h ⊢
  constructor
  · have hsome : blocks.isSome = block.blocks.isSome := by
      generalize block.blocks = given at hchildren
      cases hchildren <;> rfl
    rw [hsome]
    exact h.contents
  · have hreferences := h.references
    unfold Block.checkReferences Block.hasReferences Block.references at hreferences ⊢
    simp only [hempty]
    split at hreferences
    · rename_i hany
      rw [if_pos hany]
      generalize block.blocks = given at hchildren hreferences
      cases hchildren with
      | none => exact hreferences
      | some list => exact checkReferences_rearranged list.map_id hsublists hreferences
    · rename_i hnone
      rw [if_neg hnone]
  · exact h.latinSquare
  · have hpseudorandom := h.pseudorandom
    unfold Block.checkPseudorandom at hpseudorandom ⊢
    have hliteral : ∀ members, Block.literalConditions
        { block with blocks := blocks, treatments := treatments } members
          = block.literalConditions members := Block.literalConditions_of_id rfl
    simpa only [hliteral] using hpseudorandom
  · exact h.repetition
  · exact h.banks
  · exact h.guard

/-! ### Expansion of rearranged trees -/

section Expansion

variable {α β γ δ : Type}

/-- The same identifiers are taken. Nothing is asked where the first expansion is refused. -/
def SameTaken : Comparison Progress where
  alike := fun p p' => p'.ids = p.ids
  reports := fun _ _ => False
  waived := fun _ => True

/-- Two expansions of which the second one succeeds where the first does, with the same result and
the same identifiers taken; the warnings may differ. -/
abbrev ExpandsAs (m m' : Expanding α) : Prop :=
  Runs SameTaken (fun value => value) m m'

theorem Expanding.expandsAs_issuing (m : Issuing α) :
    ExpandsAs (Expanding.issuing m) (Expanding.issuing m) where
  onward := fun _ hpast => hpast
  results := by
    intro p p' hids
    have hsame : p'.ids = p.ids := hids
    simp only [Expanding.issuing, hsame]
    exact .same rfl

theorem Expanding.expandsAs_warn (warnings warnings' : List Warning) :
    ExpandsAs (Expanding.warn warnings) (Expanding.warn warnings') where
  onward := fun _ hpast => hpast
  results := fun _ _ hids => .same hids

theorem Expanding.expandsAs_check {verdict verdict' : Verdict}
    (h : verdict = .ok () → verdict' = .ok ()) :
    ExpandsAs (Expanding.check verdict) (Expanding.check verdict') where
  onward := fun _ hpast => hpast.elim
  results := by
    intro p p' hids
    cases verdict with
    | ok _ =>
        rw [h rfl]
        exact .same hids
    | error failure => exact .waived trivial

/-- A block that is rearranged expands to the same block where its children do. -/
theorem Block.expandsAs_of_children {block : Block} {blocks : Option (List Block)}
    {treatments : List (List String)} (treatment : Option Nat)
    (hchildren : Block.RearrangedOption block.blocks blocks)
    (hsublists : List.Forall₂ SameMembers block.treatments treatments)
    (hexpands : ExpandsAs (Block.expandChildren (assignments block.treatments) block.blocks)
      (Block.expandChildren (assignments treatments) blocks)) :
    ExpandsAs (block.expand treatment)
      (Block.expand treatment { block with blocks := blocks, treatments := treatments }) := by
  have hcheck : (block.treated treatment).check = .ok () →
      (Block.treated { block with blocks := blocks, treatments := treatments } treatment).check
        = .ok () := by
    cases treatment with
    | none => exact Block.check_rearranged hchildren hsublists
    | some index =>
        have htreated : Block.RearrangedOption (block.treated (some index)).blocks blocks :=
          hchildren
        exact Block.check_rearranged htreated hsublists
  rw [Block.expand_eq, Block.expand_eq]
  apply Runs.bind (Expanding.expandsAs_warn _ _)
  intro _
  apply Runs.bind (Expanding.expandsAs_check hcheck)
  intro _
  apply Runs.bind (Expanding.expandsAs_warn _ _)
  intro _
  apply Runs.bind (Expanding.expandsAs_issuing _)
  intro pages
  apply Runs.bind (Expanding.expandsAs_issuing _)
  intro items
  apply Runs.bind (Expanding.expandsAs_issuing _)
  intro groups
  apply Runs.bind hexpands
  intro children
  apply Runs.pure
  cases treatment <;> rfl

mutual

/-- Blocks whose treatments are rearranged expand to the same blocks. -/
theorem Block.Rearranged.expandsAs : ∀ {block other : Block}, Block.Rearranged block other →
    ∀ treatment : Option Nat, ExpandsAs (block.expand treatment) (other.expand treatment)
  | _, _, .mk children sublists, treatment => by
      have hgiven := finalIndex_of_sameMembers sublists
      exact Block.expandsAs_of_children treatment children sublists (children.expandsAs hgiven)

theorem Block.RearrangedOption.expandsAs : ∀ {blocks others : Option (List Block)},
    Block.RearrangedOption blocks others → ∀ {given given' : List (String × Nat)},
      (∀ id, finalIndex given' id = finalIndex given id) →
        ExpandsAs (Block.expandChildren given blocks) (Block.expandChildren given' others)
  | _, _, .none, _, _, _ => by
      rw [Block.expandChildren, Block.expandChildren]
      exact Runs.pure rfl
  | _, _, .some list, _, _, hgiven => by
      rw [Block.expandChildren, Block.expandChildren]
      apply Runs.bind (list.expandsAs hgiven)
      intro expanded
      exact Runs.pure rfl

theorem Block.RearrangedList.expandsAs : ∀ {blocks others : List Block},
    Block.RearrangedList blocks others → ∀ {given given' : List (String × Nat)},
      (∀ id, finalIndex given' id = finalIndex given id) →
        ExpandsAs (Block.expandList given blocks) (Block.expandList given' others)
  | _, _, .nil, _, _, _ => by
      rw [Block.expandList, Block.expandList]
      exact Runs.pure rfl
  | block :: _, _ :: _, .cons head tail, given, _, hgiven => by
      rw [Block.expandList, Block.expandList, hgiven, head.id_eq]
      apply Runs.bind (head.expandsAs (finalIndex given block.id))
      intro expanded
      apply Runs.bind (tail.expandsAs hgiven)
      intro others
      exact Runs.pure rfl

end

end Expansion

/-- A tree whose treatments are rearranged expands to the same tree. -/
theorem Experiment.Rearranged.expandsAs {e other : Experiment} (h : e.Rearranged other) :
    ExpandsAs e.expand other.expand := by
  cases h with
  | @mk blocks treatments children sublists =>
      have hcheck : e.check = .ok () →
          Experiment.check { e with blocks := blocks, treatments := treatments } = .ok () := by
        intro hchecked
        rw [Experiment.check_eq_ok_iff] at hchecked ⊢
        constructor
        · exact checkReferences_rearranged children.map_id sublists hchecked.references
        · exact hchecked.banks
      apply Runs.bind (Expanding.expandsAs_warn _ _)
      intro _
      apply Runs.bind (Expanding.expandsAs_check hcheck)
      intro _
      apply Runs.bind (Expanding.expandsAs_warn _ _)
      intro _
      apply Runs.bind (children.expandsAs (finalIndex_of_sameMembers sublists))
      intro expanded
      exact Runs.pure rfl

/-- A tree that compiles still compiles to the same document when its treatments are rearranged. -/
theorem Experiment.compile_rearranged {e other : Experiment} {session : Session}
    {document : Document.Experiment} (h : (e.compile session).outcome = .ok document)
    (hrearranged : e.Rearranged other) : (other.compile session).outcome = .ok document := by
  obtain ⟨expanded, p, index, gathered, hexpand, hindex, hresolve, _⟩ :=
    Experiment.compile_eq_ok_iff.mp h
  have hitems : other.allItems = e.allItems := by
    cases hrearranged with
    | mk children sublists => exact children.allItems_eq
  have hindex' : Index.ofTrees expanded other = .ok index := by
    rw [← hindex, Index.ofTrees, Index.ofTrees, hitems]
  have hruns := hrearranged.expandsAs.results { ids := session.ids, warnings := [] }
    { ids := session.ids, warnings := [] } rfl
  rw [hexpand] at hruns
  generalize hexpand' : other.expand { ids := session.ids, warnings := [] } = result' at hruns
  cases hruns with
  | ok _ => rw [Experiment.compile_of_resolve_ok hexpand' hindex' hresolve]
  | tolerated reason => exact reason.elim
  | past reached => exact reached.elim

/-- In a tree that compiles, with fewer than `2 ^ 32` sublists in each list of treatments, the
guards of the blocks at the root and directly in each block are set by the treatments there: a child
that some sublist names runs for the greatest index of a sublist with it, and any other child keeps
the guard that it was given, if it was given one. Every block is a child of the root or of one other
block, so treatments change no other guards. How sublists order and repeat their references does not
matter. -/
theorem Experiment.compile_treatments {e : Experiment} {session : Session}
    {document : Document.Experiment} (h : (e.compile session).outcome = .ok document)
    (hshort : ∀ family ∈ e.families, family.treatments.length < 2 ^ 32) :
    List.Forall₂
      (Family.TreatedAs
        (Guard.LinkedAs e document (session.ids.Issued (e.compile session).session.ids)))
      e.families document.families ∧
    (∀ block, block ∈ e.allBlocks ↔ ∃ family ∈ e.families, block ∈ family.children) ∧
    ∀ other, e.Rearranged other → (other.compile session).outcome = .ok document := by
  refine ⟨?_, fun _ => Experiment.mem_allBlocks_iff, fun _ => Experiment.compile_rearranged h⟩
  obtain ⟨expanded, p, index, slots, _, hcompiled⟩ := e.compiled_of_ok h
  exact hcompiled.treatedAs hshort

/-! ### Overlapping treatments -/

/-- Both treatments name the left block, which has a guard of its own; the block in the right one
has a treatment there; the third block has none. -/
def Experiment.crossed (second : List String) : Experiment where
  blocks := [
    { id := "left"
      pages := some [{ id := "ask", text := .single (.literal "Which way?") }]
      guard := some { page := some "hint" } },
    { id := "right"
      blocks := some [{ id := "inner", pages := some [] }]
      treatments := [["inner"]] },
    { id := "free"
      pages := some [{ id := "hint", text := .single (.literal "That way") }]
      guard := some { page := some "ask" } }]
  treatments := [["left"], second]

/-- The left block runs for the last treatment that names it. -/
def Document.Experiment.crossed : Document.Experiment where
  blocks := [
    { id := "left"
      pages := some [{ id := "ask", text := .single (.literal "Which way?") }]
      guard := some { permutation := some 1 } },
    { id := "right"
      blocks := some [
        { id := "inner", pages := some [], guard := some { permutation := some 0 } }]
      guard := some { permutation := some 1 } },
    { id := "free"
      pages := some [{ id := "hint", text := .single (.literal "That way") }]
      guard := some { page := some "ask" } }]
  exchangeable := []
  counterbalance := []
  banks := .empty

/-- The second treatment names its blocks in another order, and one of them twice. -/
theorem Experiment.rearranged_crossed :
    (Experiment.crossed ["left", "right"]).Rearranged (.crossed ["right", "left", "right"]) := by
  have hsame : SameMembers ["left", "right"] ["right", "left", "right"] := by
    intro name
    simp only [List.mem_cons, List.not_mem_nil, or_false]
    tauto
  have hkept : ∀ names, SameMembers names names := fun names name => Iff.rfl
  have hinner : Block.RearrangedList [{ id := "inner", pages := some [] }]
      [{ id := "inner", pages := some [] }] := .cons (.mk .none .nil) .nil
  apply Experiment.Rearranged.mk
  · exact .cons (.mk .none .nil) (.cons (.mk (.some hinner) (.cons (hkept _) .nil))
      (.cons (.mk .none .nil) .nil))
  · exact .cons (hkept _) (.cons hsame .nil)

/-- The left block is under the second treatment, and rearranging that one changes nothing. -/
theorem Experiment.compile_treatments_crossed :
    ((Experiment.crossed ["left", "right"]).compile {}).outcome
        = .ok Document.Experiment.crossed ∧
    (∀ family ∈ (Experiment.crossed ["left", "right"]).families,
      family.treatments.length < 2 ^ 32) ∧
    List.Forall₂
      (Family.TreatedAs
        (Guard.LinkedAs (.crossed ["left", "right"]) .crossed
          (IdSource.Issued {} ((Experiment.crossed ["left", "right"]).compile {}).session.ids)))
      (Experiment.crossed ["left", "right"]).families Document.Experiment.crossed.families ∧
    ((Experiment.crossed ["right", "left", "right"]).compile {}).outcome
        = .ok Document.Experiment.crossed := by
  have hcompiles : ((Experiment.crossed ["left", "right"]).compile {}).outcome
      = .ok Document.Experiment.crossed := by
    cbv
  have hshort : ∀ family ∈ (Experiment.crossed ["left", "right"]).families,
      family.treatments.length < 2 ^ 32 := by
    simp [Experiment.families, Experiment.crossed, Experiment.allBlocks, Block.withinList,
      Block.within, Block.withinOption, Block.family]
  obtain ⟨htreated, _, hrearranged⟩ := Experiment.compile_treatments hcompiles hshort
  exact ⟨hcompiles, hshort, htreated, hrearranged _ Experiment.rearranged_crossed⟩

end Paradigm
