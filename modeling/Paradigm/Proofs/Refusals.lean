/-
Module: Paradigm.Proofs.Refusals
Layer: Proofs
Purpose: How compilation refuses a tree. It breaks one of twelve promises, at the root or at a node
  of the tree or one that this compilation made up. The rules of blocks come before everything else:
  the root is asked first, then each block under its treatment before the blocks in it, and the
  first that breaks a rule decides the outcome, whatever else is wrong with the tree.
Imports: Paradigm.Proofs.Identifiers
Main exports: checkAll_eq_error_iff, Block.treatedWithin, Experiment.treatedBlocks,
  Expanding.DecidedBy, Block.decided_expand, Failure.OfTree, Experiment.FirstFault,
  Experiment.compile_refusals
-/
import Paradigm.Proofs.Identifiers

namespace Paradigm

/-! ### The first member to fail -/

section CheckAll

variable {α : Type} {check : α → Verdict}

theorem checkAll_append (xs ys : List α) :
    checkAll check (xs ++ ys) = (checkAll check xs >>= fun _ => checkAll check ys) := by
  induction xs with
  | nil => rfl
  | cons x rest ih =>
      cases hx : check x with
      | error failure => simp [checkAll, hx, bind, Except.bind]
      | ok _ => simpa [checkAll, hx, bind, Except.bind] using ih

/-- A check of all members fails as the first one does that fails. -/
theorem checkAll_eq_error_iff {xs : List α} {failure : Failure} :
    checkAll check xs = .error failure ↔
      ∃ before x after, xs = before ++ x :: after ∧ (∀ y ∈ before, check y = .ok ()) ∧
        check x = .error failure := by
  constructor
  · intro hfails
    induction xs with
    | nil => cases hfails
    | cons x rest ih =>
        cases hx : check x with
        | error other =>
            rw [checkAll, hx] at hfails
            cases hfails
            exact ⟨[], x, rest, rfl, by simp, hx⟩
        | ok _ =>
            rw [checkAll, hx] at hfails
            obtain ⟨before, y, after, rfl, hbefore, hy⟩ := ih hfails
            exact ⟨x :: before, y, after, rfl, List.forall_mem_cons.mpr ⟨hx, hbefore⟩, hy⟩
  · rintro ⟨before, x, after, rfl, hbefore, hx⟩
    rw [checkAll_append, checkAll_eq_ok_iff.mpr hbefore]
    show checkAll check (x :: after) = _
    rw [checkAll, hx]
    rfl

end CheckAll

/-! ### Blocks as they are checked -/

mutual

/-- A block and all blocks in it, each under the treatment that its parent has for it; a block comes
before the blocks in it. -/
def Block.treatedWithin (treatment : Option Nat) : Block → List Block
  | block@{ blocks, .. } =>
    block.treated treatment :: Block.treatedWithinOption (assignments block.treatments) blocks

/-- All blocks in child blocks under their treatments, where there are any. -/
def Block.treatedWithinOption (given : List (String × Nat)) : Option (List Block) → List Block
  | none => []
  | some blocks => Block.treatedWithinList given blocks

/-- All blocks in a list of blocks under their treatments. -/
def Block.treatedWithinList (given : List (String × Nat)) : List Block → List Block
  | [] => []
  | block :: rest =>
    block.treatedWithin (finalIndex given block.id) ++ Block.treatedWithinList given rest

end

/-- All blocks of an experiment under their treatments, in the order in which they are checked. -/
def Experiment.treatedBlocks (e : Experiment) : List Block :=
  Block.treatedWithinList (assignments e.treatments) e.blocks

/-! ### Steps of expansion that a check decides -/

/-- Whether steps of expansion are refused, and why. -/
def Expanding.verdict {α : Type} (m : Expanding α) (p : Progress) : Verdict :=
  match m p with
  | .ok _ _ => .ok ()
  | .error failure _ => .error failure

/-- Steps of expansion that succeed where a check passes and are refused as the check fails,
whatever identifiers were taken and warnings given before. -/
def Expanding.DecidedBy {α : Type} (verdict : Verdict) (m : Expanding α) : Prop :=
  ∀ p, m.verdict p = verdict

namespace Expanding.DecidedBy

variable {α β : Type} {verdict next : Verdict}

theorem pure (value : α) : DecidedBy (.ok ()) (Pure.pure value : Expanding α) := fun _ => rfl

theorem warn (warnings : List Warning) : DecidedBy (.ok ()) (Expanding.warn warnings) :=
  fun _ => rfl

theorem issuing (m : Issuing α) : DecidedBy (.ok ()) (Expanding.issuing m) := fun _ => rfl

theorem check (verdict : Verdict) : DecidedBy verdict (Expanding.check verdict) := by
  intro p
  cases verdict <;> rfl

/-- Of two steps the second decides where the first one's check passes. -/
theorem bind {m : Expanding α} {step : α → Expanding β} (first : DecidedBy verdict m)
    (second : ∀ value, DecidedBy next (step value)) :
    DecidedBy (verdict >>= fun _ => next) (m >>= step) := by
  intro p
  have hfirst := first p
  cases hm : m p with
  | error failure p' =>
      rw [Expanding.verdict, hm] at hfirst
      rw [Expanding.verdict, Step.bind_of_error hm, ← hfirst]
      rfl
  | ok value p' =>
      rw [Expanding.verdict, hm] at hfirst
      rw [Expanding.verdict, Step.bind_of_ok hm, ← hfirst]
      exact second value p'

/-- Steps that are never refused leave the decision to those after them. -/
theorem ok_bind {m : Expanding α} {step : α → Expanding β} (first : DecidedBy (.ok ()) m)
    (second : ∀ value, DecidedBy next (step value)) : DecidedBy next (m >>= step) :=
  first.bind second

/-- Steps that are never refused leave the decision to those before them. -/
theorem bind_ok {m : Expanding α} {step : α → Expanding β} (first : DecidedBy verdict m)
    (second : ∀ value, DecidedBy (.ok ()) (step value)) : DecidedBy verdict (m >>= step) := by
  have hboth := first.bind second
  cases verdict with
  | ok _ => exact hboth
  | error failure => exact hboth

end Expanding.DecidedBy

mutual

/-- The rules of a block and of the blocks in it decide whether it expands: new pages and options
are never refused, and the rules of what the block holds are not asked yet. -/
theorem Block.decided_expand : ∀ (block : Block) (treatment : Option Nat),
    Expanding.DecidedBy (checkAll Block.check (block.treatedWithin treatment))
      (block.expand treatment)
  | ⟨id, pages, items, groups, blocks, exchangeable, counterbalance, treatments, latinSquare,
      pseudorandom, criterion, cutoff, guard, banks⟩, treatment => by
      have hchildren := Block.decided_expandChildren blocks (assignments treatments)
      rw [Block.expand, Block.treatedWithin, checkAll]
      refine .ok_bind (.warn _) fun _ => .bind (.check _) fun _ => .ok_bind (.warn _) fun _ =>
        .ok_bind (.issuing _) fun _ => .ok_bind (.issuing _) fun _ =>
        .ok_bind (.issuing _) fun _ => ?_
      exact hchildren.bind_ok fun _ => .pure _

theorem Block.decided_expandChildren : ∀ (blocks : Option (List Block))
    (given : List (String × Nat)),
    Expanding.DecidedBy (checkAll Block.check (Block.treatedWithinOption given blocks))
      (Block.expandChildren given blocks)
  | none, _ => by
      rw [Block.expandChildren]
      exact .pure none
  | some blocks, given => by
      rw [Block.expandChildren, Block.treatedWithinOption]
      exact (Block.decided_expandList blocks given).bind_ok fun _ => .pure _

theorem Block.decided_expandList : ∀ (blocks : List Block) (given : List (String × Nat)),
    Expanding.DecidedBy (checkAll Block.check (Block.treatedWithinList given blocks))
      (Block.expandList given blocks)
  | [], _ => by
      rw [Block.expandList]
      exact .pure []
  | block :: rest, given => by
      rw [Block.expandList, Block.treatedWithinList, checkAll_append]
      refine (Block.decided_expand block _).bind fun _ => ?_
      exact (Block.decided_expandList rest given).bind_ok fun _ => .pure _

end

/-- The rules of the root and of all blocks decide whether an experiment expands. -/
theorem Experiment.decided_expand (e : Experiment) :
    Expanding.DecidedBy (e.check >>= fun _ => checkAll Block.check e.treatedBlocks) e.expand := by
  refine .ok_bind (.warn _) fun _ => .bind (.check _) fun _ => .ok_bind (.warn _) fun _ => ?_
  exact (Block.decided_expandList e.blocks _).bind_ok fun _ => .pure _

/-! ### Refusals of a tree -/

/-- The promises that a tree can break. At most one relation of a placeholder is given to begin
with, so the last promise is not among them. -/
def Promise.ofTrees : List Promise :=
  [.structural, .missingAttribute, .imbalance, .bankSize, .replacementPolicy, .bankFields,
    .unknownField, .answerType, .lengthMismatch, .unsupportedArity, .ambiguousReference, .policy]

/-- The root, a node of a tree or one made up by the compilation between two states of the source of
identifiers. -/
inductive Experiment.HasNode (e : Experiment) (ids ids' : IdSource) : String → Prop where
  | root : Experiment.HasNode e ids ids' Experiment.node
  | given {kind : NodeKind} {id : String} (mem : (kind, id) ∈ e.identities) :
      Experiment.HasNode e ids ids' id
  | issued {id : String} (issued : ids.Issued ids' id) : Experiment.HasNode e ids ids' id

/-- A failure that breaks a promise of trees at a node of a tree or one made up by compiling it. -/
inductive Failure.OfTree (e : Experiment) (ids ids' : IdSource) : Failure → Prop where
  | rule {node : String} {cause : Cause} (at_node : e.HasNode ids ids' node)
      (promise : cause.promise ∈ Promise.ofTrees) : Failure.OfTree e ids ids' (.rule node cause)

/-- The failure of the root, or of the first block that fails under its treatment. -/
inductive Experiment.FirstFault (e : Experiment) : Failure → Prop where
  | root {failure : Failure} (fails : e.check = .error failure) : Experiment.FirstFault e failure
  | block {failure : Failure} {before after : List Block} {block : Block}
      (root : e.check = .ok ()) (order : e.treatedBlocks = before ++ block :: after)
      (passed : ∀ earlier ∈ before, earlier.check = .ok ()) (fails : block.check = .error failure) :
      Experiment.FirstFault e failure

theorem Cause.OfRules.promise_mem {cause : Cause} (h : cause.OfRules) :
    cause.promise ∈ Promise.ofTrees := by
  cases cause with
  | repeatedId _ _ => exact h.elim
  | combinedDraws => exact h.elim
  | stated _ _ => exact h.elim
  | _ => simp [Cause.promise, Promise.ofTrees]

theorem Failure.FoundAt.ofTree {e : Experiment} {ids ids' : IdSource} {failure : Failure}
    (h : failure.FoundAt (e.HasNode ids ids') Cause.OfRules) : failure.OfTree e ids ids' := by
  cases h with
  | rule at_node of_rules => exact .rule at_node of_rules.promise_mem

/-- A repeated identifier is one of the expanded tree. -/
theorem Index.ofTrees_eq_error {expanded given : Experiment} {failure : Failure}
    (h : Index.ofTrees expanded given = .error failure) :
    ∃ kind id, (kind, id) ∈ expanded.identities ∧ failure = .rule id (.repeatedId kind id) := by
  have hmem : ∀ (seen identities : List Identity) identity,
      firstRepeated seen identities = some identity → identity ∈ identities := by
    intro seen identities
    induction identities generalizing seen with
    | nil => simp [firstRepeated]
    | cons first rest ih =>
        intro identity hrepeated
        rw [firstRepeated] at hrepeated
        split at hrepeated
        · cases hrepeated
          exact List.mem_cons_self
        · exact List.mem_cons_of_mem _ (ih _ identity hrepeated)
  unfold Index.ofTrees at h
  split at h
  · rename_i kind id hrepeated
    cases h
    exact ⟨kind, id, hmem _ _ _ hrepeated, rfl⟩
  · cases h

/-- The first fault of the root and the blocks under their treatments is what the checks in their
order find. -/
theorem Experiment.firstFault_iff {e : Experiment} {failure : Failure} :
    e.FirstFault failure ↔
      (e.check >>= fun _ => checkAll Block.check e.treatedBlocks) = .error failure := by
  constructor
  · intro hfault
    cases hfault with
    | root fails =>
        rw [fails]
        rfl
    | block root order passed fails =>
        rw [root]
        exact checkAll_eq_error_iff.mpr ⟨_, _, _, order, passed, fails⟩
  · intro hfails
    cases hroot : e.check with
    | error other =>
        rw [hroot] at hfails
        cases hfails
        exact .root hroot
    | ok _ =>
        rw [hroot] at hfails
        obtain ⟨before, block, after, horder, hpassed, hblock⟩ := checkAll_eq_error_iff.mp hfails
        exact .block hroot horder hpassed hblock

/-- Where the root or a block under its treatment breaks a rule, there is a first fault. -/
theorem Experiment.exists_firstFault {e : Experiment}
    (h : e.check ≠ .ok () ∨ ∃ block ∈ e.treatedBlocks, block.check ≠ .ok ()) :
    ∃ failure, e.FirstFault failure := by
  cases hchecks : e.check >>= fun _ => checkAll Block.check e.treatedBlocks with
  | error failure => exact ⟨failure, Experiment.firstFault_iff.mpr hchecks⟩
  | ok _ =>
      obtain ⟨hroot, hblocks⟩ := Verdict.seq_eq_ok_iff.mp hchecks
      rcases h with hfails | ⟨block, hblock, hfails⟩
      · exact absurd hroot hfails
      · exact absurd (checkAll_eq_ok_iff.mp hblocks block hblock) hfails

/-- The first fault decides the outcome. -/
theorem Experiment.FirstFault.outcome_eq {e : Experiment} {failure : Failure}
    (h : e.FirstFault failure) (session : Session) :
    (e.compile session).outcome = .error failure := by
  have hdecided := e.decided_expand { ids := session.ids, warnings := [] }
  rw [Experiment.firstFault_iff.mp h] at hdecided
  cases hexpand : e.expand { ids := session.ids, warnings := [] } with
  | ok expanded p =>
      rw [Expanding.verdict, hexpand] at hdecided
      cases hdecided
  | error other p =>
      rw [Expanding.verdict, hexpand] at hdecided
      cases hdecided
      rw [Experiment.compile_of_expand_error hexpand]

/-- A failure of a compilation breaks a promise of trees, at a node of the tree or one made up. -/
theorem Experiment.ofTree_of_compile {e : Experiment} {session : Session} {failure : Failure}
    (h : (e.compile session).outcome = .error failure) :
    failure.OfTree e session.ids (e.compile session).session.ids := by
  rcases Experiment.compile_eq_error h with ⟨p, hexpand⟩ | ⟨expanded, p, hexpand, hlater⟩
  · have hfound : failure.FoundAt (e.HasNode session.ids (e.compile session).session.ids)
        Cause.OfNodes :=
      Experiment.foundAt_of_expand .root (fun _ hidentity => .given hidentity) hexpand
    exact (hfound.mono Cause.OfNodes.ofRules).ofTree
  · have hsession : (e.compile session).session.ids = p.ids := by
      rcases hlater with hindex | ⟨index, g, hindex, hresolve⟩
      · rw [Experiment.compile_of_ofTrees_error hexpand hindex]
      · rw [Experiment.compile_of_resolve_error hexpand hindex hresolve]
    have hnodes : ∀ identity ∈ expanded.identities,
        e.HasNode session.ids (e.compile session).session.ids identity.2 := by
      intro identity hidentity
      rw [hsession]
      rcases (Experiment.expand_ok hexpand).minted.mem identity hidentity with hgiven | hissued
      · exact .given hgiven
      · exact .issued hissued
    rcases hlater with hindex | ⟨index, g, _, hresolve⟩
    · obtain ⟨kind, id, hmem, rfl⟩ := Index.ofTrees_eq_error hindex
      have hpromise : (Cause.repeatedId kind id).promise ∈ Promise.ofTrees := by
        simp [Cause.promise, Promise.ofTrees]
      exact .rule (hnodes _ hmem) hpromise
    · exact (Experiment.foundAt_of_resolve .root hnodes hresolve).ofTree

/-- A compilation that fails breaks one of the promises of trees, at the root or at a node that is
in the tree or that it made up. If the root or some block under its treatment breaks a rule of
blocks, it fails as the root does, or else as the first such block does, whatever else is wrong with
the tree. -/
theorem Experiment.compile_refusals (e : Experiment) (session : Session) :
    (∀ failure, (e.compile session).outcome = .error failure →
      failure.OfTree e session.ids (e.compile session).session.ids) ∧
    (∀ failure, e.FirstFault failure → (e.compile session).outcome = .error failure) ∧
    (e.check ≠ .ok () ∨ (∃ block ∈ e.treatedBlocks, block.check ≠ .ok ()) →
      ∃ failure, e.FirstFault failure) := by
  refine ⟨?_, ?_, Experiment.exists_firstFault⟩
  · intro failure hfails
    exact Experiment.ofTree_of_compile hfails
  · intro failure hfault
    exact hfault.outcome_eq session

/-! ### A tree with several faults -/

/-- A guard without a target. -/
def Guard.aimless : Guard := {}

/-- The first block has a faulty guard that a treatment replaces, and both of its pages bear one
identifier and two keys for no option. The block in the second one ends after a streak of none. The
last block has no contents. -/
def Experiment.misbuilt : Experiment where
  blocks := [
    { id := "tested"
      pages := some [
        { id := "twin", text := .single (.literal "One"), keyboard := some (.keys ["f", "j"]) },
        { id := "twin", text := .single (.literal "Two"), keyboard := some (.keys ["f", "j"]) }]
      guard := some .aimless },
    { id := "outer"
      blocks := some [{ id := "inner", pages := some [], criterion := some (.streak 0) }] },
    { id := "hollow" }]
  treatments := [["outer"], ["tested"]]

/-- The block in the second block is the first to break a rule: the treatment takes away the faulty
guard before it is asked, and the pages of the first block are never reached. -/
theorem Experiment.compile_refusals_misbuilt :
    Experiment.misbuilt.treatedBlocks.map (·.id) = ["tested", "outer", "inner", "hollow"] ∧
    (∃ failure, Experiment.misbuilt.FirstFault failure) ∧
    Experiment.misbuilt.FirstFault (.rule "inner" .emptyStreak) ∧
    (Experiment.misbuilt.compile .worked).outcome = .error (.rule "inner" .emptyStreak) ∧
    Failure.OfTree .misbuilt Session.worked.ids
      (Experiment.misbuilt.compile .worked).session.ids (.rule "inner" .emptyStreak) := by
  obtain ⟨hoftree, hfirst, hexists⟩ := Experiment.compile_refusals .misbuilt .worked
  have hinner : Experiment.misbuilt.FirstFault (.rule "inner" .emptyStreak) := by
    apply Experiment.firstFault_iff.mpr
    cbv
  have hhollow : ∃ block ∈ Experiment.misbuilt.treatedBlocks, block.check ≠ .ok () := by
    refine ⟨{ id := "hollow" }, List.mem_of_getElem? (i := 3) rfl, ?_⟩
    intro hpasses
    cases (Block.check_eq_ok_iff.mp hpasses).contents
  exact ⟨by cbv, hexists (.inr hhollow), hinner, hfirst _ hinner, hoftree _ (hfirst _ hinner)⟩

end Paradigm
