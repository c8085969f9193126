/-
Module: Paradigm.Proofs.Relabelling.Reports
Layer: Proofs
Purpose: Reports about a relabelled tree. They name the new identifiers of the nodes, each by the
  kind of the node that it is about; the root has no identifier and is always named alike. Two
  checks correspond to each other where both pass, or both are refused for the same cause.
Imports: Paradigm.Proofs.Relabelling, Mathlib.Data.List.Forall2
Main exports: Relabelling.Takes, Cause.relabel, Failure.Relabelled, Warning.Relabelled,
  Outcome.Relabelled, Verdict.Relabelled
-/
import Mathlib.Data.List.Forall2
import Paradigm.Proofs.Relabelling
import Paradigm.Rules.Verdict

namespace Paradigm

/-- What a report names before and after relabelling: a node of some kind, or the root. -/
inductive Relabelling.Takes (r : Relabelling) : String → String → Prop where
  | node (kind : NodeKind) (id : String) : Takes r id (r.name kind id)
  | root : Takes r Experiment.node Experiment.node

/-- A cause that names nodes by their new identifiers, and new slots. -/
def Cause.relabel (r : Relabelling) : Cause → Cause
  | .feedbackWithChoices page => .feedbackWithChoices (r.name .page page)
  | .repeatedId kind id => .repeatedId kind (r.name kind id)
  | .conditionMissing block => .conditionMissing (r.name .block block)
  | .strayReference list id => .strayReference list (r.name .block id)
  | .watchedMissing kind id => .watchedMissing kind (r.name kind id)
  | .watchedPages item pages => .watchedPages (r.name .item item) pages
  | .sampledCondition block => .sampledCondition (r.name .block block)
  | .slotPastEnd bank size slot => .slotPastEnd bank size (r.slot bank slot)
  | cause => cause

/-- A failure beside the one for the same cause at the relabelled node. -/
inductive Failure.Relabelled (r : Relabelling) : Failure → Failure → Prop where
  | rule {node node' : String} (nodes : r.Takes node node') (cause : Cause) :
      Relabelled r (.rule node cause) (.rule node' (cause.relabel r))

/-- A warning beside the one about the relabelled nodes. -/
inductive Warning.Relabelled (r : Relabelling) : Warning → Warning → Prop where
  | sharedPermutation {node node' : String} (nodes : r.Takes node node') :
      Relabelled r (.sharedPermutation node) (.sharedPermutation node')
  | reassigned {node node' : String} (nodes : r.Takes node node') (block : String)
      (previous permutation : Nat) :
      Relabelled r (.reassigned node block previous permutation)
        (.reassigned node' (r.name .block block) previous permutation)
  | guardReplaced (block : String) (permutation : Nat) :
      Relabelled r (.guardReplaced block permutation)
        (.guardReplaced (r.name .block block) permutation)

/-- Outcomes that correspond: both values, the second being the first one changed, or both refusals,
at the same node for the same cause. -/
inductive Outcome.Relabelled {α β : Type} (r : Relabelling) (change : α → β) :
    Except Failure α → Except Failure β → Prop where
  | ok (value : α) : Relabelled r change (.ok value) (.ok (change value))
  | error {failure failure' : Failure} (report : failure.Relabelled r failure') :
      Relabelled r change (.error failure) (.error failure')

/-- What corresponds to a value is the value changed. -/
theorem Outcome.Relabelled.eq_ok {α β : Type} {r : Relabelling} {change : α → β} {value : α}
    {outcome' : Except Failure β} (h : Relabelled r change (.ok value) outcome') :
    outcome' = .ok (change value) := by
  cases h
  rfl

/-- Checks that correspond. -/
abbrev Verdict.Relabelled (r : Relabelling) (verdict verdict' : Verdict) : Prop :=
  Outcome.Relabelled r (fun u => u) verdict verdict'

variable {r : Relabelling} {node node' : String} {α β γ δ : Type}

/-! ### Outcomes -/

theorem Outcome.Relabelled.same (value : α) :
    Relabelled r (fun given => given) (.ok value) (.ok value) :=
  .ok value

theorem Outcome.Relabelled.pure {change : α → β} {value : α} {value' : β}
    (h : value' = change value) : Relabelled r change (pure value) (pure value') := by
  rw [h]
  exact .ok value

theorem Outcome.Relabelled.refuse {change : α → β} (hnode : r.Takes node node') (cause : Cause) :
    Relabelled r change (refuse node cause) (refuse node' (cause.relabel r)) :=
  .error (.rule hnode cause)

/-- Sequences correspond where their parts do. -/
theorem Outcome.Relabelled.bind {change : α → β} {next : γ → δ} {m : Except Failure α}
    {m' : Except Failure β} {k : α → Except Failure γ} {k' : β → Except Failure δ}
    (first : Relabelled r change m m')
    (rest : ∀ value, Relabelled r next (k value) (k' (change value))) :
    Relabelled r next (m >>= k) (m' >>= k') := by
  cases first with
  | ok value => exact rest value
  | error report => exact .error report

/-! ### Checks -/

theorem Verdict.Relabelled.ok : Verdict.Relabelled r (.ok ()) (.ok ()) := .same ()

/-- A condition that does not depend on identifiers is required of both nodes. -/
theorem Verdict.Relabelled.require (condition : Bool) (hnode : r.Takes node node')
    (cause : Cause) : Verdict.Relabelled r (require condition node cause)
      (require condition node' (cause.relabel r)) := by
  cases condition with
  | false => exact .refuse hnode cause
  | true => exact .ok

/-- One check after another. -/
theorem Verdict.Relabelled.seq {first first' rest rest' : Verdict}
    (hfirst : Verdict.Relabelled r first first') (hrest : Verdict.Relabelled r rest rest') :
    Verdict.Relabelled r (first >>= fun _ => rest) (first' >>= fun _ => rest') :=
  .bind hfirst fun _ => hrest

/-- Checks of members correspond where those of each member do. -/
theorem Verdict.Relabelled.checkAll {check : α → Verdict} {check' : β → Verdict} {xs : List α}
    {ys : List β} (h : List.Forall₂ (fun x y => Verdict.Relabelled r (check x) (check' y)) xs ys) :
    Verdict.Relabelled r (Paradigm.checkAll check xs) (Paradigm.checkAll check' ys) := by
  induction h with
  | nil => exact .ok
  | cons head tail ih => exact .seq head ih

theorem Verdict.Relabelled.checkAll_map {check : α → Verdict} {check' : β → Verdict}
    {change : α → β} (h : ∀ x, Verdict.Relabelled r (check x) (check' (change x))) (xs : List α) :
    Verdict.Relabelled r (Paradigm.checkAll check xs)
      (Paradigm.checkAll check' (xs.map change)) :=
  .checkAll (List.forall₂_map_right_iff.mpr (List.forall₂_same.mpr fun x _ => h x))

end Paradigm
