/-
Module: Paradigm.Rules.Verdict
Layer: Rules
Purpose: The outcome of checking a rule: nothing, or the failure met first.
Imports: Paradigm.Failure
Main exports: Verdict, refuse, require
-/
import Paradigm.Failure

namespace Paradigm

/-- The outcome of a check. -/
abbrev Verdict := Except Failure Unit

/-- Refuses a node for a cause. -/
def refuse {α : Type} (node : String) (cause : Cause) : Except Failure α :=
  .error (.rule node cause)

/-- Refuses a node for a cause unless a condition holds. -/
def require (condition : Bool) (node : String) (cause : Cause) : Verdict :=
  if condition then .ok () else refuse node cause

/-- Checks members from the left up to the first failure. -/
def checkAll {α : Type} (check : α → Verdict) : List α → Verdict
  | [] => .ok ()
  | x :: rest => do
      check x
      checkAll check rest

@[simp] theorem require_eq_ok_iff {condition : Bool} {node : String} {cause : Cause} :
    require condition node cause = .ok () ↔ condition = true := by
  cases condition <;> simp [require, refuse]

/-- All members pass exactly when each one does. -/
theorem checkAll_eq_ok_iff {α : Type} {check : α → Verdict} {xs : List α} :
    checkAll check xs = .ok () ↔ ∀ x ∈ xs, check x = .ok () := by
  induction xs with
  | nil => simp [checkAll]
  | cons x rest ih =>
      cases hx : check x with
      | error e => simp [checkAll, hx, bind, Except.bind]
      | ok u => simpa [checkAll, hx, bind, Except.bind] using ih

end Paradigm
