/-
Module: Paradigm.Proofs.Renaming
Layer: Proofs
Purpose: Renaming is relabelling with one new name for a name wherever it stands, and no slot moved.
  Trees, documents and what is reported about them are renamed. Beside this stands the renaming that
  moves the numbers above a bound and keeps every other name.
Imports: Mathlib, Paradigm.Proofs.Relabelling.Expansion, Paradigm.Proofs.Relabelling.Names
Main exports: Experiment.rename, Document.Experiment.rename, Failure.rename, Warning.rename,
  Outcome.rename, Renaming, Renaming.correspondence, shiftNumbers, shiftNumbers_of_ne,
  Renaming.shiftNumbers
-/
import Mathlib
import Paradigm.Proofs.Relabelling.Expansion
import Paradigm.Proofs.Relabelling.Names

namespace Paradigm

/-! ### Renamed trees, documents and reports -/

section Definitions

variable (ρ : String → String)

/-- The relabelling that gives every node its new name, whatever its kind. -/
def Relabelling.uniform : Relabelling := { name := fun _ => ρ, stray := ρ }

/-- An experiment with all its nodes, guards and lists renamed. -/
def Experiment.rename (e : Experiment) : Experiment := e.relabel (.uniform ρ)

/-- A document with every identifier and every list of references renamed. -/
def Document.Experiment.rename (d : Document.Experiment) : Document.Experiment :=
  d.relabel (.uniform ρ)

/-- A failure for the same cause at the renamed node. -/
def Failure.rename : Failure → Failure
  | .rule node cause => .rule (ρ node) (cause.relabel (.uniform ρ))
  | failure => failure

/-- A warning about the renamed nodes. -/
def Warning.rename : Warning → Warning
  | .sharedPermutation node => .sharedPermutation (ρ node)
  | .reassigned node block previous permutation =>
      .reassigned (ρ node) (ρ block) previous permutation
  | .guardReplaced node permutation => .guardReplaced (ρ node) permutation

/-- An outcome whose failure, if it is one, is renamed. -/
def Outcome.rename {α : Type} : Except Failure α → Except Failure α
  | .ok value => .ok value
  | .error failure => .error (failure.rename ρ)

end Definitions

/-- A renaming fit for two sources of identifiers: it keeps different identifiers apart and the name
of the root as it is, and takes each of the next `count` identifiers of the first source to the one
that the second source issues in its place. -/
structure Renaming (ρ : String → String) (source target : IdSource) (count : Nat) : Prop where
  injective : Function.Injective ρ
  root : ρ Experiment.node = Experiment.node
  issued : ∀ i, 0 < i → i ≤ count →
    ρ (identifier (source.last + i)) = identifier (target.last + i)

/-- Where both counters have room, their identifiers are the numbers above them. -/
theorem Renaming.of_numbers {ρ : String → String} {source target : IdSource} {count : Nat}
    (hinjective : Function.Injective ρ) (hroot : ρ Experiment.node = Experiment.node)
    (hsource : source.HasRoom count) (htarget : target.HasRoom count)
    (hnumbers : ∀ i, 0 < i → i ≤ count →
      ρ (toString (source.counter.toNat + i)) = toString (target.counter.toNat + i)) :
    Renaming ρ source target count where
  injective := hinjective
  root := hroot
  issued := by
    intro i hpos hi
    rw [hsource.identifier_add hi, htarget.identifier_add hi]
    exact hnumbers i hpos hi

/-! ### Renamings as relabellings -/

section Uniform

variable {ρ : String → String}

/-- A renaming relates two sessions that agree on their tokens. -/
def Renaming.correspondence {session session' : Session} {count : Nat}
    (h : Renaming ρ session.ids session'.ids count)
    (hregistry : session'.registry = session.registry) : Correspondence :=
  .ofNames ρ (fun _ => h.injective) (fun _ => h.issued) hregistry

theorem Relabelling.Takes.eq_rename {node node' : String}
    (hroot : ρ Experiment.node = Experiment.node)
    (h : (Relabelling.uniform ρ).Takes node node') : node' = ρ node := by
  cases h with
  | node kind id => rfl
  | root => exact hroot.symm

theorem Failure.Relabelled.eq_rename {failure failure' : Failure}
    (hroot : ρ Experiment.node = Experiment.node)
    (h : failure.Relabelled (.uniform ρ) failure') : failure' = failure.rename ρ := by
  obtain ⟨nodes, cause⟩ := h
  rw [nodes.eq_rename hroot, Failure.rename]

theorem Warning.Relabelled.eq_rename {warning warning' : Warning}
    (hroot : ρ Experiment.node = Experiment.node)
    (h : warning.Relabelled (.uniform ρ) warning') : warning' = warning.rename ρ := by
  cases h with
  | sharedPermutation nodes => rw [nodes.eq_rename hroot, Warning.rename]
  | reassigned nodes block previous permutation =>
      rw [nodes.eq_rename hroot, Warning.rename]
      rfl
  | guardReplaced block permutation => rfl

theorem Warnings.Relabelled.eq_rename {warnings warnings' : List Warning}
    (hroot : ρ Experiment.node = Experiment.node)
    (h : Warnings.Relabelled (.uniform ρ) warnings warnings') :
    warnings' = warnings.map (Warning.rename ρ) := by
  induction h with
  | nil => rfl
  | cons head tail ih => rw [List.map_cons, head.eq_rename hroot, ih]

theorem Outcome.Relabelled.eq_rename {α β : Type} {change : α → β} {outcome : Except Failure α}
    {outcome' : Except Failure β} (hroot : ρ Experiment.node = Experiment.node)
    (h : Outcome.Relabelled (.uniform ρ) change outcome outcome') :
    outcome' = Outcome.rename ρ (outcome.map change) := by
  cases h with
  | ok value => rfl
  | error report =>
      rw [report.eq_rename hroot]
      rfl

/-- A renaming that keeps the names in a tree keeps the tree. -/
theorem Experiment.rename_eq_self {e : Experiment} (h : ∀ name ∈ e.names, ρ name.2 = name.2) :
    e.rename ρ = e := by
  apply Experiment.relabel_eq_self
  intro name hname
  exact ⟨h name hname, fun _ => h name hname⟩

end Uniform

/-! ### Shifted numbers -/

/-- Moves the numbers above a bound up, as identifiers write them. All other names stay. -/
def shiftNumbers (bound offset : Nat) (name : String) : String :=
  match name.toNat? with
  | some n => if bound < n ∧ toString n = name then toString (n + offset) else name
  | none => name

theorem toNat?_toString (n : Nat) : (toString n).toNat? = some n := Nat.toNat?_repr n

theorem ne_toString_of_toNat?_eq_none {name : String} (h : name.toNat? = none) (n : Nat) :
    name ≠ toString n := by
  intro heq
  rw [heq, toNat?_toString] at h
  cases h

/-- Among names none of which reads as a number there is no number. -/
theorem ne_toString_of_mem {names : List Identity} {k : Nat}
    (h : names.map (fun name => name.2.toNat?) = List.replicate k none) :
    ∀ name ∈ names, ∀ n : Nat, name.2 ≠ toString n := by
  intro name hname
  have hread : name.2.toNat? ∈ List.replicate k none := by
    rw [← h]
    exact List.mem_map.mpr ⟨name, hname, rfl⟩
  exact ne_toString_of_toNat?_eq_none (List.eq_of_mem_replicate hread)

theorem shiftNumbers_toString {bound n : Nat} (h : bound < n) (offset : Nat) :
    shiftNumbers bound offset (toString n) = toString (n + offset) := by
  rw [shiftNumbers, toNat?_toString]
  exact if_pos ⟨h, rfl⟩

theorem shiftNumbers_of_ne {bound : Nat} {name : String}
    (h : ∀ n, bound < n → name ≠ toString n) (offset : Nat) :
    shiftNumbers bound offset name = name := by
  unfold shiftNumbers
  cases name.toNat? with
  | none => rfl
  | some n =>
      apply if_neg
      intro hboth
      obtain ⟨hlt, heq⟩ := hboth
      exact h n hlt heq.symm

/-- A name is a number above the bound, or it stays. -/
theorem shiftNumbers_cases (bound offset : Nat) (name : String) :
    (∃ n, bound < n ∧ name = toString n ∧ shiftNumbers bound offset name = toString (n + offset)) ∨
      (∀ n, bound < n → name ≠ toString n) ∧ shiftNumbers bound offset name = name := by
  by_cases h : ∃ n, bound < n ∧ name = toString n
  · obtain ⟨n, hlt, rfl⟩ := h
    exact .inl ⟨n, hlt, rfl, shiftNumbers_toString hlt offset⟩
  · have hother : ∀ n, bound < n → name ≠ toString n := fun n hlt heq => h ⟨n, hlt, heq⟩
    exact .inr ⟨hother, shiftNumbers_of_ne hother offset⟩

theorem shiftNumbers_injective (bound offset : Nat) :
    Function.Injective (shiftNumbers bound offset) := by
  intro a b hab
  rcases shiftNumbers_cases bound offset a with ⟨m, hm, rfl, hmoved⟩ | ⟨hother, hstays⟩
  · rcases shiftNumbers_cases bound offset b with ⟨n, hn, rfl, hmoved'⟩ | ⟨hother', hstays'⟩
    · rw [hmoved, hmoved'] at hab
      have hsame := toString_injective hab
      rw [Nat.add_right_cancel hsame]
    · rw [hmoved, hstays'] at hab
      exact absurd hab.symm (hother' (m + offset) (by omega))
  · rcases shiftNumbers_cases bound offset b with ⟨n, hn, rfl, hmoved'⟩ | ⟨hother', hstays'⟩
    · rw [hstays, hmoved'] at hab
      exact absurd hab (hother (n + offset) (by omega))
    · rwa [hstays, hstays'] at hab

/-- Shifting numbers is a renaming between a source that has passed the bound and the source that
is ahead of it by the offset, as long as the counter has room. -/
theorem Renaming.shiftNumbers {bound offset count : Nat} {source : IdSource}
    (hbound : bound ≤ source.counter.toNat) (hroom : source.HasRoom (offset + count)) :
    Renaming (Paradigm.shiftNumbers bound offset) source (source.after offset) count := by
  apply Renaming.of_numbers (shiftNumbers_injective bound offset)
  · apply shiftNumbers_of_ne
    intro n _
    exact ne_toString_of_toNat?_eq_none (by cbv) n
  · exact hroom.mono (Nat.le_add_left count offset)
  · exact hroom.after
  · intro i hpos _
    rw [shiftNumbers_toString (by omega),
      (hroom.mono (Nat.le_add_right offset count)).toNat_counter_after]
    congr 1
    omega

end Paradigm
