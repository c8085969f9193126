/-
Module: Paradigm.Proofs.Relabelling.Naming
Layer: Proofs
Purpose: A renaming from two lists of nodes. Where the nodes of two lists are of the same kinds and
  those of each list are distinct, a permutation of names for each kind takes the nodes of the one
  list to those of the other, and the numbers that one source has yet to issue to those of another.
Imports: Mathlib.Data.Countable.Basic, Mathlib.Data.Set.Countable, Paradigm.Proofs.Copies,
  Paradigm.Proofs.Relabelling
Main exports: exists_perm_of_injective, namesOf, exists_naming
-/
import Mathlib.Data.Countable.Basic
import Mathlib.Data.Set.Countable
import Paradigm.Proofs.Copies
import Paradigm.Proofs.Relabelling

namespace Paradigm

/-! ### Permutations of names -/

/-- Two enumerations without repetitions, each of which leaves infinitely many elements out, differ
by a permutation. -/
theorem exists_perm_of_injective {α ι : Type} [Countable α] {a b : ι → α}
    (ha : Function.Injective a) (hb : Function.Injective b)
    (hrest : (Set.range a)ᶜ.Infinite) (hrest' : (Set.range b)ᶜ.Infinite) :
    ∃ σ : Equiv.Perm α, ∀ i, σ (a i) = b i := by
  have := hrest.to_subtype
  have := hrest'.to_subtype
  obtain ⟨others⟩ := nonempty_equiv_of_countable (α := ↥(Set.range a)ᶜ) (β := ↥(Set.range b)ᶜ)
  let listed := (Equiv.ofInjective a ha).symm.trans (Equiv.ofInjective b hb)
  classical
  refine ⟨((Equiv.Set.sumCompl _).symm.trans (listed.sumCongr others)).trans
    (Equiv.Set.sumCompl _), ?_⟩
  intro i
  have hlisted : listed ⟨a i, Set.mem_range_self i⟩ = ⟨b i, Set.mem_range_self i⟩ := by
    have hpreimage : (Equiv.ofInjective a ha).symm ⟨a i, Set.mem_range_self i⟩ = i :=
      Equiv.ofInjective_symm_apply ha i
    rw [Equiv.trans_apply, hpreimage]
    rfl
  simp [Equiv.Set.sumCompl_symm_apply_of_mem (Set.mem_range_self i), hlisted]

theorem countable_string : Countable String := by
  have hchars : Function.Injective Char.toNat := fun _ _ => Char.toNat_inj.mp
  have := hchars.countable
  have htexts : Function.Injective String.toList := fun _ _ => String.toList_inj.mp
  exact htexts.countable

/-- There are infinitely many names that no source issues. -/
theorem infinite_unissued : {name : String | ∀ n : Nat, name ≠ toString n}.Infinite := by
  apply Set.infinite_of_injective_forall_mem
    (f := fun k => String.ofList (List.replicate (k + 1) 'a'))
  · intro k l hkl
    have hlengths := congrArg (fun name => name.toList.length) hkl
    simpa using hlengths
  · intro k n hn
    have hletter : 'a' ∈ Nat.toDigits 10 n := by
      rw [← Nat.toList_repr]
      show 'a' ∈ (toString n).toList
      rw [← hn]
      simp
    have hdigit := Nat.isDigit_of_mem_toDigits (by decide) (by decide) hletter
    exact absurd hdigit (by decide)

/-- The names of a list, and after them the numbers above a bound. -/
def nameAt (names : List String) (last : Nat) (k : Nat) : String :=
  (names[k]?).getD (toString (last + (k + 1 - names.length)))

section NameAt

variable {names : List String} {last : Nat}

theorem nameAt_of_lt {k : Nat} (h : k < names.length) : nameAt names last k = names[k] := by
  rw [nameAt, List.getElem?_eq_getElem h, Option.getD_some]

theorem nameAt_of_ge {k : Nat} (h : names.length ≤ k) :
    nameAt names last k = toString (last + (k + 1 - names.length)) := by
  rw [nameAt, List.getElem?_eq_none h, Option.getD_none]

theorem nameAt_injective (hnames : names.Nodup) (hunissued : ∀ n, last < n → toString n ∉ names) :
    Function.Injective (nameAt names last) := by
  have hapart : ∀ {k l}, k < names.length → names.length ≤ l →
      nameAt names last k ≠ nameAt names last l := by
    intro k l hk hl hsame
    rw [nameAt_of_lt hk, nameAt_of_ge hl] at hsame
    apply hunissued (last + (l + 1 - names.length)) (by omega)
    rw [← hsame]
    exact List.getElem_mem hk
  intro k l hsame
  rcases Nat.lt_or_ge k names.length with hk | hk <;>
    rcases Nat.lt_or_ge l names.length with hl | hl
  · rw [nameAt_of_lt hk, nameAt_of_lt hl] at hsame
    exact (hnames.getElem_inj_iff).mp hsame
  · exact absurd hsame (hapart hk hl)
  · exact absurd hsame.symm (hapart hl hk)
  · rw [nameAt_of_ge hk, nameAt_of_ge hl] at hsame
    have hnumbers := toString_injective hsame
    omega

theorem infinite_compl_range_nameAt : (Set.range (nameAt names last))ᶜ.Infinite := by
  apply (infinite_unissued.sdiff names.finite_toSet).mono
  rintro name ⟨hunissued, hnames⟩ ⟨k, rfl⟩
  rcases Nat.lt_or_ge k names.length with hk | hk
  · apply hnames
    rw [nameAt_of_lt hk]
    exact List.getElem_mem hk
  · exact hunissued _ (nameAt_of_ge hk)

end NameAt

/-- Two lists of distinct names, as long as each other, differ by a permutation of names that also
takes the numbers above one bound to those above another, if none of the numbers is in the lists. -/
theorem exists_perm_of_nodup {names names' : List String} {last last' : Nat}
    (hlength : names'.length = names.length) (hnames : names.Nodup) (hnames' : names'.Nodup)
    (hunissued : ∀ n, last < n → toString n ∉ names)
    (hunissued' : ∀ n, last' < n → toString n ∉ names') :
    ∃ σ : Equiv.Perm String, names' = names.map σ ∧
      ∀ i, 0 < i → σ (toString (last + i)) = toString (last' + i) := by
  have := countable_string
  obtain ⟨σ, hσ⟩ := exists_perm_of_injective (nameAt_injective hnames hunissued)
    (nameAt_injective hnames' hunissued') infinite_compl_range_nameAt infinite_compl_range_nameAt
  refine ⟨σ, ?_, ?_⟩
  · apply List.ext_getElem
    · rw [hlength, List.length_map]
    · intro k hk' hk
      rw [List.length_map] at hk
      have hsame := hσ k
      rw [nameAt_of_lt hk, nameAt_of_lt hk'] at hsame
      rw [List.getElem_map, hsame]
  · intro i hi
    have hsame := hσ (names.length + (i - 1))
    rw [nameAt_of_ge (by omega), nameAt_of_ge (by omega)] at hsame
    rwa [show names.length + (i - 1) + 1 - names.length = i by omega,
      show names.length + (i - 1) + 1 - names'.length = i by omega] at hsame

/-! ### Names by kind -/

/-- The identifiers of the nodes of a kind, in order. -/
def namesOf (kind : NodeKind) (identities : List Identity) : List String :=
  (identities.filter (·.1 = kind)).map Prod.snd

theorem mem_namesOf {kind : NodeKind} {identities : List Identity} {id : String} :
    id ∈ namesOf kind identities ↔ (kind, id) ∈ identities := by
  simp [namesOf]

theorem nodup_namesOf {identities : List Identity} (h : identities.Nodup) (kind : NodeKind) :
    (namesOf kind identities).Nodup := by
  apply List.Nodup.map_on _ (h.filter _)
  intro x hx y hy hsame
  simp only [List.mem_filter, decide_eq_true_eq] at hx hy
  exact Prod.ext (hx.2.trans hy.2.symm) hsame

theorem length_namesOf (kind : NodeKind) (identities : List Identity) :
    (namesOf kind identities).length = (kindsOf identities).count kind := by
  rw [namesOf, List.length_map, ← List.countP_eq_length_filter, List.count, List.countP_map]
  rfl

/-- Nodes of given kinds are known from the identifiers of the nodes of each kind. -/
theorem eq_map_relabel {r : Relabelling} {given copy : List Identity}
    (hkinds : kindsOf copy = kindsOf given)
    (hnames : ∀ kind, namesOf kind copy = (namesOf kind given).map (r.name kind)) :
    copy = given.map (Identity.relabel r) := by
  induction given generalizing copy with
  | nil => exact List.map_eq_nil_iff.mp hkinds
  | cons first rest ih =>
      cases copy with
      | nil => cases hkinds
      | cons first' rest' =>
          simp only [kindsOf, List.map_cons, List.cons.injEq] at hkinds
          obtain ⟨hkind, hkinds⟩ := hkinds
          have hhead := hnames first.1
          simp only [namesOf, List.filter_cons, hkind, decide_true, if_true, List.map_cons,
            List.cons.injEq] at hhead
          have hfirst : first' = first.relabel r := Prod.ext hkind hhead.1
          rw [List.map_cons, hfirst, ih hkinds]
          intro kind
          by_cases hthis : first.1 = kind
          · subst hthis
            exact hhead.2
          · have htail := hnames kind
            simpa [namesOf, List.filter_cons, hkind, hthis] using htail

/-- Nodes that are distinct before and after differ by a permutation of names for each kind. -/
theorem exists_naming {given copy : List Identity} {last last' : Nat}
    (hkinds : kindsOf copy = kindsOf given) (hgiven : given.Nodup) (hcopy : copy.Nodup)
    (hunissued : ∀ identity ∈ given, ∀ n, last < n → identity.2 ≠ toString n)
    (hunissued' : ∀ identity ∈ copy, ∀ n, last' < n → identity.2 ≠ toString n) :
    ∃ ν : NodeKind → Equiv.Perm String,
      copy = given.map (Identity.relabel { name := fun kind => ν kind }) ∧
        ∀ kind i, 0 < i → ν kind (toString (last + i)) = toString (last' + i) := by
  have hperms : ∀ kind, ∃ σ : Equiv.Perm String, namesOf kind copy = (namesOf kind given).map σ ∧
      ∀ i, 0 < i → σ (toString (last + i)) = toString (last' + i) := by
    intro kind
    apply exists_perm_of_nodup _ (nodup_namesOf hgiven kind) (nodup_namesOf hcopy kind)
    · intro n hn hmem
      exact hunissued _ (mem_namesOf.mp hmem) n hn rfl
    · intro n hn hmem
      exact hunissued' _ (mem_namesOf.mp hmem) n hn rfl
    · rw [length_namesOf, length_namesOf, hkinds]
  choose ν hnames hissued using hperms
  exact ⟨ν, eq_map_relabel hkinds hnames, hissued⟩

end Paradigm
