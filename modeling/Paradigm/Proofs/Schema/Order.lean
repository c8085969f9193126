/-
Module: Paradigm.Proofs.Schema.Order
Layer: Proofs
Purpose: The sorted form of a value as equality up to the order of members. Sorting puts members in
  strictly increasing order of their names, and one list only is in this order and has given
  members: two objects with the same values under the same names have the same sorted form.
Imports: Paradigm.Proofs.Schema.Acceptance
Main exports: Json.precedes_iff, Json.pairwise_sortedMembers, Json.sorted_obj_congr
-/
import Mathlib.Data.Char
import Mathlib.Data.List.Lex
import Paradigm.Proofs.Schema.Acceptance

namespace Paradigm.Json

/-! ### Order of names -/

/-- Names are in lexicographic order. -/
theorem precedes_iff {cs ds : List Char} : precedes cs ds = true ↔ cs < ds := by
  induction cs generalizing ds with
  | nil => cases ds <;> simp [precedes]
  | cons c cs ih =>
      cases ds with
      | nil => simp [precedes]
      | cons d ds =>
          simp only [precedes, List.cons_lt_cons_iff, Bool.or_eq_true, Bool.and_eq_true,
            decide_eq_true_eq, ih]
          rfl

/-- A member stands before another one by its name. -/
def Before (m n : String × Json) : Prop := m.1.toList < n.1.toList

/-- A name that does not come before another one comes after it. -/
theorem before_of_not_precedes {name other : String} {value kept : Json}
    (h : ¬ precedes name.toList other.toList = true) (hne : name ≠ other) :
    Before (other, kept) (name, value) := by
  rw [precedes_iff, not_lt] at h
  apply lt_of_le_of_ne h
  intro heq
  exact hne (String.toList_inj.mp heq).symm

/-! ### Sorted members -/

theorem mem_of_mem_insertMember {name : String} {value : Json} {members : List (String × Json)}
    {m : String × Json} (h : m ∈ insertMember name value members) :
    m = (name, value) ∨ m ∈ members := by
  induction members with
  | nil => exact .inl (List.mem_singleton.mp h)
  | cons first rest ih =>
      obtain ⟨other, kept⟩ := first
      unfold insertMember at h
      split at h
      · exact List.mem_cons.mp h
      · split at h
        · exact .inr h
        · rcases List.mem_cons.mp h with rfl | hrest
          · exact .inr List.mem_cons_self
          · exact (ih hrest).imp_right (List.mem_cons_of_mem _)

theorem pairwise_insertMember {name : String} {value : Json} {members : List (String × Json)}
    (h : members.Pairwise Before) : (insertMember name value members).Pairwise Before := by
  induction members with
  | nil => exact List.pairwise_singleton _ _
  | cons first rest ih =>
      obtain ⟨other, kept⟩ := first
      obtain ⟨hfirst, hrest⟩ := List.pairwise_cons.mp h
      unfold insertMember
      split
      · rename_i hprecedes
        have hbefore : Before (name, value) (other, kept) := precedes_iff.mp hprecedes
        apply List.pairwise_cons.mpr ⟨?_, h⟩
        intro m hm
        rcases List.mem_cons.mp hm with rfl | hm
        · exact hbefore
        · exact lt_trans hbefore (hfirst m hm)
      · rename_i hprecedes
        split
        · exact h
        · rename_i hne
          apply List.pairwise_cons.mpr ⟨?_, ih hrest⟩
          intro m hm
          rcases mem_of_mem_insertMember hm with rfl | hm
          · exact before_of_not_precedes hprecedes hne
          · exact hfirst m hm

/-- Sorted members are in strictly increasing order of their names. -/
theorem pairwise_sortedMembers (members : List (String × Json)) :
    (sortedMembers members).Pairwise Before := by
  induction members with
  | nil => exact .nil
  | cons first rest ih => exact pairwise_insertMember ih

theorem nodup_of_pairwise_before {members : List (String × Json)} (h : members.Pairwise Before) :
    members.Nodup := by
  apply List.Pairwise.imp _ h
  intro m n hbefore heq
  exact lt_irrefl _ (heq ▸ hbefore)

/-- Members in strictly increasing order are given by which ones they are. -/
theorem eq_of_mem_iff {ms ns : List (String × Json)} (hms : ms.Pairwise Before)
    (hns : ns.Pairwise Before) (h : ∀ m, m ∈ ms ↔ m ∈ ns) : ms = ns := by
  have hperm : ms.Perm ns :=
    (List.perm_ext_iff_of_nodup (nodup_of_pairwise_before hms) (nodup_of_pairwise_before hns)).mpr h
  apply List.Perm.eq_of_pairwise _ hms hns hperm
  intro m n _ _ hmn hnm
  exact absurd hmn (lt_asymm hnm)

/-! ### Objects with the same values under the same names -/

theorem mem_sortedMembers_iff_lookup {members : List (String × Json)}
    (h : (members.map Prod.fst).Nodup) {m : String × Json} :
    m ∈ sortedMembers members ↔ (members.lookup m.1).map sorted = some m.2 := by
  rw [mem_sortedMembers_iff h, Option.map_eq_some_iff]
  constructor
  · intro hgiven
    obtain ⟨given, hmem, rfl⟩ := hgiven
    exact ⟨given.2, (lookup_eq_some_iff_mem h).mpr hmem, rfl⟩
  · intro hfound
    obtain ⟨x, hlookup, hx⟩ := hfound
    exact ⟨(m.1, x), (lookup_eq_some_iff_mem h).mp hlookup, by rw [hx]⟩

/-- Objects that have the same values under the same names have the same sorted form. -/
theorem sorted_obj_congr {ms ns : List (String × Json)} (hms : (ms.map Prod.fst).Nodup)
    (hns : (ns.map Prod.fst).Nodup)
    (h : ∀ name, (ms.lookup name).map sorted = (ns.lookup name).map sorted) :
    (obj ms).sorted = (obj ns).sorted := by
  have hmembers : sortedMembers ms = sortedMembers ns := by
    -- Both lists are in strictly increasing order, so it is enough that they share their members.
    apply eq_of_mem_iff (pairwise_sortedMembers ms) (pairwise_sortedMembers ns)
    intro m
    rw [mem_sortedMembers_iff_lookup hms, mem_sortedMembers_iff_lookup hns, h]
  rw [sorted, sorted, hmembers]

end Paradigm.Json
