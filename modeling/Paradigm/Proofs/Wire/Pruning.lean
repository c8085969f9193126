/-
Module: Paradigm.Proofs.Wire.Pruning
Layer: Proofs
Purpose: Values beside what is written for them. A value may give empty lists and maps that writing
  leaves out; pruning takes them away. Objects of a value have distinct names, and numbers under
  the names of machine integers are integer literals of their width.
Imports: Paradigm.Proofs.Schema.Order, Paradigm.Proofs.Schema.Values
Main exports: Json.pruned, Json.prunedRoot, Json.eachObject, Json.hasDistinctNames,
  Json.numbersFit, Json.WellFormed, Json.lookup_prunedMembers
-/
import Paradigm.Proofs.Schema.Order
import Paradigm.Proofs.Schema.Values

namespace Paradigm.Json

/-! ### Pruning -/

/-- The names under which an empty list is left out. -/
def voidLists : List String := ["options", "resources", "exchangeable", "counterbalance"]

/-- The names under which an empty map is left out. -/
def voidMaps : List String := ["tags", "banks"]

/-- Whether a member is an empty list or map under a name that is left out then. Members with names
of their own, which are tags, banks and their fields, hold texts and lists that are not empty. -/
def isVoid (name : String) : Json → Bool
  | .arr [] => voidLists.contains name
  | .obj [] => voidMaps.contains name
  | _ => false

mutual

/-- The value without the empty members that writing leaves out. -/
def pruned : Json → Json
  | .arr items => .arr (prunedItems items)
  | .obj members => .obj (prunedMembers members)
  | other => other

/-- Prunes within each element. -/
def prunedItems : List Json → List Json
  | [] => []
  | item :: rest => item.pruned :: prunedItems rest

/-- Leaves out void members and prunes within the others. -/
def prunedMembers : List (String × Json) → List (String × Json)
  | [] => []
  | (name, value) :: rest =>
      if isVoid name value then prunedMembers rest else (name, value.pruned) :: prunedMembers rest

end

/-- A judgement by which no member is void: all members of a whole document are written. -/
def neverVoid (_ : String) (_ : Json) : Bool := false

theorem neverVoid_eq (name : String) (x : Json) : neverVoid name x = false := rfl

/-- A document pruned below its own members. -/
def prunedRoot : Json → Json
  | .obj members => .obj (members.map fun member => (member.1, member.2.pruned))
  | other => other

theorem prunedItems_eq (items : List Json) : prunedItems items = items.map pruned := by
  induction items with
  | nil => rfl
  | cons item rest ih => rw [prunedItems, ih, List.map_cons]

theorem prunedMembers_of_not_void {members : List (String × Json)}
    (h : ∀ member ∈ members, isVoid member.1 member.2 = false) :
    prunedMembers members = members.map fun member => (member.1, member.2.pruned) := by
  induction members with
  | nil => rfl
  | cons member rest ih =>
      obtain ⟨name, value⟩ := member
      rw [List.forall_mem_cons] at h
      rw [prunedMembers, h.1, ih h.2, List.map_cons]
      rfl

theorem isVoid_of_not_mem {name : String} (h : name ∉ voidLists ++ voidMaps) (v : Json) :
    isVoid name v = false := by
  rw [List.mem_append, not_or] at h
  unfold isVoid
  split <;> simp [h]

theorem isVoid_arr {name : String} (items : List Json) (h : name ∈ voidLists) :
    isVoid name (.arr items) = items.isEmpty := by
  cases items with
  | nil => exact List.contains_iff_mem.mpr h
  | cons item rest => rfl

theorem isVoid_obj {name : String} (members : List (String × Json)) (h : name ∈ voidMaps) :
    isVoid name (.obj members) = members.isEmpty := by
  cases members with
  | nil => exact List.contains_iff_mem.mpr h
  | cons member rest => rfl

/-- What is left of what stands under a name, where some members are void. -/
def kept (void : String → Json → Bool) (name : String) (place : Option Json) : Option Json :=
  (place.filter fun x => !void name x).map pruned

section Kept

variable {void : String → Json → Bool} {name : String} {x : Json}

theorem kept_of_void (h : void name x = true) : kept void name (some x) = none := by
  simp [kept, Option.filter, h]

theorem kept_of_not_void (h : void name x = false) : kept void name (some x) = some x.pruned := by
  simp [kept, Option.filter, h]

end Kept

theorem names_prunedMembers (members : List (String × Json)) :
    ((prunedMembers members).map Prod.fst).Sublist (members.map Prod.fst) := by
  induction members with
  | nil => exact .refl _
  | cons member rest ih =>
      obtain ⟨name, value⟩ := member
      rw [prunedMembers, List.map_cons]
      split
      · exact ih.cons _
      · exact ih.cons_cons _

theorem lookup_prunedMembers {members : List (String × Json)} (h : (members.map Prod.fst).Nodup)
    (name : String) :
    (prunedMembers members).lookup name = kept isVoid name (members.lookup name) := by
  induction members with
  | nil => rfl
  | cons member rest ih =>
      obtain ⟨other, value⟩ := member
      rw [List.map_cons, List.nodup_cons] at h
      rw [prunedMembers]
      by_cases heq : name = other
      · subst heq
        rw [List.lookup_cons_self]
        cases hvoid : isVoid name value with
        | true =>
            -- The name does not occur again, so nothing stands in for the void member.
            have hrest : name ∉ (prunedMembers rest).map Prod.fst := fun hname =>
              h.1 ((names_prunedMembers rest).subset hname)
            rw [kept_of_void hvoid, if_pos rfl, lookup_eq_none_of_not_mem hrest]
        | false => simp [kept_of_not_void hvoid]
      · have hne : (name == other) = false := by simpa using heq
        rw [List.lookup_cons, hne]
        split
        · exact ih h.2
        · rw [List.lookup_cons, hne]
          exact ih h.2

theorem lookup_prunedRoot (members : List (String × Json)) (name : String) :
    (members.map fun member => (member.1, member.2.pruned)).lookup name
      = kept neverVoid name (members.lookup name) := by
  induction members with
  | nil => rfl
  | cons member rest ih =>
      obtain ⟨other, value⟩ := member
      cases heq : name == other with
      | true => simp [List.lookup_cons, heq, kept_of_not_void (neverVoid_eq name value)]
      | false => simp [List.lookup_cons, heq, ih]

/-! ### Well-formed values -/

mutual

/-- Whether each object in a value, at any depth, has members of a kind. -/
def eachObject (p : List (String × Json) → Bool) : Json → Bool
  | .arr items => eachItem p items
  | .obj members => p members && eachMember p members
  | _ => true

/-- Whether each object in any element has members of a kind. -/
def eachItem (p : List (String × Json) → Bool) : List Json → Bool
  | [] => true
  | item :: rest => item.eachObject p && eachItem p rest

/-- Whether each object in any member has members of a kind. -/
def eachMember (p : List (String × Json) → Bool) : List (String × Json) → Bool
  | [] => true
  | (_, value) :: rest => value.eachObject p && eachMember p rest

end

/-- Whether no name occurs twice. -/
def hasDistinctNames (members : List (String × Json)) : Bool := (members.map Prod.fst).Nodup

/-- Whether a number under a name fits the machine integer that the name stands for. A criterion
may be a share as well. -/
def numberFits (name : String) : Json → Bool
  | .num (.int i) =>
      if ["variable", "notVariable"].contains name then i.toNat < UInt64.size
      else if ["permutation", "cutoff", "criterion"].contains name then i.toNat < UInt32.size
      else true
  | .num (.float _) =>
      !(["variable", "notVariable", "permutation", "cutoff"].contains name)
  | _ => true

/-- Whether all numbers fit the machine integers of their names. -/
def numbersFit (members : List (String × Json)) : Bool :=
  members.all fun member => numberFits member.1 member.2

theorem eachItem_iff {p : List (String × Json) → Bool} {items : List Json} :
    eachItem p items = true ↔ ∀ item ∈ items, item.eachObject p = true := by
  induction items with
  | nil => simp [eachItem]
  | cons item rest ih => simp [eachItem, ih]

theorem eachMember_iff {p : List (String × Json) → Bool} {members : List (String × Json)} :
    eachMember p members = true ↔ ∀ member ∈ members, member.2.eachObject p = true := by
  induction members with
  | nil => simp [eachMember]
  | cons member rest ih =>
      obtain ⟨name, value⟩ := member
      rw [eachMember, Bool.and_eq_true, ih, List.forall_mem_cons]

/-- Whether all objects of a value have distinct names and all its numbers fit. -/
structure WellFormed (v : Json) : Prop where
  distinct : v.eachObject hasDistinctNames = true
  numbers : v.eachObject numbersFit = true

namespace WellFormed

theorem of_mem_items {items : List Json} (h : (arr items).WellFormed) {x : Json}
    (hx : x ∈ items) : x.WellFormed :=
  ⟨eachItem_iff.mp h.distinct x hx, eachItem_iff.mp h.numbers x hx⟩

theorem of_mem_members {members : List (String × Json)} (h : (obj members).WellFormed)
    {name : String} {x : Json} (hx : (name, x) ∈ members) : x.WellFormed := by
  have hdistinct := h.distinct
  have hnumbers := h.numbers
  rw [eachObject, Bool.and_eq_true, eachMember_iff] at hdistinct hnumbers
  exact ⟨hdistinct.2 _ hx, hnumbers.2 _ hx⟩

theorem isRecord {members : List (String × Json)} (h : (obj members).WellFormed) :
    (obj members).IsRecord := by
  have hdistinct := h.distinct
  rw [eachObject, Bool.and_eq_true] at hdistinct
  exact ⟨rfl, of_decide_eq_true hdistinct.1⟩

theorem numberFits {members : List (String × Json)} (h : (obj members).WellFormed)
    {name : String} {x : Json} (hx : (name, x) ∈ members) : Json.numberFits name x = true := by
  have hnumbers := h.numbers
  rw [eachObject, Bool.and_eq_true] at hnumbers
  exact List.all_eq_true.mp hnumbers.1 _ hx

end WellFormed

end Paradigm.Json
