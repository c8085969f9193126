/-
Module: Paradigm.Proofs.Schema.Acceptance
Layer: Proofs
Purpose: What it takes for a value to lack nothing by a schema, keyword by keyword. Values are
  sorted before they are looked at; for an object whose members have distinct names this changes
  nothing but their order.
Imports: Paradigm.Schema.Diagnosis
Main exports: Schema.Accepts, Schema.accepts_all_iff, Schema.MemberFits, Schema.MembersFit,
  Json.mem_sortedMembers_iff, Json.lookup_eq_some_iff_mem
-/
import Paradigm.Schema.Diagnosis

namespace Paradigm

namespace Json

/-! ### Sorted members -/

theorem sortedItems_eq (items : List Json) : sortedItems items = items.map sorted := by
  induction items with
  | nil => rfl
  | cons item rest ih => rw [sortedItems, ih, List.map_cons]

/-- Inserting a name that is not there yet adds its member. -/
theorem mem_insertMember_iff {name : String} {value : Json} {members : List (String × Json)}
    {member : String × Json} (h : name ∉ members.map Prod.fst) :
    member ∈ insertMember name value members ↔ member = (name, value) ∨ member ∈ members := by
  induction members with
  | nil => simp [insertMember]
  | cons first rest ih =>
      obtain ⟨other, kept⟩ := first
      rw [List.map_cons, List.mem_cons, not_or] at h
      unfold insertMember
      by_cases hbefore : precedes name.toList other.toList = true
      · rw [if_pos hbefore, List.mem_cons]
      · rw [if_neg hbefore, if_neg h.1, List.mem_cons, ih h.2, List.mem_cons]
        exact or_left_comm

/-- Sorting members with distinct names sorts within each of them. -/
theorem mem_sortedMembers_iff {members : List (String × Json)} {member : String × Json}
    (h : (members.map Prod.fst).Nodup) :
    member ∈ sortedMembers members ↔ ∃ given ∈ members, member = (given.1, given.2.sorted) := by
  induction members generalizing member with
  | nil => simp [sortedMembers]
  | cons first rest ih =>
      obtain ⟨name, value⟩ := first
      rw [List.map_cons, List.nodup_cons] at h
      have hnew : name ∉ (sortedMembers rest).map Prod.fst := by
        intro hname
        obtain ⟨found, hfound, rfl⟩ := List.mem_map.mp hname
        obtain ⟨given, hgiven, heq⟩ := (ih h.2).mp hfound
        refine h.1 (List.mem_map.mpr ⟨given, hgiven, ?_⟩)
        rw [heq]
      rw [sortedMembers, mem_insertMember_iff hnew, ih h.2]
      simp

/-! ### Members by name -/

theorem isSome_lookup_iff {α : Type} {members : List (String × α)} {name : String} :
    (members.lookup name).isSome = true ↔ name ∈ members.map Prod.fst := by
  rw [List.lookup_isSome_iff, List.mem_map]
  exact exists_congr fun _ => and_congr_right fun _ => beq_iff_eq.trans eq_comm

theorem lookup_eq_none_of_not_mem {members : List (String × Json)} {name : String}
    (h : name ∉ members.map Prod.fst) : members.lookup name = none := by
  rw [← isSome_lookup_iff] at h
  exact Option.not_isSome_iff_eq_none.mp h

/-- Among members with distinct names each one is found under its name. -/
theorem lookup_eq_some_iff_mem {members : List (String × Json)}
    (h : (members.map Prod.fst).Nodup) {name : String} {x : Json} :
    members.lookup name = some x ↔ (name, x) ∈ members := by
  induction members with
  | nil => simp
  | cons first rest ih =>
      obtain ⟨other, y⟩ := first
      rw [List.map_cons, List.nodup_cons] at h
      by_cases heq : name = other
      · subst heq
        have hrest : (name, x) ∉ rest := fun hmem => h.1 (List.mem_map.mpr ⟨_, hmem, rfl⟩)
        simp [hrest, eq_comm]
      · have hne : (name == other) = false := by simpa using heq
        simp [List.lookup_cons, hne, ih h.2, heq]

/-! ### Objects with distinct names -/

/-- The members of an object. -/
def members : Json → List (String × Json)
  | .obj members => members
  | _ => []

/-- The names of the members of an object. -/
def names (v : Json) : List String := v.members.map Prod.fst

/-- Whether a value is an object whose members have distinct names. -/
structure IsRecord (v : Json) : Prop where
  object : v = .obj v.members
  distinct : v.names.Nodup

theorem IsRecord.sorted_eq {v : Json} (h : v.IsRecord) :
    v.sorted = .obj (sortedMembers v.members) := by
  rw [h.object]
  rfl

theorem IsRecord.mem_sorted_iff {v : Json} (h : v.IsRecord) {member : String × Json} :
    member ∈ sortedMembers v.members ↔
      ∃ given ∈ v.members, member = (given.1, given.2.sorted) :=
  mem_sortedMembers_iff h.distinct

end Json

namespace Schema

/-! ### Acceptance -/

/-- Whether a value, once sorted, lacks nothing by a schema. -/
def Accepts (schema : Schema) (v : Json) : Prop := schema.diagnose v.sorted = []

/-- Whether a value, once sorted, lacks nothing by a keyword. -/
def Keyword.Accepts (keyword : Keyword) (v : Json) : Prop := diagnoseOne keyword v.sorted = []

theorem Keyword.accepts_iff_diagnoseOne {keyword : Keyword} {v : Json} :
    keyword.Accepts v ↔ diagnoseOne keyword v.sorted = [] := Iff.rfl

/-- A keyword looks at the sorted members of an object. -/
theorem Keyword.accepts_record_iff {keyword : Keyword} {v : Json} (h : v.IsRecord) :
    keyword.Accepts v ↔ diagnoseOne keyword (.obj (Json.sortedMembers v.members)) = [] := by
  rw [accepts_iff_diagnoseOne, h.sorted_eq]

/-- Whether a value, once sorted, fits a schema. -/
def fitsSorted (v : Json) (schema : Schema) : Bool := schema.fits v.sorted

theorem fitsSorted_iff {v : Json} {schema : Schema} :
    fitsSorted v schema = true ↔ schema.Accepts v := by
  unfold fitsSorted fits Accepts
  exact List.isEmpty_iff

theorem diagnoseAll_eq_nil_iff {keywords : List Keyword} {v : Json} :
    diagnoseAll keywords v = [] ↔ ∀ keyword ∈ keywords, diagnoseOne keyword v = [] := by
  induction keywords with
  | nil => simp [diagnoseAll]
  | cons keyword rest ih => simp [diagnoseAll, ih]

/-- A schema accepts what all its keywords accept. -/
theorem accepts_all_iff {keywords : List Keyword} {v : Json} :
    (Schema.all keywords).Accepts v ↔ ∀ keyword ∈ keywords, keyword.Accepts v := by
  unfold Accepts
  rw [diagnose, diagnoseAll_eq_nil_iff]
  rfl

@[simp] theorem accepts_all_nil {v : Json} : (Schema.all []).Accepts v := by
  simp [accepts_all_iff]

@[simp] theorem accepts_all_cons_iff {keyword : Keyword} {rest : List Keyword} {v : Json} :
    (Schema.all (keyword :: rest)).Accepts v ↔ keyword.Accepts v ∧ (Schema.all rest).Accepts v := by
  rw [accepts_all_iff, accepts_all_iff, List.forall_mem_cons]

theorem demand_eq_nil_iff {condition : Bool} {diagnostic : String} :
    demand condition diagnostic = [] ↔ condition = true := by
  cases condition <;> simp [demand]

/-! ### Keywords without schemas -/

theorem Kind.holds_sorted (k : Kind) (v : Json) : k.holds v.sorted = k.holds v := by
  cases k <;> cases v <;> rfl

@[simp] theorem Keyword.accepts_kinds_iff {kinds : List Kind} {v : Json} :
    (Keyword.kinds kinds).Accepts v ↔ ∃ k ∈ kinds, k.holds v = true := by
  rw [accepts_iff_diagnoseOne]
  simp [diagnoseOne, lacking, demand_eq_nil_iff, Kind.holds_sorted]

@[simp] theorem Keyword.accepts_constant_iff {value b : Bool} :
    (Keyword.constant value).Accepts (.bool b) ↔ b = value := by
  rw [accepts_iff_diagnoseOne]
  simp [diagnoseOne, lacking, demand_eq_nil_iff, Json.sorted]

@[simp] theorem Keyword.accepts_exclusiveMinimum_iff {bound : Int} {n : Json.Number} :
    (Keyword.exclusiveMinimum bound).Accepts (.num n) ↔ above bound n = true := by
  rw [accepts_iff_diagnoseOne]
  simp [diagnoseOne, lacking, demand_eq_nil_iff, Json.sorted]

@[simp] theorem Keyword.accepts_maximum_iff {bound : Int} {n : Json.Number} :
    (Keyword.maximum bound).Accepts (.num n) ↔ atMost bound n = true := by
  rw [accepts_iff_diagnoseOne]
  simp [diagnoseOne, lacking, demand_eq_nil_iff, Json.sorted]

@[simp] theorem Keyword.accepts_minimum_iff {bound : Int} {n : Json.Number} :
    (Keyword.minimum bound).Accepts (.num n) ↔ atLeast bound n = true := by
  rw [accepts_iff_diagnoseOne]
  simp [diagnoseOne, lacking, demand_eq_nil_iff, Json.sorted]

@[simp] theorem Keyword.accepts_minItems_iff {count : Nat} {items : List Json} :
    (Keyword.minItems count).Accepts (.arr items) ↔ count ≤ items.length := by
  rw [accepts_iff_diagnoseOne]
  simp [diagnoseOne, lacking, demand_eq_nil_iff, Json.sorted, Json.sortedItems_eq]

@[simp] theorem Keyword.accepts_minLength_iff {count : Nat} {s : String} :
    (Keyword.minLength count).Accepts (.str s) ↔ count ≤ s.length := by
  rw [accepts_iff_diagnoseOne]
  simp [diagnoseOne, lacking, demand_eq_nil_iff, Json.sorted]

/-! ### Keywords for elements -/

theorem diagnoseItems_eq_nil_iff {schema : Schema} {items : List Json} :
    diagnoseItems schema items = [] ↔ ∀ item ∈ items, schema.diagnose item = [] := by
  induction items with
  | nil => simp [diagnoseItems]
  | cons item rest ih => simp [diagnoseItems, ih]

@[simp] theorem Keyword.accepts_items_iff {schema : Schema} {items : List Json} :
    (Keyword.items schema).Accepts (.arr items) ↔ ∀ item ∈ items, schema.Accepts item := by
  rw [accepts_iff_diagnoseOne, Json.sorted, diagnoseOne, diagnoseItems_eq_nil_iff,
    Json.sortedItems_eq]
  simp [Schema.Accepts]

/-! ### Keywords for members -/

theorem diagnoseMembers_eq_nil_iff {schema : Schema} {members : List (String × Json)} :
    diagnoseMembers schema members = [] ↔ ∀ member ∈ members, schema.diagnose member.2 = [] := by
  induction members with
  | nil => simp [diagnoseMembers]
  | cons member rest ih =>
      obtain ⟨name, value⟩ := member
      rw [diagnoseMembers, List.append_eq_nil_iff, ih, List.forall_mem_cons]

theorem diagnoseKnown_eq_nil_iff {known : List (String × Schema)}
    {members : List (String × Json)} :
    diagnoseKnown known members = [] ↔ ∀ member ∈ members, ∀ schema,
      known.lookup member.1 = some schema → schema.diagnose member.2 = [] := by
  induction members with
  | nil => simp [diagnoseKnown]
  | cons member rest ih =>
      obtain ⟨name, value⟩ := member
      rw [diagnoseKnown, List.append_eq_nil_iff, ih, List.forall_mem_cons]
      refine and_congr ?_ Iff.rfl
      cases known.lookup name <;> simp

theorem unexpected_extraNames_eq_nil_iff {known : List (String × Schema)}
    {members : List (String × Json)} :
    unexpected (extraNames known members) = [] ↔
      ∀ member ∈ members, (known.lookup member.1).isSome = true := by
  have hnames : unexpected (extraNames known members) = [] ↔ extraNames known members = [] := by
    unfold unexpected
    by_cases h : (extraNames known members).isEmpty = true
    · simp [List.isEmpty_iff.mp h]
    · rw [if_neg h]
      simpa using h
  rw [hnames]
  unfold extraNames
  simp only [List.filter_eq_nil_iff, List.forall_mem_map, List.lookup_isSome_iff]
  apply forall₂_congr
  intro member _
  simp only [Bool.not_eq_true', Bool.not_eq_false, List.contains_iff_mem, List.mem_map, beq_iff_eq]
  exact exists_congr fun _ => and_congr_right fun _ => eq_comm

/-- Whether a value is accepted under the name of a known member. -/
def MemberFits (known : List (String × Schema)) (name : String) (v : Json) : Prop :=
  ∃ schema, known.lookup name = some schema ∧ schema.Accepts v

/-- Whether members are known, and each one is accepted under its name. -/
def MembersFit (known : List (String × Schema)) (members : List (String × Json)) : Prop :=
  ∀ member ∈ members, MemberFits known member.1 member.2

theorem Keyword.accepts_members_iff {known : List (String × Schema)} {v : Json}
    (h : v.IsRecord) : (Keyword.members known).Accepts v ↔ MembersFit known v.members := by
  rw [accepts_record_iff h, diagnoseOne, List.append_eq_nil_iff, diagnoseKnown_eq_nil_iff,
    unexpected_extraNames_eq_nil_iff]
  simp only [h.mem_sorted_iff]
  constructor
  · intro hboth member hmember
    rcases hboth with ⟨hfits, hknown⟩
    obtain ⟨schema, hschema⟩ := Option.isSome_iff_exists.mp (hknown _ ⟨member, hmember, rfl⟩)
    exact ⟨schema, hschema, hfits _ ⟨member, hmember, rfl⟩ schema hschema⟩
  · intro hall
    constructor
    · intro _ hsorted schema hschema
      rcases hsorted with ⟨member, hmember, rfl⟩
      obtain ⟨found, hfound, haccepts⟩ := hall member hmember
      rw [hfound, Option.some.injEq] at hschema
      subst hschema
      exact haccepts
    · intro _ hsorted
      rcases hsorted with ⟨member, hmember, rfl⟩
      obtain ⟨found, hfound, _⟩ := hall member hmember
      simp [hfound]

theorem Keyword.accepts_eachMember_iff {schema : Schema} {v : Json} (h : v.IsRecord) :
    (Keyword.eachMember schema).Accepts v ↔ ∀ member ∈ v.members, schema.Accepts member.2 := by
  rw [accepts_record_iff h, diagnoseOne, diagnoseMembers_eq_nil_iff]
  simp only [h.mem_sorted_iff]
  constructor
  · intro hall member hmember
    exact hall _ ⟨member, hmember, rfl⟩
  · intro hall _ hsorted
    rcases hsorted with ⟨member, hmember, rfl⟩
    exact hall member hmember

theorem Keyword.accepts_required_iff {names : List String} {v : Json} (h : v.IsRecord) :
    (Keyword.required names).Accepts v ↔ ∀ name ∈ names, name ∈ v.names := by
  rw [accepts_record_iff h, diagnoseOne]
  · simp only [lacking, List.flatMap_eq_nil_iff, demand_eq_nil_iff, List.any_eq_true,
      h.mem_sorted_iff, beq_iff_eq, Json.names, List.mem_map]
    apply forall₂_congr
    intro name _
    constructor
    · intro hpresent
      rcases hpresent with ⟨_, ⟨member, hmember, rfl⟩, rfl⟩
      exact ⟨member, hmember, rfl⟩
    · intro hpresent
      rcases hpresent with ⟨member, hmember, rfl⟩
      exact ⟨_, ⟨member, hmember, rfl⟩, rfl⟩
  all_goals simp

/-! ### Keywords for whole values -/

@[simp] theorem Keyword.accepts_ref_iff {definition : Definition} {v : Json} :
    (Keyword.ref definition).Accepts v ↔ definition.schema.Accepts v := by
  rw [accepts_iff_diagnoseOne, diagnoseOne]
  rfl

@[simp] theorem Keyword.accepts_exclude_iff {schema : Schema} {v : Json} :
    (Keyword.exclude schema).Accepts v ↔ ¬ schema.Accepts v := by
  rw [accepts_iff_diagnoseOne, diagnoseOne, demand_eq_nil_iff]
  simp [Schema.Accepts]

theorem fitting_eq (schemas : List Schema) (v : Json) :
    fitting schemas v = schemas.map fun schema => schema.fits v := by
  induction schemas with
  | nil => simp [fitting]
  | cons schema rest ih => rw [fitting, ih, List.map_cons, fits]

@[simp] theorem Keyword.accepts_anyOf_iff {schemas : List Schema} {v : Json} :
    (Keyword.anyOf schemas).Accepts v ↔ ∃ schema ∈ schemas, schema.Accepts v := by
  rw [accepts_iff_diagnoseOne, diagnoseOne, demand_eq_nil_iff, fitting_eq]
  simp [Schema.Accepts, fits]

/-- Exactly one schema accepts the value. -/
theorem Keyword.accepts_oneOf_iff {schemas : List Schema} {v : Json} :
    (Keyword.oneOf schemas).Accepts v ↔ schemas.countP (fitsSorted v) = 1 := by
  rw [accepts_iff_diagnoseOne, diagnoseOne, fitting_eq, List.count, List.countP_map]
  have hfits : ((· == true) ∘ fun schema : Schema => schema.fits v.sorted) = fitsSorted v := by
    funext schema
    simp [fitsSorted]
  rw [hfits]
  generalize schemas.countP (fitsSorted v) = count
  rcases count with _ | _ | count
  · simp
  · simp
  · simp

end Schema

end Paradigm
