/-
Module: Paradigm.Proofs.Schema.Values
Layer: Proofs
Purpose: Which values of a document the runner schema accepts: samples, texts, resources, labels,
  guards, banks and criteria. The members of an encoded object have distinct names, so each of them
  can be looked at by itself.
Imports: Paradigm.Document.Encoding, Paradigm.Proofs.Document.Contents,
  Paradigm.Proofs.Schema.Acceptance
Main exports: Document.Sample.Exclusive, Document.Text.accepts_iff,
  Document.PageText.accepts_iff, Document.ResourceEntry.accepts_iff, Document.Guard.accepts_iff,
  accepts_banksToJson_iff, Criterion.accepts_of_inRange
-/
import Paradigm.Document.Encoding
import Paradigm.Proofs.Document.Contents
import Paradigm.Proofs.Schema.Acceptance

namespace Paradigm

open Schema

namespace Schema

/-! ### Common schemas -/

@[simp] theorem accepts_kind_iff {k : Kind} {v : Json} : (kind k).Accepts v ↔ k.holds v = true := by
  simp [kind, accepts_all_iff, Keyword.accepts_kinds_iff]

@[simp] theorem accepts_refTo_iff {d : Definition} {v : Json} :
    (refTo d).Accepts v ↔ d.schema.Accepts v := by
  simp [refTo, accepts_all_iff, Keyword.accepts_ref_iff]

@[simp] theorem accepts_listOf_iff {d : Definition} {items : List Json} :
    (listOf d).Accepts (.arr items) ↔ ∀ item ∈ items, d.schema.Accepts item := by
  simp [listOf, accepts_all_iff, Keyword.accepts_items_iff, Keyword.accepts_kinds_iff, Kind.holds]

theorem accepts_has_iff {names : List String} {v : Json} (h : v.IsRecord) :
    (has names).Accepts v ↔ ∀ name ∈ names, name ∈ v.names := by
  simp only [has, accepts_all_iff, List.forall_mem_singleton, Keyword.accepts_required_iff h]

theorem Keyword.accepts_object {v : Json} (h : v.IsRecord) :
    (Keyword.kinds [.object]).Accepts v := by
  rw [Keyword.accepts_kinds_iff, h.object]
  exact ⟨.object, by simp, rfl⟩

theorem accepts_closedObject_iff {required : List String} {known : List (String × Schema)}
    {v : Json} (h : v.IsRecord) : (closedObject required known).Accepts v ↔
      MembersFit known v.members ∧ ∀ name ∈ required, name ∈ v.names := by
  simp only [closedObject, accepts_all_iff, List.forall_mem_cons, Keyword.accepts_members_iff h,
    Keyword.accepts_required_iff h]
  simp [Keyword.accepts_object h]

@[simp] theorem accepts_integerFrom_nat_iff {bound : Int} {n : Nat} :
    (integerFrom bound).Accepts (.nat n) ↔ bound ≤ n := by
  simp [integerFrom, accepts_all_iff, Json.nat, Keyword.accepts_minimum_iff,
    Keyword.accepts_kinds_iff, Kind.holds, atLeast]

theorem accepts_positive_iff {n : UInt32} :
    (integerFrom 1).Accepts (.nat n.toNat) ↔ n ≠ 0 := by
  have hzero : n.toNat = 0 ↔ n = 0 := UInt32.toNat_inj (b := 0)
  rw [accepts_integerFrom_nat_iff, ne_eq, ← hzero]
  omega

/-- A value is of a kind that its schema demands. -/
theorem holds_of_accepts {keywords : List Keyword} {kinds : List Kind} {v : Json}
    (h : (Schema.all keywords).Accepts v) (hkinds : Keyword.kinds kinds ∈ keywords) :
    ∃ k ∈ kinds, k.holds v = true :=
  Keyword.accepts_kinds_iff.mp (accepts_all_iff.mp h _ hkinds)

@[simp] theorem Keyword.accepts_oneOf_pair_iff {s t : Schema} {v : Json} :
    (Keyword.oneOf [s, t]).Accepts v ↔
      (s.Accepts v ∧ ¬ t.Accepts v) ∨ (¬ s.Accepts v ∧ t.Accepts v) := by
  rw [Keyword.accepts_oneOf_iff, ← fitsSorted_iff, ← fitsSorted_iff]
  cases hs : fitsSorted v s <;> cases ht : fitsSorted v t <;> simp [hs, ht]

/-! ### Members by name -/

@[simp] theorem memberFits_nil {name : String} {v : Json} : MemberFits [] name v ↔ False := by
  simp [MemberFits]

@[simp] theorem memberFits_cons_self {name : String} {schema : Schema}
    {rest : List (String × Schema)} {v : Json} :
    MemberFits ((name, schema) :: rest) name v ↔ schema.Accepts v := by
  simp [MemberFits]

@[simp] theorem memberFits_cons_of_ne {name other : String} {schema : Schema}
    {rest : List (String × Schema)} {v : Json} (h : name ≠ other) :
    MemberFits ((other, schema) :: rest) name v ↔ MemberFits rest name v := by
  have hne : (name == other) = false := by simpa using h
  simp [MemberFits, List.lookup_cons, hne]

variable {known : List (String × Schema)}

@[simp] theorem membersFit_append {ms ns : Members} :
    MembersFit known (ms ++ ns) ↔ MembersFit known ms ∧ MembersFit known ns := by
  unfold MembersFit
  exact List.forall_mem_append

@[simp] theorem membersFit_nil : MembersFit known [] := by
  simp [MembersFit]

@[simp] theorem membersFit_cons {name : String} {v : Json} {rest : Members} :
    MembersFit known ((name, v) :: rest) ↔ MemberFits known name v ∧ MembersFit known rest := by
  unfold MembersFit
  exact List.forall_mem_cons

@[simp] theorem membersFit_one {name : String} {v : Json} :
    MembersFit known (Members.one name v) ↔ MemberFits known name v := by
  simp [MembersFit, Members.one, MemberFits]

@[simp] theorem membersFit_some? {α : Type} {name : String} {encode : α → Json} {value : Option α} :
    MembersFit known (Members.some? name encode value) ↔
      ∀ x, value = some x → MemberFits known name (encode x) := by
  cases value <;> simp [MembersFit, Members.some?, MemberFits]

@[simp] theorem membersFit_list? {α : Type} {name : String} {encode : α → Json} {xs : List α} :
    MembersFit known (Members.list? name encode xs) ↔
      (xs ≠ [] → MemberFits known name (.arr (xs.map encode))) := by
  cases xs <;> simp [MembersFit, Members.list?, MemberFits]

@[simp] theorem membersFit_assoc? {α : Type} {name : String} {encode : Assoc α → Json}
    {m : Assoc α} : MembersFit known (Members.assoc? name encode m) ↔
      (m.isEmpty = false → MemberFits known name (encode m)) := by
  unfold Members.assoc?
  cases hm : m.isEmpty <;> simp [MembersFit, MemberFits]

end Schema

/-! ### Names of members -/

theorem Members.names_one {name : String} {v : Json} :
    ((Members.one name v).map Prod.fst).Sublist [name] :=
  .refl _

theorem Members.names_some? {α : Type} {name : String} {encode : α → Json} {value : Option α} :
    ((Members.some? name encode value).map Prod.fst).Sublist [name] := by
  cases value with
  | none => exact List.nil_sublist _
  | some x => exact .refl _

theorem Members.names_list? {α : Type} {name : String} {encode : α → Json} {xs : List α} :
    ((Members.list? name encode xs).map Prod.fst).Sublist [name] := by
  cases xs with
  | nil => exact List.nil_sublist _
  | cons x rest => exact .refl _

theorem Members.names_assoc? {α : Type} {name : String} {encode : Assoc α → Json} {m : Assoc α} :
    ((Members.assoc? name encode m).map Prod.fst).Sublist [name] := by
  unfold Members.assoc?
  cases m.isEmpty with
  | true => exact List.nil_sublist _
  | false => exact .refl _

theorem Members.mem_names_some?_iff {α : Type} {name other : String} {encode : α → Json}
    {value : Option α} : other ∈ (Members.some? name encode value).map Prod.fst ↔
      other = name ∧ value.isSome = true := by
  cases value <;> simp [Members.some?]

theorem Members.mem_names_list?_iff {α : Type} {name other : String} {encode : α → Json}
    {xs : List α} : other ∈ (Members.list? name encode xs).map Prod.fst ↔
      other = name ∧ xs ≠ [] := by
  cases xs <;> simp [Members.list?]

theorem Members.mem_names_assoc?_iff {α : Type} {name other : String} {encode : Assoc α → Json}
    {m : Assoc α} : other ∈ (Members.assoc? name encode m).map Prod.fst ↔
      other = name ∧ m.isEmpty = false := by
  unfold Members.assoc?
  cases m.isEmpty <;> simp

namespace Document

/-! ### Samples -/

/-- A sample has a slot to hold, or one to avoid, or is drawn with replacement, or none of these. -/
structure Sample.Exclusive (s : Sample) : Prop where
  avoids : s.slot.isSome = true → s.avoids = none
  held : s.slot.isSome = true → s.replacing = false
  avoided : s.avoids.isSome = true → s.replacing = false

theorem Sample.names_sublist (s : Sample) : s.toJson.names.Sublist
    ["sampleFrom", "variable", "notVariable", "field", "withReplacement"] := by
  have hreplacing : ((if s.replacing then [("withReplacement", Json.bool true)] else []).map
      Prod.fst).Sublist ["withReplacement"] := by
    cases s.replacing with
    | true => exact .refl _
    | false => exact List.nil_sublist _
  simp only [Sample.toJson, Json.names, Json.members, List.map_append]
  exact (((Members.names_one.append Members.names_some?).append Members.names_some?).append
    Members.names_some?).append hreplacing

theorem Sample.isRecord_toJson (s : Sample) : s.toJson.IsRecord :=
  ⟨rfl, s.names_sublist.nodup (by decide)⟩

theorem Sample.mem_names_iff (s : Sample) :
    ("variable" ∈ s.toJson.names ↔ s.slot.isSome) ∧
      ("notVariable" ∈ s.toJson.names ↔ s.avoids.isSome) ∧
      ("withReplacement" ∈ s.toJson.names ↔ s.replacing) ∧ "sampleFrom" ∈ s.toJson.names := by
  simp only [Sample.toJson, Json.names, Json.members, List.map_append, List.mem_append,
    Members.mem_names_some?_iff]
  cases s.replacing <;> simp [Members.one]

/-- A sample is accepted where it does not ask for several things at once. -/
theorem Sample.accepts_iff (s : Sample) :
    Definition.sample.schema.Accepts s.toJson ↔ s.Exclusive := by
  obtain ⟨hslot, havoids, hreplacing, hbank⟩ := s.mem_names_iff
  have hrecord := s.isRecord_toJson
  have hmembers : MembersFit [("field", kind .string), ("notVariable", integerFrom 0),
      ("sampleFrom", kind .string), ("variable", integerFrom 0),
      ("withReplacement", .all [.constant true])] s.toJson.members := by
    simp only [Sample.toJson, Json.members]
    cases s.replacing <;> simp [Kind.holds]
  have haccepts : Definition.sample.schema.Accepts s.toJson ↔
      (s.slot.isSome = true → s.avoids = none) ∧ (s.slot.isSome = true → s.replacing = false) ∧
        (s.avoids.isSome = true → s.replacing = false) := by
    simp [Definition.schema, Keyword.accepts_members_iff hrecord, hmembers,
      Keyword.accepts_required_iff hrecord, Keyword.accepts_object hrecord, accepts_has_iff hrecord,
      hslot, havoids, hreplacing, hbank]
  rw [haccepts]
  constructor
  · intro haccepted
    rcases haccepted with ⟨havoids, hheld, havoided⟩
    exact ⟨havoids, hheld, havoided⟩
  · intro h
    exact ⟨h.avoids, h.held, h.avoided⟩

/-- A sample is an object. -/
theorem accepts_sample_object {v : Json} (h : Definition.sample.schema.Accepts v) :
    Kind.object.holds v = true := by
  rw [Definition.schema] at h
  simp at h
  exact h.2.2.2

/-- An object with other members than a sample has is none. -/
theorem not_accepts_sample {v : Json} (hrecord : v.IsRecord) (h : "sampleFrom" ∉ v.names) :
    ¬ Definition.sample.schema.Accepts v := by
  rw [Definition.schema]
  simp [Keyword.accepts_required_iff hrecord, h]

/-! ### Texts -/

theorem Text.accepts_iff (t : Text) :
    Definition.text.schema.Accepts t.toJson ↔ ∀ s ∈ t.samples, s.Exclusive := by
  cases t with
  | literal value =>
      have hsample : ¬ Definition.sample.schema.Accepts (.str value) := by
        intro h
        simpa [Kind.holds] using accepts_sample_object h
      rw [Definition.schema]
      simp [Text.toJson, Kind.holds, hsample, Text.samples]
  | sample s =>
      have hkind : Kind.string.holds s.toJson = false := rfl
      rw [Definition.schema]
      simp [Text.toJson, hkind, Text.samples, Sample.accepts_iff]

/-- A text is a string or an object. -/
theorem accepts_text_kind {v : Json} (h : Definition.text.schema.Accepts v) :
    Kind.string.holds v = true ∨ Kind.object.holds v = true := by
  rw [Definition.schema] at h
  simp at h
  rcases h with ⟨h, _⟩ | ⟨_, h⟩
  · exact .inl h
  · exact .inr (accepts_sample_object h)

theorem PageText.accepts_iff (t : PageText) :
    Definition.pageText.schema.Accepts t.toJson ↔ ∀ s ∈ t.samples, s.Exclusive := by
  cases t with
  | single one =>
      have hlist : ¬ (listOf .text).Accepts one.toJson := by
        cases one <;> simp [listOf, Text.toJson, Sample.toJson, Kind.holds]
      rw [Definition.schema]
      simp [PageText.toJson, hlist, PageText.samples, Text.accepts_iff]
  | lines several =>
      have htext : ¬ Definition.text.schema.Accepts (.arr (several.map Text.toJson)) := by
        intro h
        simpa [Kind.holds] using accepts_text_kind h
      rw [Definition.schema]
      simp only [PageText.toJson, accepts_all_cons_iff, accepts_all_nil, and_true,
        Keyword.accepts_oneOf_pair_iff, accepts_refTo_iff, accepts_listOf_iff, htext, false_and,
        not_false_eq_true, true_and, false_or, List.forall_mem_map, Text.accepts_iff,
        PageText.samples]
      exact List.forall_mem_flatMap.symm

/-! ### Resources -/

theorem Resource.isRecord_toJson (r : Resource) : r.toJson.IsRecord :=
  ⟨rfl, by simp [Resource.toJson, Json.names, Json.members]⟩

theorem ResourceEntry.accepts_iff (r : ResourceEntry) :
    Definition.resource.schema.Accepts r.toJson ↔ ∀ s ∈ r.samples, s.Exclusive := by
  cases r with
  | sample s =>
      have hsource : "source" ∉ s.toJson.names := by
        intro hname
        exact absurd (s.names_sublist.subset hname) (by decide)
      rw [Definition.schema]
      simp [ResourceEntry.toJson, accepts_closedObject_iff s.isRecord_toJson, hsource,
        ResourceEntry.samples, Sample.accepts_iff]
  | record r =>
      have hsample : ¬ Definition.sample.schema.Accepts r.toJson :=
        not_accepts_sample r.isRecord_toJson (by simp [Resource.toJson, Json.names, Json.members])
      rw [Definition.schema]
      simp only [ResourceEntry.toJson, accepts_all_cons_iff, accepts_all_nil, and_true,
        Keyword.accepts_oneOf_pair_iff, accepts_refTo_iff, hsample, false_and, not_false_eq_true,
        true_and, false_or, accepts_closedObject_iff r.isRecord_toJson, ResourceEntry.samples,
        ← Text.accepts_iff]
      cases hmedia : r.mediaType <;>
        simp [Resource.toJson, Json.names, Json.members, hmedia, Kind.holds]

theorem accepts_resources_iff {resources : List ResourceEntry} :
    Definition.resources.schema.Accepts (.arr (resources.map ResourceEntry.toJson)) ↔
      ∀ r ∈ resources, ∀ s ∈ r.samples, s.Exclusive := by
  apply accepts_listOf_iff.trans
  simp only [List.forall_mem_map, ResourceEntry.accepts_iff]

/-! ### Guards -/

/-- What the schema asks of a guard: identifiers that are not empty, and a page or a value of the
permutation, the latter by itself. -/
structure Guard.Fits (g : Guard) : Prop where
  page : ∀ page, g.page = some page → page ≠ ""
  choice : ∀ choice, g.choice = some choice → choice ≠ ""
  target : (g.page.isSome = true ∧ g.permutation = none) ∨
    (g.permutation.isSome = true ∧ g.page = none ∧ g.choice = none ∧ g.regex = none)

theorem Guard.names_sublist (g : Guard) :
    g.toJson.names.Sublist ["pageID", "optionID", "regex", "permutation"] := by
  simp only [Guard.toJson, Json.names, Json.members, List.map_append]
  exact ((Members.names_some?.append Members.names_some?).append Members.names_some?).append
    Members.names_some?

theorem Guard.mem_names_iff (g : Guard) :
    ("pageID" ∈ g.toJson.names ↔ g.page.isSome) ∧ ("optionID" ∈ g.toJson.names ↔ g.choice.isSome) ∧
      ("regex" ∈ g.toJson.names ↔ g.regex.isSome) ∧
      ("permutation" ∈ g.toJson.names ↔ g.permutation.isSome) := by
  simp [Guard.toJson, Json.names, Json.members, Members.mem_names_some?_iff]

/-- An identifier is accepted where it is not empty. -/
theorem accepts_id_iff {s : String} : Definition.id.schema.Accepts (.str s) ↔ s ≠ "" := by
  rw [Definition.schema]
  simp [Kind.holds, String.length_eq_zero_iff, Nat.one_le_iff_ne_zero]

/-- A guard is accepted where it is as the schema asks. -/
theorem Guard.accepts_iff (g : Guard) : Definition.runIf.schema.Accepts g.toJson ↔ g.Fits := by
  obtain ⟨hpage, hchoice, hregex, hpermutation⟩ := g.mem_names_iff
  have hrecord : g.toJson.IsRecord := ⟨rfl, g.names_sublist.nodup (by decide)⟩
  have hmembers : MembersFit [("optionID", refTo .id), ("pageID", refTo .id),
      ("permutation", integerFrom 0), ("regex", kind .string)] g.toJson.members ↔
      (∀ page, g.page = some page → page ≠ "") ∧
        ∀ choice, g.choice = some choice → choice ≠ "" := by
    simp [Guard.toJson, Json.members, accepts_id_iff, Kind.holds]
  have haccepts : Definition.runIf.schema.Accepts g.toJson ↔
      ((∀ page, g.page = some page → page ≠ "") ∧
        ∀ choice, g.choice = some choice → choice ≠ "") ∧
      ((g.page.isSome = true ∧ g.permutation = none) ∨
        (g.permutation.isSome = true ∧ g.page = none ∧ g.choice = none ∧ g.regex = none)) := by
    rw [Definition.schema]
    simp only [accepts_all_cons_iff, Keyword.accepts_members_iff hrecord, hmembers,
      Keyword.accepts_object hrecord]
    apply and_congr Iff.rfl
    cases hp : g.page <;> cases hq : g.permutation <;>
      simp [accepts_has_iff hrecord, Keyword.accepts_required_iff hrecord, hpage, hchoice, hregex,
        hpermutation, hp, hq]
  rw [haccepts]
  constructor
  · intro haccepted
    rcases haccepted with ⟨⟨hpages, hchoices⟩, htarget⟩
    exact ⟨hpages, hchoices, htarget⟩
  · intro h
    exact ⟨⟨h.page, h.choice⟩, h.target⟩

end Document

/-! ### Labels and answers -/

theorem Assoc.isRecord_toJson {α : Type} (m : Assoc α) (encode : α → Json) :
    (m.toJson encode).IsRecord := by
  refine ⟨rfl, ?_⟩
  have hnames : (m.toJson encode).names = m.keys := by
    simp [Assoc.toJson, Json.names, Json.members, Assoc.keys]
  rw [hnames]
  exact m.nodup_keys

theorem Schema.Keyword.accepts_eachMember_toJson_iff {α : Type} {schema : Schema} {m : Assoc α}
    {encode : α → Json} : (Keyword.eachMember schema).Accepts (m.toJson encode) ↔
      ∀ entry ∈ m.entries, schema.Accepts (encode entry.2) := by
  rw [Keyword.accepts_eachMember_iff (m.isRecord_toJson encode)]
  simp only [Assoc.toJson, Json.members, List.forall_mem_map]

theorem accepts_tagsToJson (tags : Tags) : Definition.tags.schema.Accepts (tagsToJson tags) := by
  rw [Definition.schema]
  simp [tagsToJson, Keyword.accepts_object (tags.isRecord_toJson _),
    Keyword.accepts_eachMember_toJson_iff, Kind.holds]

theorem AnswerKey.accepts_toJson (key : AnswerKey) :
    Definition.correct.schema.Accepts key.toJson := by
  rw [Definition.schema]
  cases key <;> simp [AnswerKey.toJson, Kind.holds]

theorem Keyboard.accepts_toJson (keyboard : Keyboard) :
    (Schema.all [.oneOf [kind .boolean,
      .all [.items (kind .string), .kinds [.array]]]]).Accepts keyboard.toJson := by
  cases keyboard <;> simp [Keyboard.toJson, Json.strings, Kind.holds]

/-! ### Banks -/

/-- The values of a bank are texts or objects of texts. -/
theorem accepts_bank_items (bank : Bank) : (Keyword.items (.all [.oneOf [kind .string,
    .all [.eachMember (kind .string), .kinds [.object]]]])).Accepts
      (.arr (bank.map BankEntry.toJson)) := by
  rw [Keyword.accepts_items_iff, List.forall_mem_map]
  intro entry _
  cases entry with
  | text value => simp [BankEntry.toJson, Kind.holds]
  | record fields =>
      have hkind : Kind.string.holds (fields.toJson .str) = false := rfl
      simp only [BankEntry.toJson, accepts_all_cons_iff, accepts_all_nil, and_true,
        Keyword.accepts_oneOf_pair_iff, accepts_kind_iff, hkind,
        Keyword.accepts_object (fields.isRecord_toJson _), Keyword.accepts_eachMember_toJson_iff]
      simp [Kind.holds]

/-- Banks are accepted where none of them is empty. -/
theorem accepts_banksToJson_iff (banks : Banks) :
    Definition.banks.schema.Accepts (banksToJson banks) ↔
      ∀ declared ∈ banks.entries, declared.2 ≠ [] := by
  rw [Definition.schema]
  simp only [banksToJson, accepts_all_cons_iff, accepts_all_nil, and_true,
    Keyword.accepts_object (banks.isRecord_toJson _), Keyword.accepts_eachMember_toJson_iff,
    accepts_bank_items, true_and]
  apply forall₂_congr
  intro declared _
  simp [Kind.holds, Nat.one_le_iff_ne_zero, List.length_eq_zero_iff]

/-! ### Criteria -/

/-- Whether a criterion is a streak of at least one, or a share above zero and at most one. -/
def Criterion.InRange : Criterion → Prop
  | .streak length => length ≠ 0
  | .proportion share => share.gtInt 0 = true ∧ share.leInt 1 = true

/-- A share above zero and at most one is finite. -/
theorem Binary64.isFinite_of_inRange {x : Binary64} (h : x.gtInt 0 = true)
    (h' : x.leInt 1 = true) : x.isFinite = true := by
  unfold gtInt at h
  unfold leInt at h'
  by_cases hnan : x.isNaN = true
  · simp [hnan] at h
  · by_cases hfinite : x.isFinite = true
    · exact hfinite
    · simp only [hnan, hfinite, Bool.false_eq_true, if_false] at h h'
      simp [h'] at h

/-- A whole share above zero is at least one. -/
theorem Binary64.geInt_one_of_isWhole {x : Binary64} (h : x.gtInt 0 = true)
    (hwhole : x.isWhole = true) : x.geInt 1 = true := by
  simp only [isWhole, Bool.and_eq_true, beq_iff_eq] at hwhole
  obtain ⟨hfinite, hmod⟩ := hwhole
  have hnan : x.isNaN = false := by
    unfold isFinite at hfinite
    unfold isNaN
    simp at hfinite
    simp [hfinite]
  unfold gtInt at h
  unfold geInt
  simp only [hnan, hfinite, Bool.false_eq_true, if_false, if_true, decide_eq_true_eq] at h ⊢
  unfold signedUnits at h ⊢
  cases hnegative : x.negative with
  | true =>
      simp only [hnegative, if_true] at h
      omega
  | false =>
      simp only [hnegative, Bool.false_eq_true, if_false] at h ⊢
      have hpos : 0 < x.units := by omega
      have hle : unitsPerOne ≤ x.units := Nat.le_of_dvd hpos (Nat.dvd_of_mod_eq_zero hmod)
      omega

/-- A criterion in range is accepted: a share of exactly one counts as an integer. -/
theorem Criterion.accepts_of_inRange {c : Criterion} (h : c.InRange) :
    (Keyword.oneOf [integerFrom 1, .all [.exclusiveMinimum 0, .maximum 1,
      .exclude (kind .integer), .kinds [.number]]]).Accepts c.toJson := by
  cases c with
  | streak length =>
      have hfrom : (integerFrom 1).Accepts (Criterion.streak length).toJson :=
        accepts_positive_iff.mpr h
      have hinteger : Kind.integer.holds (Criterion.streak length).toJson = true := rfl
      simp [hfrom, hinteger]
  | proportion share =>
      obtain ⟨hgt, hle⟩ := h
      have hfinite := Binary64.isFinite_of_inRange hgt hle
      cases hwhole : share.isWhole with
      | true =>
          have hone := Binary64.geInt_one_of_isWhole hgt hwhole
          simp [Criterion.toJson, hfinite, hwhole, hone, integerFrom, Kind.holds, atLeast]
      | false =>
          simp [Criterion.toJson, hfinite, hwhole, hgt, hle, integerFrom, Kind.holds, above, atMost]

end Paradigm
