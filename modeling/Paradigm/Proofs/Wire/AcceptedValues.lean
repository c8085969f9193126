/-
Module: Paradigm.Proofs.Wire.AcceptedValues
Layer: Proofs
Purpose: Values that the runner schema accepts are values of a document. For each definition of the
  schema below the nodes, an accepted value is of exactly one shape, and that is the shape that
  reading finds.
Imports: Paradigm.Proofs.Wire.Keeping, Paradigm.Proofs.Wire.Values
Main exports: Document.Sample.exists_keeps, Document.Text.exists_keeps,
  Document.PageText.exists_keeps, Document.ResourceEntry.exists_keeps,
  Document.Guard.exists_keeps, Criterion.exists_keeps, exists_banks
-/
import Paradigm.Proofs.Wire.Keeping
import Paradigm.Proofs.Wire.Values

namespace Paradigm

open Wire Schema
open Json (Draft isVoid)

variable {α : Type}

/-! ### Common schemas -/

theorem Wire.Codec.Keeps.refTo {c : Codec α} {d : Definition} {x : Json} {a : α}
    (h : c.Keeps d.schema x a) : c.Keeps (refTo d) x a :=
  ⟨h.read, h.written, accepts_refTo_iff.mpr h.accepted⟩

theorem Wire.Codec.exists_refTo {c : Codec α} {d : Definition} {x : Json}
    (h : (refTo d).Accepts x) (hvalue : d.schema.Accepts x → ∃ a, c.Keeps d.schema x a) :
    ∃ a, c.Keeps (refTo d) x a := by
  obtain ⟨a, ha⟩ := hvalue (accepts_refTo_iff.mp h)
  exact ⟨a, ha.refTo⟩

/-- What a schema of arrays accepts is an array. -/
theorem exists_items {keywords : List Keyword} {x : Json} (h : (Schema.all keywords).Accepts x)
    (hkind : Keyword.kinds [.array] ∈ keywords) : ∃ items, x = .arr items := by
  obtain ⟨k, hk, hholds⟩ := holds_of_accepts h hkind
  rw [List.mem_singleton] at hk
  subst hk
  cases x with
  | arr items => exact ⟨items, rfl⟩
  | _ => simp [Kind.holds] at hholds

/-- What a schema of objects accepts is an object. -/
theorem exists_members {keywords : List Keyword} {x : Json} (h : (Schema.all keywords).Accepts x)
    (hkind : Keyword.kinds [.object] ∈ keywords) : ∃ members, x = .obj members := by
  obtain ⟨k, hk, hholds⟩ := holds_of_accepts h hkind
  rw [List.mem_singleton] at hk
  subst hk
  cases x with
  | obj members => exact ⟨members, rfl⟩
  | _ => simp [Kind.holds] at hholds

/-- An object of known members has no other ones. -/
theorem name_not_mem_of_closedObject {required : List String} {known : List (String × Schema)}
    {members : Members} {name : String} (hx : (Json.obj members).WellFormed)
    (h : (closedObject required known).Accepts (.obj members)) (hname : name ∉ known.map Prod.fst) :
    name ∉ members.map Prod.fst := by
  intro hmem
  obtain ⟨hfit, -⟩ := Fitting.of_closedObject hx h
  exact hname (hfit.mem_known hmem)

/-- A list of what a definition stands for is kept where its elements are. -/
theorem Wire.Codec.exists_listOf {c : Codec α} {d : Definition} {x : Json} (hx : x.WellFormed)
    (h : (listOf d).Accepts x)
    (hvalue : ∀ items, x = .arr items → ∀ item ∈ items, item.WellFormed → d.schema.Accepts item →
      ∃ a, c.Keeps d.schema item a) :
    ∃ xs, c.list.Keeps (listOf d) x xs ∧
      ∀ name ∈ Json.voidLists, xs.isEmpty = isVoid name x := by
  obtain ⟨items, rfl⟩ := exists_items h (by simp)
  rw [accepts_listOf_iff] at h
  have haccepts : ∀ ys : List Json, ys.length = items.length →
      (∀ y ∈ ys, d.schema.Accepts y) → (listOf d).Accepts (.arr ys) := fun _ _ hall =>
    accepts_listOf_iff.mpr hall
  obtain ⟨xs, hxs, hempty⟩ := Codec.exists_list (fun item hitem =>
    hvalue items rfl item hitem (hx.of_mem_items hitem) (h item hitem)) haccepts
  refine ⟨xs, hxs, ?_⟩
  intro name hname
  rw [hempty, Json.isVoid_arr items hname]

/-- Lists of accepted elements, of which there is at least one. -/
def Schema.someOf (each : Schema) : Schema := .all [.items each, .minItems 1, .kinds [.array]]

/-- A list with at least one element is kept where its elements are. -/
theorem Wire.Codec.exists_someOf {c : Codec α} {each : Schema} {x : Json} (hx : x.WellFormed)
    (h : (someOf each).Accepts x)
    (hvalue : ∀ item, item.WellFormed → each.Accepts item → ∃ a, c.Keeps each item a) :
    ∃ xs, c.list.Keeps (someOf each) x xs := by
  obtain ⟨items, rfl⟩ := exists_items h (by simp)
  simp only [someOf, accepts_all_cons_iff, Keyword.accepts_items_iff,
    Keyword.accepts_minItems_iff] at h
  obtain ⟨hitems, hcount, -⟩ := h
  have haccepts : ∀ ys : List Json, ys.length = items.length → (∀ y ∈ ys, each.Accepts y) →
      (someOf each).Accepts (.arr ys) := by
    intro ys hlength hall
    simp only [someOf, accepts_all_cons_iff, accepts_all_nil, Keyword.accepts_items_iff,
      Keyword.accepts_minItems_iff, Keyword.accepts_kinds_iff, hlength]
    exact ⟨hall, hcount, ⟨.array, by simp, rfl⟩, trivial⟩
  obtain ⟨xs, hxs, -⟩ := Codec.exists_list (fun item hitem =>
    hvalue item (hx.of_mem_items hitem) (hitems item hitem)) haccepts
  exact ⟨xs, hxs⟩

/-- Maps to accepted values. -/
def Schema.mapOf (each : Schema) : Schema := .all [.eachMember each, .kinds [.object]]

/-- A map is kept where its values are, none of them void. -/
theorem Wire.Codec.exists_mapOf {c : Codec α} {each : Schema} {x : Json} (hx : x.WellFormed)
    (h : (mapOf each).Accepts x)
    (hvalue : ∀ name y, y.WellFormed → each.Accepts y →
      isVoid name y = false ∧ ∃ a, c.Keeps each y a) :
    ∃ m, c.map.Keeps (mapOf each) x m ∧ ∀ name ∈ Json.voidMaps, m.isEmpty = isVoid name x := by
  obtain ⟨members, rfl⟩ := exists_members h (by simp)
  simp only [mapOf, accepts_all_cons_iff, Keyword.accepts_eachMember_iff hx.isRecord] at h
  have haccepts : ∀ m : Assoc α, (∀ entry ∈ m.entries, each.Accepts (c.write entry.2)) →
      (mapOf each).Accepts (c.map.write m) := by
    intro m hall
    simp only [mapOf, accepts_all_cons_iff, accepts_all_nil, and_true]
    exact ⟨Keyword.accepts_eachMember_toJson_iff.mpr hall,
      Keyword.accepts_object (m.isRecord_toJson _)⟩
  obtain ⟨m, hm, hempty⟩ := Codec.exists_map hx.isRecord.distinct (fun member hmember =>
    hvalue member.1 member.2 (hx.of_mem_members hmember) (h.1 member hmember)) haccepts
  refine ⟨m, hm, ?_⟩
  intro name hname
  exact hempty.trans (Json.isVoid_obj members hname).symm

/-! ### Identifiers, labels and numbers -/

/-- An identifier is a text. -/
theorem exists_id {x : Json} (h : Definition.id.schema.Accepts x) :
    ∃ s, Codec.text.Keeps Definition.id.schema x s := by
  have hkind : ∃ k ∈ [Kind.string], k.holds x = true := holds_of_accepts h (by simp)
  exact Codec.exists_text (by simpa using hkind) h

theorem exists_ids {name : String} {x : Json} (hname : name ∈ Json.voidLists) (hx : x.WellFormed)
    (h : (refTo .idList).Accepts x) :
    ∃ xs, Codec.text.list.Keeps (refTo .idList) x xs ∧ xs.isEmpty = isVoid name x := by
  obtain ⟨xs, hxs, hempty⟩ := Codec.exists_listOf (d := .id) hx (accepts_refTo_iff.mp h)
    fun _ _ _ _ _ hid => exists_id hid
  exact ⟨xs, hxs.refTo, hempty name hname⟩

/-- A truth value is kept. -/
theorem exists_flag {x : Json} (h : (kind .boolean).Accepts x) :
    ∃ b, Codec.flag.Keeps (kind .boolean) x b :=
  Codec.exists_flag (accepts_kind_iff.mp h) h

/-- A map to texts is kept. -/
theorem exists_texts {x : Json} (hx : x.WellFormed) (h : (mapOf (kind .string)).Accepts x) :
    ∃ m, Codec.text.map.Keeps (mapOf (kind .string)) x m ∧
      ∀ name ∈ Json.voidMaps, m.isEmpty = isVoid name x := by
  apply Codec.exists_mapOf hx h
  intro name y _ hy
  obtain ⟨s, hs⟩ := Codec.exists_text (accepts_kind_iff.mp hy) hy
  refine ⟨?_, s, hs⟩
  cases y with
  | str value => rfl
  | _ => simp [Kind.holds] at hy

theorem exists_tags {x : Json} (hx : x.WellFormed) (h : (refTo .tags).Accepts x) :
    ∃ tags, tagsCodec.Keeps (refTo .tags) x tags ∧ tags.isEmpty = isVoid "tags" x := by
  obtain ⟨tags, htags, hempty⟩ := exists_texts hx (accepts_refTo_iff.mp h)
  exact ⟨tags, htags.refTo (d := .tags), hempty _ (by decide)⟩

/-- A number under the name of a machine integer, where the schema asks for an integer, is an
integer literal. -/
theorem exists_int {name : String} {bound : Int} {x : Json} (hfits : Json.numberFits name x = true)
    (hname : name ∈ ["variable", "notVariable", "permutation", "cutoff"])
    (h : (integerFrom bound).Accepts x) : ∃ i : Int, x = .num (.int i) ∧ bound ≤ i := by
  simp only [integerFrom, accepts_all_cons_iff, Keyword.accepts_kinds_iff] at h
  obtain ⟨hbound, hkind, -⟩ := h
  -- The schema alone would take a whole number written with a point.
  cases x with
  | num n =>
      cases n with
      | int i =>
          refine ⟨i, rfl, ?_⟩
          simpa [atLeast] using hbound
      | float share => simp [Json.numberFits, hname] at hfits
  | _ => simp [Kind.holds] at hkind

/-- A slot is kept. -/
theorem exists_slot {name : String} {x : Json} (hfits : Json.numberFits name x = true)
    (hname : name ∈ ["variable", "notVariable", "permutation", "cutoff"])
    (h : (integerFrom 0).Accepts x) : ∃ n, Codec.natural.Keeps (integerFrom 0) x n := by
  obtain ⟨i, rfl, hpos⟩ := exists_int hfits hname h
  exact Codec.exists_natural hpos h

/-- A count of 32 bits is kept. -/
theorem exists_count {name : String} {bound : Int} {x : Json}
    (hfits : Json.numberFits name x = true) (hname : name ∈ ["permutation", "cutoff"])
    (hbound : 0 ≤ bound) (h : (integerFrom bound).Accepts x) :
    ∃ n, Codec.word.Keeps (integerFrom bound) x n := by
  simp only [List.mem_cons, List.not_mem_nil, or_false] at hname
  obtain ⟨i, rfl, hfrom⟩ := exists_int hfits (by simp [hname]) h
  have hsize : i.toNat < UInt32.size := by
    rcases hname with rfl | rfl <;> simpa [Json.numberFits] using hfits
  exact Codec.exists_word (by omega) hsize h

theorem eq_of_accepts_constant {value : Bool} {x : Json} (h : (Keyword.constant value).Accepts x) :
    x = .bool value := by
  cases x with
  | bool b => rw [Keyword.accepts_constant_iff.mp h]
  | _ => simp [Keyword.accepts_iff_diagnoseOne, diagnoseOne, Keyword.lacking, Json.sorted] at h

namespace Document

/-! ### Samples and texts -/

/-- Which objects are samples by their names. -/
theorem Sample.accepts_keywords_iff {known : List (String × Schema)} {w : Json} (hw : w.IsRecord) :
    (Schema.all [.members known,
      .exclude (.all [.anyOf [has ["variable", "notVariable"],
        has ["variable", "withReplacement"], has ["notVariable", "withReplacement"]]]),
      .required ["sampleFrom"], .kinds [.object]]).Accepts w ↔
      MembersFit known w.members ∧ ("variable" ∈ w.names → "notVariable" ∉ w.names) ∧
        ("variable" ∈ w.names → "withReplacement" ∉ w.names) ∧
        ("notVariable" ∈ w.names → "withReplacement" ∉ w.names) ∧ "sampleFrom" ∈ w.names := by
  simp [Keyword.accepts_members_iff hw, accepts_has_iff hw, Keyword.accepts_required_iff hw,
    Keyword.accepts_object hw, and_assoc]

/-- A sample is kept. -/
theorem Sample.exists_keeps {x : Json} (hx : x.WellFormed)
    (h : Definition.sample.schema.Accepts x) :
    ∃ s, Sample.codec.Keeps Definition.sample.schema x s := by
  obtain ⟨members, rfl⟩ := exists_members h (by simp)
  have hrecord := hx.isRecord
  obtain ⟨hfits, hslots, hheld, havoided, hthere⟩ := (accepts_keywords_iff hrecord).mp h
  have hfit : Fitting _ members := ⟨hrecord.distinct, hfits⟩
  obtain ⟨bank, hbank⟩ := hfit.exists_field Codec.text "sampleFrom" rfl hthere
    (Json.isVoid_of_not_mem (by decide)) fun y _ hy => Codec.exists_text (accepts_kind_iff.mp hy) hy
  obtain ⟨slot, hslot⟩ := hfit.exists_optional Codec.natural "variable" rfl (by decide)
    fun y hmem hy => exists_slot (hx.numberFits hmem) (by simp) hy
  obtain ⟨avoids, havoids⟩ := hfit.exists_optional Codec.natural "notVariable" rfl (by decide)
    fun y hmem hy => exists_slot (hx.numberFits hmem) (by simp) hy
  obtain ⟨field, hfield⟩ := hfit.exists_optional Codec.text "field" rfl (by decide)
    fun y _ hy => Codec.exists_text (accepts_kind_iff.mp hy) hy
  have htrue : ∀ y, ("withReplacement", y) ∈ members → (Schema.all [.constant true]).Accepts y →
      ∃ b, Codec.flag.Keeps (.all [.constant true]) y b ∧ (!b) = isVoid "withReplacement" y := by
    intro y _ hy
    obtain rfl := eq_of_accepts_constant (accepts_all_cons_iff.mp hy).1
    exact ⟨true, Codec.keeps_write (Codec.flag_lossless true) rfl hy, rfl⟩
  obtain ⟨replacing, hreplacing⟩ := hfit.exists_defaulted Codec.flag "withReplacement" false (!·)
    rfl rfl htrue
  refine ⟨⟨bank, slot, avoids, field, replacing⟩, ?_⟩
  apply Record.keeps (r := Sample.record) (fun _ => rfl) (Sample.write_record _) hfit (by decide)
  · simp only [Sample.record, List.forall_mem_cons]
    exact ⟨hbank, hslot, havoids, hfield, hreplacing, by simp⟩
  · intro w hw hwritten hnames
    apply (accepts_keywords_iff hw).mpr
    rw [hnames "variable" (by decide), hnames "notVariable" (by decide),
      hnames "withReplacement" (by decide), hnames "sampleFrom" (by decide)]
    exact ⟨hwritten, hslots, hheld, havoided, hthere⟩

/-- A text is kept. -/
theorem Text.exists_keeps {x : Json} (hx : x.WellFormed) (h : Definition.text.schema.Accepts x) :
    ∃ t, Text.codec.Keeps Definition.text.schema x t := by
  have hshape := h
  rw [Definition.schema] at hshape
  simp only [accepts_all_cons_iff, Keyword.accepts_oneOf_pair_iff, accepts_kind_iff,
    accepts_refTo_iff] at hshape
  rcases hshape.1 with ⟨hstring, -⟩ | ⟨-, hsample⟩
  · obtain ⟨value, hvalue⟩ := Codec.exists_text hstring h
    exact ⟨.literal value, Draft.variants_first hvalue.read, hvalue.written, hvalue.accepted⟩
  · obtain ⟨s, hs⟩ := Sample.exists_keeps hx hsample
    obtain ⟨members, rfl⟩ := exists_members hsample (by simp)
    have hstring : ∀ value, (Draft.ofJson (.obj members)).asString ≠ .ok value := by
      simp [Draft.ofJson, Draft.asString]
    refine ⟨.sample s, Draft.variants_second hstring hs.read, hs.written, ?_⟩
    apply (Text.accepts_iff (.sample s)).mpr
    rw [Text.samples, List.forall_mem_singleton]
    exact s.accepts_iff.mp hs.accepted

/-- A text is neither null nor a number. -/
theorem asOption_asNat_ne_ok {x : Json} (h : Definition.text.schema.Accepts x) (n : Option Nat) :
    (Draft.ofJson x).asOption Draft.asNat ≠ .ok n := by
  rcases accepts_text_kind h with hkind | hkind
  · cases x <;> simp_all [Kind.holds, Draft.ofJson, Draft.asOption, Draft.asNat, Functor.map,
      Except.map]
  · cases x <;> simp_all [Kind.holds, Draft.ofJson, Draft.asOption, Draft.asNat, Functor.map,
      Except.map]

/-- What a page shows is kept. -/
theorem PageText.exists_keeps {x : Json} (hx : x.WellFormed)
    (h : Definition.pageText.schema.Accepts x) :
    ∃ t, PageText.codec.Keeps Definition.pageText.schema x t := by
  rw [Definition.schema] at h
  simp only [accepts_all_cons_iff, Keyword.accepts_oneOf_pair_iff, accepts_refTo_iff] at h
  rcases h.1 with ⟨htext, -⟩ | ⟨-, hlist⟩
  · obtain ⟨one, hone⟩ := Text.exists_keeps hx htext
    refine ⟨.single one, Draft.variants_first hone.read, hone.written, ?_⟩
    exact (PageText.accepts_iff (.single one)).mpr (one.accepts_iff.mp hone.accepted)
  · obtain ⟨lines, hlines, -⟩ := Codec.exists_listOf (c := Text.codec) hx hlist
      fun _ _ _ _ hline htext => Text.exists_keeps hline htext
    obtain ⟨items, rfl⟩ := exists_items hlist (by simp)
    have hsingle : ∀ one, Text.ofDraft (.ofJson (.arr items)) ≠ .ok one :=
      Text.ofDraft_ne_ok_of_array fun item hitem =>
        asOption_asNat_ne_ok (accepts_listOf_iff.mp hlist item hitem)
    refine ⟨.lines lines, Draft.variants_second hsingle hlines.read, hlines.written, ?_⟩
    apply (PageText.accepts_iff (.lines lines)).mpr
    rw [PageText.samples, List.forall_mem_flatMap]
    intro line hline
    apply line.accepts_iff.mp
    exact accepts_listOf_iff.mp hlines.accepted _ (List.mem_map_of_mem hline)

/-! ### Resources -/

/-- The schema of resource records. -/
def Resource.schema : Schema :=
  closedObject ["source", "mediaType", "autoplay", "controls", "required"] [
    ("autoplay", kind .boolean), ("controls", kind .boolean),
    ("mediaType", .all [.kinds [.string, .null]]), ("required", kind .boolean),
    ("source", refTo .text)]

/-- The media type of a resource is a text or null. -/
theorem Resource.exists_media {known : List (String × Schema)} {members : Members}
    (hfit : Fitting known members)
    (hknown : known.lookup "mediaType" = some (.all [.kinds [.string, .null]]))
    (hthere : "mediaType" ∈ members.map Prod.fst) :
    ∃ mediaType, Entry.Keeps isVoid known members ⟨Resource.mediaField, mediaType⟩ := by
  obtain ⟨⟨_, x⟩, hx, rfl⟩ := List.mem_map.mp hthere
  have hplace := (Json.lookup_eq_some_iff_mem hfit.distinct).mpr hx
  have haccepts := hfit.accepts_of_mem hknown hx
  have hkind : ∃ k ∈ [Kind.string, Kind.null], k.holds x = true :=
    holds_of_accepts haccepts (by simp)
  cases x with
  | str mediaType =>
      exact ⟨some mediaType, Entry.keeps_of_written hplace rfl rfl rfl rfl ⟨_, hknown, haccepts⟩⟩
  | null => exact ⟨none, Entry.keeps_of_written hplace rfl rfl rfl rfl ⟨_, hknown, haccepts⟩⟩
  | _ => simp [Kind.holds] at hkind

/-- A resource record is kept. -/
theorem Resource.exists_keeps {x : Json} (hx : x.WellFormed) (h : Resource.schema.Accepts x) :
    ∃ r, Resource.codec.Keeps Resource.schema x r := by
  obtain ⟨members, rfl⟩ := exists_members h (by simp)
  obtain ⟨hfit, hthere⟩ := Fitting.of_closedObject hx h
  obtain ⟨source, hsource⟩ := hfit.exists_field Text.codec "source" rfl (hthere _ (by simp))
    (Json.isVoid_of_not_mem (by decide)) fun y hmem hy =>
      Codec.exists_refTo hy (Text.exists_keeps (hx.of_mem_members hmem))
  obtain ⟨mediaType, hmedia⟩ := Resource.exists_media hfit rfl (hthere _ (by simp))
  obtain ⟨autoplay, hautoplay⟩ := hfit.exists_field Codec.flag "autoplay" rfl (hthere _ (by simp))
    (Json.isVoid_of_not_mem (by decide)) fun y _ hy => exists_flag hy
  obtain ⟨controls, hcontrols⟩ := hfit.exists_field Codec.flag "controls" rfl (hthere _ (by simp))
    (Json.isVoid_of_not_mem (by decide)) fun y _ hy => exists_flag hy
  obtain ⟨required, hrequired⟩ := hfit.exists_field Codec.flag "required" rfl (hthere _ (by simp))
    (Json.isVoid_of_not_mem (by decide)) fun y _ hy => exists_flag hy
  refine ⟨⟨source, mediaType, autoplay, controls, required⟩, ?_⟩
  apply Record.keeps_closedObject (r := Resource.record) (fun _ => rfl) rfl hx h (by decide)
    (by decide)
  simp only [Resource.record, List.forall_mem_cons]
  exact ⟨hsource, hmedia, hautoplay, hcontrols, hrequired, by simp⟩

/-- A resource is kept. -/
theorem ResourceEntry.exists_keeps {x : Json} (hx : x.WellFormed)
    (h : Definition.resource.schema.Accepts x) :
    ∃ r, ResourceEntry.codec.Keeps Definition.resource.schema x r := by
  have hshape : (Schema.all [.oneOf [refTo .sample, Resource.schema]]).Accepts x := h
  simp only [accepts_all_cons_iff, Keyword.accepts_oneOf_pair_iff, accepts_refTo_iff] at hshape
  rcases hshape.1 with ⟨hsample, -⟩ | ⟨-, hfull⟩
  · obtain ⟨s, hs⟩ := Sample.exists_keeps hx hsample
    refine ⟨.sample s, Draft.variants_first hs.read, hs.written, ?_⟩
    apply (ResourceEntry.accepts_iff (.sample s)).mpr
    rw [ResourceEntry.samples, List.forall_mem_singleton]
    exact s.accepts_iff.mp hs.accepted
  · obtain ⟨r, hr⟩ := Resource.exists_keeps hx hfull
    obtain ⟨members, rfl⟩ := exists_members hfull (by simp)
    have hbank : "sampleFrom" ∉ members.map Prod.fst :=
      name_not_mem_of_closedObject hx hfull (by decide)
    have hother : ¬ Definition.sample.schema.Accepts r.toJson :=
      not_accepts_sample r.isRecord_toJson (by simp [Resource.toJson, Json.names, Json.members])
    refine ⟨.record r, Draft.variants_second (Sample.ofDraft_ne_ok_of_missing hbank) hr.read,
      hr.written, ?_⟩
    show (Schema.all [.oneOf [refTo .sample, Resource.schema]]).Accepts r.toJson
    simp only [accepts_all_cons_iff, accepts_all_nil, Keyword.accepts_oneOf_pair_iff,
      accepts_refTo_iff]
    exact ⟨.inr ⟨hother, hr.accepted⟩, trivial⟩

theorem exists_resources {x : Json} (hx : x.WellFormed) (h : (refTo .resources).Accepts x) :
    ∃ resources, ResourceEntry.codec.list.Keeps (refTo .resources) x resources ∧
      resources.isEmpty = isVoid "resources" x := by
  obtain ⟨resources, hresources, hempty⟩ := Codec.exists_listOf hx (accepts_refTo_iff.mp h)
    fun _ _ _ _ hitem haccepts => ResourceEntry.exists_keeps hitem haccepts
  exact ⟨resources, hresources.refTo, hempty _ (by decide)⟩

/-! ### Guards -/

/-- Which objects are guards by their names. -/
theorem Guard.accepts_keywords_iff {known : List (String × Schema)} {w : Json} (hw : w.IsRecord) :
    (Schema.all [.members known,
      .oneOf [
        .all [.exclude (has ["permutation"]), .required ["pageID"]],
        .all [.exclude (.all [.anyOf [has ["pageID"], has ["optionID"], has ["regex"]]]),
          .required ["permutation"]]],
      .kinds [.object]]).Accepts w ↔
      MembersFit known w.members ∧
        ("permutation" ∉ w.names ∧ "pageID" ∈ w.names ∨
          "permutation" ∈ w.names ∧ "pageID" ∉ w.names ∧ "optionID" ∉ w.names ∧
            "regex" ∉ w.names) := by
  by_cases hpermutation : "permutation" ∈ w.names <;>
    simp [Keyword.accepts_members_iff hw, accepts_has_iff hw, Keyword.accepts_required_iff hw,
      Keyword.accepts_object hw, hpermutation]

/-- A guard is kept. -/
theorem Guard.exists_keeps {x : Json} (hx : x.WellFormed) (h : Definition.runIf.schema.Accepts x) :
    ∃ g, Guard.codec.Keeps Definition.runIf.schema x g := by
  obtain ⟨members, rfl⟩ := exists_members h (by simp)
  have hrecord := hx.isRecord
  obtain ⟨hfits, htarget⟩ := (accepts_keywords_iff hrecord).mp h
  have hfit : Fitting _ members := ⟨hrecord.distinct, hfits⟩
  obtain ⟨page, hpage⟩ := hfit.exists_optional Codec.text "pageID" rfl (by decide)
    fun y _ hy => Codec.exists_refTo hy exists_id
  obtain ⟨choice, hchoice⟩ := hfit.exists_optional Codec.text "optionID" rfl (by decide)
    fun y _ hy => Codec.exists_refTo hy exists_id
  obtain ⟨regex, hregex⟩ := hfit.exists_optional Codec.text "regex" rfl (by decide)
    fun y _ hy => Codec.exists_text (accepts_kind_iff.mp hy) hy
  obtain ⟨permutation, hpermutation⟩ := hfit.exists_optional Codec.word "permutation" rfl
    (by decide) fun y hmem hy => exists_count (hx.numberFits hmem) (by simp) (by decide) hy
  refine ⟨⟨page, choice, regex, permutation⟩, ?_⟩
  apply Record.keeps (r := Guard.record) (fun _ => rfl) (Guard.write_record _) hfit (by decide)
  · simp only [Guard.record, List.forall_mem_cons]
    exact ⟨hpage, hchoice, hregex, hpermutation, by simp⟩
  · intro w hw hwritten hnames
    apply (accepts_keywords_iff hw).mpr
    rw [hnames "permutation" (by decide), hnames "pageID" (by decide),
      hnames "optionID" (by decide), hnames "regex" (by decide)]
    exact ⟨hwritten, htarget⟩

end Document

/-! ### Keys -/

/-- An answer key is kept. -/
theorem AnswerKey.exists_keeps {x : Json} (h : Definition.correct.schema.Accepts x) :
    ∃ key, AnswerKey.codec.Keeps Definition.correct.schema x key := by
  have hkind : ∃ k ∈ [Kind.boolean, Kind.string], k.holds x = true := holds_of_accepts h (by simp)
  cases x with
  | bool value => exact ⟨.flag value, Codec.keeps_write (AnswerKey.lossless (.flag value)) rfl h⟩
  | str value =>
      exact ⟨.pattern value, Codec.keeps_write (AnswerKey.lossless (.pattern value)) rfl h⟩
  | _ => simp [Kind.holds] at hkind

/-- Key bindings are kept. -/
theorem Keyboard.exists_keeps {x : Json} (hx : x.WellFormed)
    (h : (Schema.all [.oneOf [kind .boolean,
      .all [.items (kind .string), .kinds [.array]]]]).Accepts x) :
    ∃ keyboard, Keyboard.codec.Keeps (.all [.oneOf [kind .boolean,
      .all [.items (kind .string), .kinds [.array]]]]) x keyboard := by
  have hshape := (accepts_all_cons_iff.mp h).1
  rw [Keyword.accepts_oneOf_pair_iff] at hshape
  rcases hshape with ⟨hflag, -⟩ | ⟨-, hkeys⟩
  · obtain ⟨on, hon⟩ := exists_flag hflag
    exact ⟨.standard on, Draft.variants_first hon.read, hon.written,
      Keyboard.accepts_toJson (.standard on)⟩
  · obtain ⟨items, rfl⟩ := exists_items hkeys (by simp)
    simp only [accepts_all_cons_iff, Keyword.accepts_items_iff] at hkeys
    have haccepts : ∀ ys : List Json, ys.length = items.length →
        (∀ y ∈ ys, (kind .string).Accepts y) → (Schema.all []).Accepts (.arr ys) := fun _ _ _ =>
      accepts_all_nil
    obtain ⟨names, hnames, -⟩ := Codec.exists_list (fun item hitem => Codec.exists_text
      (accepts_kind_iff.mp (hkeys.1 item hitem)) (hkeys.1 item hitem)) haccepts
    have hflag : ∀ b, (Draft.ofJson (.arr items)).asBool ≠ .ok b := by
      simp [Draft.ofJson, Draft.asBool]
    exact ⟨.keys names, Draft.variants_second hflag hnames.read, hnames.written,
      Keyboard.accepts_toJson (.keys names)⟩

/-! ### Criteria -/

/-- The schema of criteria. -/
def Criterion.schema : Schema :=
  .all [.oneOf [integerFrom 1,
    .all [.exclusiveMinimum 0, .maximum 1, .exclude (kind .integer), .kinds [.number]]]]

/-- A criterion is a number: an integer of at least one, or a number that is finite. -/
theorem Criterion.number_of_accepts {x : Json} (h : Criterion.schema.Accepts x) :
    (∃ i : Int, x = .num (.int i) ∧ 1 ≤ i) ∨
      ∃ share : Binary64, x = .num (.float share) ∧ share.isFinite = true := by
  have hshape := (accepts_all_cons_iff.mp h).1
  rw [Keyword.accepts_oneOf_pair_iff] at hshape
  cases x with
  | num n =>
      cases n with
      | int i =>
          refine .inl ⟨i, rfl, ?_⟩
          simpa [integerFrom, Kind.holds, atLeast] using hshape
      | float share =>
          refine .inr ⟨share, rfl, ?_⟩
          -- Whole numbers and shares are finite, so JSON can hold what is read.
          rcases hshape with ⟨hwhole, -⟩ | ⟨-, hshare⟩
          · simp [integerFrom, Kind.holds, Binary64.isWhole] at hwhole
            exact hwhole.2.1
          · simp [Kind.holds, above, atMost] at hshare
            exact Binary64.isFinite_of_inRange hshare.1 hshare.2.1
  | _ => simp [integerFrom, Kind.holds] at hshape

/-- A criterion is kept, an integer literal as a streak and any other number as a share. -/
theorem Criterion.exists_keeps {x : Json} (hfits : Json.numberFits "criterion" x = true)
    (h : Criterion.schema.Accepts x) : ∃ c, Criterion.codec.Keeps Criterion.schema x c := by
  rcases Criterion.number_of_accepts h with ⟨i, rfl, hpos⟩ | ⟨share, rfl, hfinite⟩
  · have hsize : i.toNat < UInt32.size := by simpa [Json.numberFits] using hfits
    obtain ⟨length, hlength⟩ := Codec.exists_word (by omega) hsize h
    exact ⟨.streak length, Draft.variants_first hlength.read, hlength.written, hlength.accepted⟩
  · have hwritten : (Criterion.proportion share).toJson = .num (.float share) := if_pos hfinite
    have hlossless := Criterion.lossless (c := .proportion share) hfinite
    rw [← hwritten] at h ⊢
    refine ⟨.proportion share, Codec.keeps_write hlossless ?_ h⟩
    exact (congrArg Json.pruned hwritten).trans hwritten.symm

/-! ### Banks -/

/-- The schema of values of banks. -/
def BankEntry.schema : Schema :=
  .all [.oneOf [kind .string, .all [.eachMember (kind .string), .kinds [.object]]]]

theorem BankEntry.accepts_toJson (entry : BankEntry) : BankEntry.schema.Accepts entry.toJson :=
  Keyword.accepts_items_iff.mp (accepts_bank_items [entry]) _ (by simp)

/-- A value of a bank is kept. -/
theorem BankEntry.exists_keeps {x : Json} (hx : x.WellFormed) (h : BankEntry.schema.Accepts x) :
    ∃ entry, BankEntry.codec.Keeps BankEntry.schema x entry := by
  have hshape := (accepts_all_cons_iff.mp h).1
  rw [Keyword.accepts_oneOf_pair_iff] at hshape
  rcases hshape with ⟨hstring, -⟩ | ⟨-, hfields⟩
  · obtain ⟨value, hvalue⟩ := Codec.exists_text (accepts_kind_iff.mp hstring) h
    exact ⟨.text value, Draft.variants_first hvalue.read, hvalue.written, hvalue.accepted⟩
  · obtain ⟨fields, hkept, -⟩ := exists_texts hx hfields
    obtain ⟨members, rfl⟩ := exists_members hfields (by simp)
    have hstring : ∀ value, (Draft.ofJson (.obj members)).asString ≠ .ok value := by
      simp [Draft.ofJson, Draft.asString]
    exact ⟨.record fields, Draft.variants_second hstring hkept.read, hkept.written,
      BankEntry.accepts_toJson (.record fields)⟩

/-- The schema of single banks. -/
def Bank.schema : Schema := someOf BankEntry.schema

/-- A bank is kept. -/
theorem Bank.exists_keeps {x : Json} (hx : x.WellFormed) (h : Bank.schema.Accepts x) :
    ∃ bank, BankEntry.codec.list.Keeps Bank.schema x bank :=
  Codec.exists_someOf hx h fun _ hitem haccepts => BankEntry.exists_keeps hitem haccepts

/-- Banks are kept, none of which is empty. -/
theorem exists_banks {x : Json} (hx : x.WellFormed) (h : (refTo .banks).Accepts x) :
    ∃ banks, banksCodec.Keeps (refTo .banks) x banks ∧ banks.isEmpty = isVoid "banks" x := by
  have hbanks : (mapOf Bank.schema).Accepts x := accepts_refTo_iff.mp h
  have hvalue : ∀ name y, y.WellFormed → Bank.schema.Accepts y → isVoid name y = false ∧
      ∃ bank, BankEntry.codec.list.Keeps Bank.schema y bank := by
    intro name y hwell hy
    refine ⟨?_, Bank.exists_keeps hwell hy⟩
    obtain ⟨items, rfl⟩ := exists_items hy (by simp)
    cases items with
    | nil => simp [Bank.schema, someOf] at hy
    | cons item rest => rfl
  obtain ⟨banks, hkept, hempty⟩ := Codec.exists_mapOf hx hbanks hvalue
  exact ⟨banks, hkept.refTo (d := .banks), hempty _ (by decide)⟩

/-! ### Fields of several nodes -/

namespace Wire.Fitting

variable {known : List (String × Schema)} {members : Members}

theorem exists_id (hfit : Fitting known members) (hthere : "id" ∈ members.map Prod.fst)
    (hknown : known.lookup "id" = some (refTo .id)) :
    ∃ id, Entry.Keeps isVoid known members ⟨Codec.text.field "id", id⟩ :=
  hfit.exists_field Codec.text "id" hknown hthere (Json.isVoid_of_not_mem (by decide))
    fun _ _ hy => Codec.exists_refTo hy Paradigm.exists_id

theorem exists_label (hfit : Fitting known members) (hx : (Json.obj members).WellFormed)
    (name : String) (hknown : known.lookup name = some (refTo .text))
    (hvoid : name ∉ Json.voidLists ++ Json.voidMaps) :
    ∃ label, Entry.Keeps isVoid known members ⟨Document.Text.codec.optional name, label⟩ :=
  hfit.exists_optional Document.Text.codec name hknown hvoid fun _ hmem hy =>
    Codec.exists_refTo hy (Document.Text.exists_keeps (hx.of_mem_members hmem))

theorem exists_switch (hfit : Fitting known members) (name : String)
    (hknown : known.lookup name = some (kind .boolean))
    (hvoid : name ∉ Json.voidLists ++ Json.voidMaps) :
    ∃ b, Entry.Keeps isVoid known members ⟨Codec.flag.optional name, b⟩ :=
  hfit.exists_optional Codec.flag name hknown hvoid fun _ _ hy => exists_flag hy

theorem exists_guard (hfit : Fitting known members) (hx : (Json.obj members).WellFormed)
    (hknown : known.lookup "runIf" = some (refTo .runIf)) :
    ∃ g, Entry.Keeps isVoid known members ⟨Document.Guard.codec.optional "runIf", g⟩ :=
  hfit.exists_optional Document.Guard.codec "runIf" hknown (by decide) fun _ hmem hy =>
    Codec.exists_refTo hy (Document.Guard.exists_keeps (hx.of_mem_members hmem))

theorem exists_tags (hfit : Fitting known members) (hx : (Json.obj members).WellFormed)
    (hknown : known.lookup "tags" = some (refTo .tags)) :
    ∃ tags, Entry.Keeps isVoid known members
      ⟨tagsCodec.defaulted "tags" .empty Assoc.isEmpty, tags⟩ :=
  hfit.exists_defaulted tagsCodec "tags" .empty Assoc.isEmpty hknown rfl fun _ hmem hy =>
    Paradigm.exists_tags (hx.of_mem_members hmem) hy

theorem exists_resources (hfit : Fitting known members) (hx : (Json.obj members).WellFormed)
    (hknown : known.lookup "resources" = some (refTo .resources)) :
    ∃ resources, Entry.Keeps isVoid known members
      ⟨Document.ResourceEntry.codec.list.defaulted "resources" [] List.isEmpty, resources⟩ :=
  hfit.exists_defaulted Document.ResourceEntry.codec.list "resources" [] List.isEmpty hknown rfl
    fun _ hmem hy => Document.exists_resources (hx.of_mem_members hmem) hy

theorem exists_order (hfit : Fitting known members) (hx : (Json.obj members).WellFormed)
    (name : String) (hknown : known.lookup name = some (refTo .idList))
    (hvoid : name ∈ Json.voidLists) :
    ∃ ids, Entry.Keeps isVoid known members
      ⟨Codec.text.list.defaulted name [] List.isEmpty, ids⟩ :=
  hfit.exists_defaulted Codec.text.list name [] List.isEmpty hknown rfl fun _ hmem hy =>
    exists_ids hvoid (hx.of_mem_members hmem) hy

end Wire.Fitting

end Paradigm
