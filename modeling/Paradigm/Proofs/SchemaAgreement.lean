/-
Module: Paradigm.Proofs.SchemaAgreement
Layer: Proofs
Purpose: The schema of the runner and the wire format describe the same documents. A value that the
  schema accepts is read as a document, and what is written for the document is the value itself,
  up to the order of members and apart from empty lists and maps that are left out; the schema
  accepts it again. Numbers have to fit the machine integers that they are read as.
Imports: Paradigm.Proofs.Conformance, Paradigm.Proofs.Wire.AcceptedValues,
  Paradigm.Proofs.Wire.Nodes
Main exports: Document.Page.exists_keeps, Document.Item.exists_keeps, Document.Block.exists_keeps,
  checkSchema_agrees
-/
import Paradigm.Proofs.Conformance
import Paradigm.Proofs.Wire.AcceptedValues
import Paradigm.Proofs.Wire.Nodes

namespace Paradigm

open Wire Schema
open Json (Draft isVoid)

/-! ### Sizes -/

theorem Json.sizeOf_lt_of_mem_items {items : List Json} {item : Json} (h : item ∈ items) :
    sizeOf item < sizeOf (Json.arr items) := by
  have hitem := List.sizeOf_lt_of_mem h
  simp only [Json.arr.sizeOf_spec]
  omega

theorem Json.sizeOf_lt_of_mem_members {members : Members} {name : String} {x : Json}
    (h : (name, x) ∈ members) : sizeOf x < sizeOf (Json.obj members) := by
  have hmember := List.sizeOf_lt_of_mem h
  simp only [Json.obj.sizeOf_spec, Prod.mk.sizeOf_spec] at hmember ⊢
  omega

namespace Document

/-! ### Options and pages -/

/-- What a field of feedback comes to. -/
def Feedback.KeptIn (members : Members) : Prop :=
  ∀ y, ("feedback", y) ∈ members → Definition.feedback.schema.Accepts y →
    ∃ f, Feedback.codec.Keeps Definition.feedback.schema y f

/-- An answer option is kept where its feedback is. -/
theorem Choice.exists_keeps_of_feedback {members : Members} (hx : (Json.obj members).WellFormed)
    (h : Definition.option.schema.Accepts (.obj members)) (hfeedback : Feedback.KeptIn members) :
    ∃ choice, Choice.codec.Keeps Definition.option.schema (.obj members) choice := by
  obtain ⟨hfit, hthere⟩ := Fitting.of_closedObject hx h
  obtain ⟨id, hid⟩ := hfit.exists_id (hthere _ (by simp)) rfl
  obtain ⟨text, htext⟩ := hfit.exists_label hx "text" rfl (by decide)
  obtain ⟨correct, hcorrect⟩ := hfit.exists_optional AnswerKey.codec "correct" rfl (by decide)
    fun _ _ hy => Codec.exists_refTo hy AnswerKey.exists_keeps
  obtain ⟨feedback, hfeedback⟩ := hfit.exists_optional Feedback.codec "feedback" rfl (by decide)
    fun y hmem hy => Codec.exists_refTo hy (hfeedback y hmem)
  obtain ⟨resources, hresources⟩ := hfit.exists_resources hx rfl
  obtain ⟨tags, htags⟩ := hfit.exists_tags hx rfl
  refine ⟨⟨id, text, correct, feedback, resources, tags⟩, ?_⟩
  apply Record.keeps_closedObject Choice.read_record (Choice.write_record _) hx h (by decide)
    (by decide)
  simp only [Choice.record, List.forall_mem_cons]
  exact ⟨hid, htext, hcorrect, hfeedback, hresources, htags, by simp⟩

/-- What a field of answer options comes to. -/
def Choice.KeptIn (members : Members) : Prop :=
  ∀ items, ("options", Json.arr items) ∈ members → ∀ item ∈ items,
    Definition.option.schema.Accepts item →
      ∃ choice, Choice.codec.Keeps Definition.option.schema item choice

/-- A page is kept where its feedback and answer options are. -/
theorem Page.exists_keeps_of_contents {members : Members} (hx : (Json.obj members).WellFormed)
    (h : Definition.page.schema.Accepts (.obj members)) (hfeedback : Feedback.KeptIn members)
    (hchoices : Choice.KeptIn members) :
    ∃ page, Page.codec.Keeps Definition.page.schema (.obj members) page := by
  obtain ⟨hfit, hthere⟩ := Fitting.of_closedObject hx h
  obtain ⟨id, hid⟩ := hfit.exists_id (hthere _ (by simp)) rfl
  obtain ⟨text, htext⟩ := hfit.exists_field PageText.codec "text" rfl (hthere _ (by simp))
    (Json.isVoid_of_not_mem (by decide)) fun _ hmem hy =>
      Codec.exists_refTo hy (PageText.exists_keeps (hx.of_mem_members hmem))
  have hoptions : ∀ y, ("options", y) ∈ members → (listOf .option).Accepts y →
      ∃ choices, Choice.codec.list.Keeps (listOf .option) y choices ∧
        choices.isEmpty = isVoid "options" y := by
    intro y hmem hy
    obtain ⟨choices, hkept, hempty⟩ := Codec.exists_listOf (hx.of_mem_members hmem) hy
      fun items heq item hitem _ haccepts => hchoices items (heq ▸ hmem) item hitem haccepts
    exact ⟨choices, hkept, hempty _ (by decide)⟩
  obtain ⟨choices, hchoices⟩ := hfit.exists_defaulted Choice.codec.list "options" []
    List.isEmpty rfl rfl hoptions
  obtain ⟨feedback, hfeedback⟩ := hfit.exists_optional Feedback.codec "feedback" rfl (by decide)
    fun y hmem hy => Codec.exists_refTo hy (hfeedback y hmem)
  obtain ⟨correct, hcorrect⟩ := hfit.exists_optional AnswerKey.codec "correct" rfl (by decide)
    fun _ _ hy => Codec.exists_refTo hy AnswerKey.exists_keeps
  obtain ⟨resources, hresources⟩ := hfit.exists_resources hx rfl
  obtain ⟨condition, hcondition⟩ := hfit.exists_label hx "condition" rfl (by decide)
  obtain ⟨tags, htags⟩ := hfit.exists_tags hx rfl
  obtain ⟨ordered, hordered⟩ := hfit.exists_switch "ordered" rfl (by decide)
  obtain ⟨exclusive, hexclusive⟩ := hfit.exists_switch "exclusive" rfl (by decide)
  obtain ⟨freetext, hfreetext⟩ := hfit.exists_switch "freetext" rfl (by decide)
  obtain ⟨keyboard, hkeyboard⟩ := hfit.exists_optional Keyboard.codec "keyboard" rfl (by decide)
    fun _ hmem hy => Keyboard.exists_keeps (hx.of_mem_members hmem) hy
  obtain ⟨guard, hguard⟩ := hfit.exists_guard hx rfl
  refine ⟨⟨id, text, choices, feedback, correct, resources, condition, tags, ordered, exclusive,
    freetext, keyboard, guard⟩, ?_⟩
  apply Record.keeps_closedObject Page.read_record (Page.write_record _) hx h (by decide)
    (by decide)
  simp only [Page.record, List.forall_mem_cons]
  exact ⟨hid, htext, hchoices, hfeedback, hcorrect, hresources, hcondition, htags, hordered,
    hexclusive, hfreetext, hkeyboard, hguard, by simp⟩

/-- Feedback that is a page is kept where the page is. -/
theorem Feedback.exists_keeps_of_page {x : Json} (hx : x.WellFormed)
    (h : Definition.feedback.schema.Accepts x)
    (hpage : Definition.page.schema.Accepts x →
      ∃ page, Page.codec.Keeps Definition.page.schema x page) :
    ∃ f, Feedback.codec.Keeps Definition.feedback.schema x f := by
  have hshape := h
  rw [Definition.schema] at hshape
  simp only [accepts_all_cons_iff, Keyword.accepts_oneOf_pair_iff, accepts_refTo_iff] at hshape
  rcases hshape.1 with ⟨htext, -⟩ | ⟨-, hshown⟩
  · obtain ⟨label, hlabel⟩ := Text.exists_keeps hx htext
    refine ⟨.text label, ?_, hlabel.written, ?_⟩
    · show Feedback.ofDraft (.ofJson x) = .ok (.text label)
      rw [Feedback.ofDraft]
      exact Draft.variants_first hlabel.read
    · exact (Feedback.accepts_text_iff label).mpr (label.accepts_iff.mp hlabel.accepted)
  · obtain ⟨page, hkept⟩ := hpage hshown
    obtain ⟨members, rfl⟩ := exists_members hshown (by simp)
    -- The reader tries a text first; a page has no bank to sample from, so it is not taken for one.
    have hbank : "sampleFrom" ∉ members.map Prod.fst :=
      name_not_mem_of_closedObject hx hshown (by decide)
    refine ⟨.page page, ?_, hkept.written, ?_⟩
    · show Feedback.ofDraft (.ofJson (.obj members)) = .ok (.page page)
      rw [Feedback.ofDraft]
      exact Draft.variants_second (Text.ofDraft_ne_ok_of_missing hbank) hkept.read
    · exact (Feedback.accepts_page_iff page).mpr hkept.accepted

/-- A page is kept. The recursion goes down to the pages of its feedback and of the feedback of its
answer options. -/
theorem Page.exists_keeps (x : Json) (hx : x.WellFormed)
    (h : Definition.page.schema.Accepts x) :
    ∃ page, Page.codec.Keeps Definition.page.schema x page := by
  obtain ⟨members, rfl⟩ := exists_members h (by simp)
  apply Page.exists_keeps_of_contents hx h
  · intro shown hshown hfeedback
    have hsize := Json.sizeOf_lt_of_mem_members hshown
    apply Feedback.exists_keeps_of_page (hx.of_mem_members hshown) hfeedback
    exact Page.exists_keeps shown (hx.of_mem_members hshown)
  · intro items hitems item hitem hchoice
    have hsize := Json.sizeOf_lt_of_mem_members hitems
    have hinner := Json.sizeOf_lt_of_mem_items hitem
    obtain ⟨fields, rfl⟩ := exists_members hchoice (by simp)
    have hfields := (hx.of_mem_members hitems).of_mem_items hitem
    apply Choice.exists_keeps_of_feedback hfields hchoice
    intro shown hshown hfeedback
    have hinnermost := Json.sizeOf_lt_of_mem_members hshown
    apply Feedback.exists_keeps_of_page (hfields.of_mem_members hshown) hfeedback
    exact Page.exists_keeps shown (hfields.of_mem_members hshown)
termination_by sizeOf x

theorem exists_pages {x : Json} (hx : x.WellFormed) (h : (listOf .page).Accepts x) :
    ∃ pages, Page.codec.list.Keeps (listOf .page) x pages := by
  obtain ⟨pages, hpages, -⟩ := Codec.exists_listOf hx h fun _ _ item _ hitem haccepts =>
    Page.exists_keeps item hitem haccepts
  exact ⟨pages, hpages⟩

/-! ### Items -/

/-- An item is kept. -/
theorem Item.exists_keeps {x : Json} (hx : x.WellFormed)
    (h : Definition.item.schema.Accepts x) :
    ∃ item, Item.codec.Keeps Definition.item.schema x item := by
  obtain ⟨members, rfl⟩ := exists_members h (by simp)
  obtain ⟨hfit, hthere⟩ := Fitting.of_closedObject hx h
  obtain ⟨id, hid⟩ := hfit.exists_id (hthere _ (by simp)) rfl
  obtain ⟨pages, hpages⟩ := hfit.exists_field Page.codec.list "pages" rfl (hthere _ (by simp))
    (Json.isVoid_of_not_mem (by decide)) fun _ hmem hy =>
      Codec.exists_someOf (hx.of_mem_members hmem) hy fun item hitem haccepts =>
        Codec.exists_refTo haccepts (Page.exists_keeps item hitem)
  obtain ⟨condition, hcondition⟩ := hfit.exists_label hx "condition" rfl (by decide)
  obtain ⟨tags, htags⟩ := hfit.exists_tags hx rfl
  obtain ⟨guard, hguard⟩ := hfit.exists_guard hx rfl
  refine ⟨⟨id, pages, condition, tags, guard⟩, ?_⟩
  apply Record.keeps_closedObject (r := Item.record) (fun _ => rfl) (Item.write_record _) hx h
    (by decide) (by decide)
  simp only [Item.record, List.forall_mem_cons]
  exact ⟨hid, hpages, hcondition, htags, hguard, by simp⟩

/-- A list of items is kept. -/
theorem exists_itemList {x : Json} (hx : x.WellFormed)
    (h : Definition.items.schema.Accepts x) :
    ∃ items, itemsCodec.Keeps Definition.items.schema x items := by
  obtain ⟨items, hitems, -⟩ := Codec.exists_listOf (c := Item.codec) (d := .item) hx h
    fun _ _ _ _ hitem haccepts => Item.exists_keeps hitem haccepts
  exact ⟨items, hitems.read, hitems.written, hitems.accepted⟩

theorem exists_groups {x : Json} (hx : x.WellFormed) (h : (listOf .items).Accepts x) :
    ∃ groups, itemsCodec.list.Keeps (listOf .items) x groups := by
  obtain ⟨groups, hgroups, -⟩ := Codec.exists_listOf hx h fun _ _ _ _ hitem haccepts =>
    exists_itemList hitem haccepts
  exact ⟨groups, hgroups⟩

/-! ### Blocks -/

/-- The keyword for the contents of a block, of which there is exactly one kind. -/
def Block.contents : Keyword :=
  .oneOf [has ["pages"], has ["items"], has ["groups"], has ["blocks"]]

/-- Which objects are blocks by their names. -/
theorem Block.accepts_object_iff {known : List (String × Schema)} {w : Json} (hw : w.IsRecord) :
    (Schema.all [.members known, Block.contents, .required ["id"], .kinds [.object]]).Accepts w ↔
      MembersFit known w.members ∧ Block.contents.Accepts w ∧ "id" ∈ w.names := by
  simp only [accepts_all_cons_iff, accepts_all_nil, Keyword.accepts_members_iff hw,
    Keyword.accepts_required_iff hw, Keyword.accepts_object hw, List.forall_mem_singleton, and_true]

/-- The contents of a block depend on nothing but names. -/
theorem Block.contents_congr {v w : Json} (hv : v.IsRecord) (hw : w.IsRecord)
    (h : ∀ name ∈ ["pages", "items", "groups", "blocks"], (name ∈ w.names ↔ name ∈ v.names)) :
    Block.contents.Accepts w ↔ Block.contents.Accepts v := by
  have hfits : ∀ name ∈ ["pages", "items", "groups", "blocks"],
      fitsSorted w (has [name]) = fitsSorted v (has [name]) := by
    intro name hname
    rw [Bool.eq_iff_iff, fitsSorted_iff, fitsSorted_iff, accepts_has_iff hw, accepts_has_iff hv]
    simp only [List.forall_mem_singleton]
    exact h name hname
  have hcount : ∀ z : Json, Block.contents.Accepts z ↔
      ["pages", "items", "groups", "blocks"].countP (fun name => fitsSorted z (has [name])) = 1 :=
    fun z => Keyword.accepts_oneOf_iff
  rw [hcount, hcount, List.countP_congr]
  intro name hname
  rw [hfits name hname]

/-- What a field of child blocks comes to. -/
def Block.KeptIn (members : Members) : Prop :=
  ∀ items, ("blocks", Json.arr items) ∈ members → ∀ item ∈ items,
    Definition.block.schema.Accepts item →
      ∃ block, Block.codec.Keeps Definition.block.schema item block

/-- A block is kept where its children are. -/
theorem Block.exists_keeps_of_children {members : Members} (hx : (Json.obj members).WellFormed)
    (h : Definition.block.schema.Accepts (.obj members)) (hchildren : Block.KeptIn members) :
    ∃ block, Block.codec.Keeps Definition.block.schema (.obj members) block := by
  have hrecord := hx.isRecord
  obtain ⟨hfits, hcontents, hthere⟩ := (Block.accepts_object_iff hrecord).mp h
  have hfit : Fitting _ members := ⟨hrecord.distinct, hfits⟩
  obtain ⟨id, hid⟩ := hfit.exists_id hthere rfl
  obtain ⟨pages, hpages⟩ := hfit.exists_optional Page.codec.list "pages" rfl (by decide)
    fun _ hmem hy => exists_pages (hx.of_mem_members hmem) hy
  obtain ⟨items, hitems⟩ := hfit.exists_optional itemsCodec "items" rfl (by decide)
    fun _ hmem hy => Codec.exists_refTo hy (exists_itemList (hx.of_mem_members hmem))
  obtain ⟨groups, hgroups⟩ := hfit.exists_optional itemsCodec.list "groups" rfl (by decide)
    fun _ hmem hy => exists_groups (hx.of_mem_members hmem) hy
  have hinner : ∀ y, ("blocks", y) ∈ members → (listOf .block).Accepts y →
      ∃ blocks, Block.codec.list.Keeps (listOf .block) y blocks := by
    intro y hmem hy
    obtain ⟨blocks, hkept, -⟩ := Codec.exists_listOf (hx.of_mem_members hmem) hy
      fun items heq item hitem _ haccepts => hchildren items (heq ▸ hmem) item hitem haccepts
    exact ⟨blocks, hkept⟩
  obtain ⟨blocks, hblocks⟩ := hfit.exists_optional Block.codec.list "blocks" rfl (by decide) hinner
  obtain ⟨exchangeable, hexchangeable⟩ := hfit.exists_order hx "exchangeable" rfl (by decide)
  obtain ⟨counterbalance, hcounterbalance⟩ := hfit.exists_order hx "counterbalance" rfl (by decide)
  obtain ⟨latinSquare, hlatin⟩ := hfit.exists_switch "latinSquare" rfl (by decide)
  obtain ⟨pseudorandom, hpseudo⟩ := hfit.exists_switch "pseudorandom" rfl (by decide)
  obtain ⟨criterion, hcriterion⟩ := hfit.exists_optional Criterion.codec "criterion" rfl
    (by decide) fun _ hmem hy => Criterion.exists_keeps (hx.numberFits hmem) hy
  obtain ⟨cutoff, hcutoff⟩ := hfit.exists_optional Codec.word "cutoff" rfl (by decide)
    fun _ hmem hy => exists_count (hx.numberFits hmem) (by simp) (by decide) hy
  obtain ⟨guard, hguard⟩ := hfit.exists_guard hx rfl
  obtain ⟨banks, hbanks⟩ := hfit.exists_defaulted banksCodec "banks" .empty Assoc.isEmpty rfl rfl
    fun _ hmem hy => exists_banks (hx.of_mem_members hmem) hy
  refine ⟨⟨id, pages, items, groups, blocks, exchangeable, counterbalance, latinSquare,
    pseudorandom, criterion, cutoff, guard, banks⟩, ?_⟩
  apply Record.keeps Block.read_record (Block.write_record _) hfit (by decide)
  · simp only [Block.record, List.forall_mem_cons]
    exact ⟨hid, hpages, hitems, hgroups, hblocks, hexchangeable, hcounterbalance, hlatin, hpseudo,
      hcriterion, hcutoff, hguard, hbanks, by simp⟩
  · -- Lists of children are written even when they are empty, so the kind of contents stays.
    intro w hw hwritten hnames
    apply (Block.accepts_object_iff hw).mpr
    refine ⟨hwritten, ?_, (hnames "id" (by decide)).mpr hthere⟩
    apply (Block.contents_congr hrecord hw _).mpr hcontents
    intro name hname
    apply hnames
    have hsolid : ∀ name ∈ ["pages", "items", "groups", "blocks"],
        name ∉ Json.voidLists ++ Json.voidMaps := by decide
    exact hsolid name hname

/-- A block is kept. The recursion goes down to the child blocks. -/
theorem Block.exists_keeps (x : Json) (hx : x.WellFormed)
    (h : Definition.block.schema.Accepts x) :
    ∃ block, Block.codec.Keeps Definition.block.schema x block := by
  obtain ⟨members, rfl⟩ := exists_members h (by simp)
  apply Block.exists_keeps_of_children hx h
  intro items hitems item hitem hblock
  have hsize : sizeOf item < sizeOf (Json.obj members) :=
    (Json.sizeOf_lt_of_mem_items hitem).trans (Json.sizeOf_lt_of_mem_members hitems)
  exact Block.exists_keeps item ((hx.of_mem_members hitems).of_mem_items hitem) hblock
termination_by sizeOf x
decreasing_by
  subst_vars
  exact hsize

theorem exists_blocks {x : Json} (hx : x.WellFormed) (h : (listOf .block).Accepts x) :
    ∃ blocks, Block.codec.list.Keeps (listOf .block) x blocks := by
  obtain ⟨blocks, hblocks, -⟩ := Codec.exists_listOf hx h fun _ _ item _ hitem haccepts =>
    Block.exists_keeps item hitem haccepts
  exact ⟨blocks, hblocks⟩

/-! ### Documents -/

/-- The fields of an object that is accepted as a whole document are kept, void ones as well. -/
theorem Experiment.exists_fields {members : Members} (hx : (Json.obj members).WellFormed)
    (h : runner.Accepts (.obj members)) :
    ∃ e : Experiment, ∀ entry ∈ Experiment.record.entries e,
      entry.Keeps Json.neverVoid [("banks", refTo .banks), ("blocks", listOf .block),
        ("counterbalance", refTo .idList), ("exchangeable", refTo .idList)] members := by
  obtain ⟨hfit, hthere⟩ := Fitting.of_closedObject hx h
  have hlist : "exchangeable" ∈ Json.voidLists := by decide
  obtain ⟨blocks, hblocks⟩ := hfit.exists_field Block.codec.list "blocks" rfl (hthere _ (by simp))
    (Json.neverVoid_eq _) fun _ hmem hy => exists_blocks (hx.of_mem_members hmem) hy
  obtain ⟨exchangeable, hexchangeable⟩ := hfit.exists_field Codec.text.list "exchangeable" rfl
    (hthere _ (by simp)) (Json.neverVoid_eq _) fun _ hmem hy =>
      (exists_ids hlist (hx.of_mem_members hmem) hy).imp fun _ hkept => hkept.1
  obtain ⟨counterbalance, hcounterbalance⟩ := hfit.exists_field Codec.text.list "counterbalance"
    rfl (hthere _ (by simp)) (Json.neverVoid_eq _) fun _ hmem hy =>
      (exists_ids hlist (hx.of_mem_members hmem) hy).imp fun _ hkept => hkept.1
  obtain ⟨banks, hbanks⟩ := hfit.exists_field banksCodec "banks" rfl (hthere _ (by simp))
    (Json.neverVoid_eq _) fun _ hmem hy =>
      (exists_banks (hx.of_mem_members hmem) hy).imp fun _ hkept => hkept.1
  refine ⟨⟨blocks, exchangeable, counterbalance, banks⟩, ?_⟩
  simp only [Experiment.record, List.forall_mem_cons]
  exact ⟨hblocks, hexchangeable, hcounterbalance, hbanks, by simp⟩

end Document

/-- A value that passes the check of the schema, with distinct names in each object and numbers that
fit the machine integers of their names, is read as a document. What is written for the document is
the value, up to the order of members and without the empty lists and maps that are left out, and
it passes the check again. -/
theorem checkSchema_agrees {v : Json} (hdistinct : v.eachObject Json.hasDistinctNames = true)
    (hnumbers : v.eachObject Json.numbersFit = true) (h : checkSchema v = .ok ()) :
    ∃ d : Document.Experiment, Document.Experiment.ofDraft (.ofJson v) = .ok d ∧
      d.toJson.sorted = v.prunedRoot.sorted ∧ checkSchema d.toJson = .ok () := by
  have hx : v.WellFormed := ⟨hdistinct, hnumbers⟩
  rw [checkSchema_eq_ok_iff] at h
  obtain ⟨members, rfl⟩ := exists_members h (by simp)
  obtain ⟨hfit, hthere⟩ := Fitting.of_closedObject hx h
  obtain ⟨d, hkept⟩ := Document.Experiment.exists_fields hx h
  have hknown : ∀ name ∈ ["banks", "blocks", "counterbalance", "exchangeable"],
      name ∈ Document.Experiment.record.fields.map Prod.fst := by decide
  have hnames : ∀ name ∈ members.map Prod.fst,
      name ∈ Document.Experiment.record.fields.map Prod.fst := fun name hname =>
    hknown name (hfit.mem_known hname)
  refine ⟨d, ?_, ?_, ?_⟩
  · exact Record.read_eq hfit.distinct hnames fun e he => (hkept e he).gives
  · rw [← d.write_record]
    apply Record.sorted_written _ (Json.lookup_prunedRoot members) hnames hkept
    rw [List.map_map]
    exact hfit.distinct
  · rw [checkSchema_eq_ok_iff, ← d.write_record]
    apply (accepts_closedObject_iff (Record.isRecord_write d)).mpr
    refine ⟨Record.membersFit_written hkept, ?_⟩
    intro name hname
    exact (Record.mem_names_written_iff hnames hkept (Json.neverVoid_eq name)).mpr
      (hthere name hname)

/-- A document whose members stand in no order, with empty lists and maps at each depth. -/
def Json.jumbled : Json :=
  .obj [
    ("exchangeable", .arr []),
    ("banks", .obj [("pets", .arr [.str "cat", .obj [("name", .str "dog")]])]),
    ("blocks", .arr [.obj [
      ("criterion", .num (.int 2)),
      ("exchangeable", .arr []),
      ("banks", .obj []),
      ("pages", .arr [.obj [
        ("text", .obj [("variable", .num (.int 0)), ("sampleFrom", .str "pets")]),
        ("tags", .obj []),
        ("options", .arr []),
        ("feedback", .obj [("text", .str "Look again"), ("id", .str "hint")]),
        ("id", .str "pair")]]),
      ("id", .str "drill")]]),
    ("counterbalance", .arr [])]

theorem Json.sorted_jumbled : Json.jumbled.sorted =
    .obj [
      ("banks", .obj [("pets", .arr [.str "cat", .obj [("name", .str "dog")]])]),
      ("blocks", .arr [.obj [
        ("banks", .obj []),
        ("criterion", .num (.int 2)),
        ("exchangeable", .arr []),
        ("id", .str "drill"),
        ("pages", .arr [.obj [
          ("feedback", .obj [("id", .str "hint"), ("text", .str "Look again")]),
          ("id", .str "pair"),
          ("options", .arr []),
          ("tags", .obj []),
          ("text", .obj [("sampleFrom", .str "pets"), ("variable", .num (.int 0))])]])]]),
      ("counterbalance", .arr []),
      ("exchangeable", .arr [])] := rfl

theorem checkSchema_jumbled : checkSchema Json.jumbled = .ok () := by
  rw [checkSchema_eq_ok_iff, Schema.Accepts, Json.sorted_jumbled]
  simp [runner, closedObject, refTo, listOf, has, kind, integerFrom, Definition.schema, diagnose,
    diagnoseAll, diagnoseOne, diagnoseKnown, diagnoseItems, diagnoseMembers, fitting, extraNames,
    unexpected, demand, Keyword.lacking, Kind.holds, atLeast, List.lookup]

/-- The jumbled document is read and written again without its empty lists and maps, apart from
those of the whole document. -/
theorem checkSchema_agrees_jumbled :
    checkSchema Json.jumbled = .ok () ∧
      ∃ d : Document.Experiment, Document.Experiment.ofDraft (.ofJson Json.jumbled) = .ok d ∧
        d.toJson.sorted = .obj [
          ("banks", .obj [("pets", .arr [.str "cat", .obj [("name", .str "dog")]])]),
          ("blocks", .arr [.obj [
            ("criterion", .num (.int 2)),
            ("id", .str "drill"),
            ("pages", .arr [.obj [
              ("feedback", .obj [("id", .str "hint"), ("text", .str "Look again")]),
              ("id", .str "pair"),
              ("text", .obj [("sampleFrom", .str "pets"), ("variable", .num (.int 0))])]])]]),
          ("counterbalance", .arr []),
          ("exchangeable", .arr [])] ∧
        checkSchema d.toJson = .ok () := by
  have hdistinct : Json.jumbled.eachObject Json.hasDistinctNames = true := by decide
  have hnumbers : Json.jumbled.eachObject Json.numbersFit = true := by decide
  exact ⟨checkSchema_jumbled, checkSchema_agrees hdistinct hnumbers checkSchema_jumbled⟩

end Paradigm
