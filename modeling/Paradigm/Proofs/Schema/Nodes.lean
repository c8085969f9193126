/-
Module: Paradigm.Proofs.Schema.Nodes
Layer: Proofs
Purpose: Which documents the runner schema accepts. Apart from the nodes inside it, a node is
  accepted for what its own fields are; so a document is accepted where each of its blocks, items
  and pages fits by itself, wherever it stands.
Imports: Paradigm.Proofs.Schema.Values
Main exports: Document.Page.Fits, Document.Item.Fits, Document.Block.Fits,
  Document.Page.accepts_iff, Document.Item.accepts_iff, Document.Block.accepts_iff,
  Document.Experiment.accepts_iff
-/
import Paradigm.Proofs.Schema.Values

namespace Paradigm.Document

open Schema

/-! ### Samples of single nodes -/

/-- The sample of feedback that is a text. -/
def Feedback.ownSamples : Option Feedback → List Sample
  | some (.text label) => label.samples
  | _ => []

/-- The samples of an answer option, apart from those of a feedback page. -/
def Choice.ownSamples (choice : Choice) : List Sample :=
  choice.text.toList.flatMap Text.samples ++ Feedback.ownSamples choice.feedback
    ++ choice.resources.flatMap ResourceEntry.samples

/-- The samples of a page, apart from those of feedback pages. -/
def Page.ownSamples (page : Page) : List Sample :=
  page.text.samples ++ page.choices.flatMap Choice.ownSamples
    ++ Feedback.ownSamples page.feedback ++ page.resources.flatMap ResourceEntry.samples
    ++ page.condition.toList.flatMap Text.samples

/-! ### Fitting nodes -/

/-- What the schema asks of a page by itself. -/
structure Page.Fits (page : Page) : Prop where
  id : page.id ≠ ""
  choices : ∀ choice ∈ page.choices, choice.id ≠ ""
  samples : ∀ s ∈ page.ownSamples, s.Exclusive
  guard : ∀ g, page.guard = some g → g.Fits

/-- What the schema asks of an item by itself. -/
structure Item.Fits (item : Item) : Prop where
  id : item.id ≠ ""
  pages : item.pages ≠ []
  samples : ∀ s ∈ item.condition.toList.flatMap Text.samples, s.Exclusive
  guard : ∀ g, item.guard = some g → g.Fits

/-- How many kinds of contents a block has. -/
def Block.kindCount (block : Block) : Nat :=
  [block.pages.isSome, block.items.isSome, block.groups.isSome, block.blocks.isSome].count true

/-- What the schema asks of a block by itself. -/
structure Block.Fits (block : Block) : Prop where
  id : block.id ≠ ""
  contents : block.kindCount = 1
  exchangeable : ∀ id ∈ block.exchangeable, id ≠ ""
  counterbalance : ∀ id ∈ block.counterbalance, id ≠ ""
  criterion : ∀ c, block.criterion = some c → (Schema.all [.oneOf [integerFrom 1,
    .all [.exclusiveMinimum 0, .maximum 1, .exclude (kind .integer),
      .kinds [.number]]]]).Accepts c.toJson
  cutoff : ∀ n, block.cutoff = some n → n ≠ 0
  guard : ∀ g, block.guard = some g → g.Fits
  banks : ∀ declared ∈ block.banks.entries, declared.2 ≠ []

/-! ### Fields of options and pages -/

theorem Feedback.names_member {feedback : Option Feedback} :
    ((Feedback.member feedback).map Prod.fst).Sublist ["feedback"] := by
  cases feedback with
  | none => exact List.nil_sublist _
  | some feedback => exact .refl _

theorem Choice.names_member {choices : List Choice} :
    ((Choice.member choices).map Prod.fst).Sublist ["options"] := by
  cases choices with
  | nil => exact List.nil_sublist _
  | cons choice rest => exact .refl _

theorem membersFit_feedback {known : List (String × Schema)} {feedback : Option Feedback} :
    MembersFit known (Feedback.member feedback) ↔
      ∀ f, feedback = some f → MemberFits known "feedback" f.toJson := by
  cases feedback <;> simp [Feedback.member]

theorem Choice.toJsonList_eq (choices : List Choice) :
    Choice.toJsonList choices = choices.map Choice.toJson := by
  induction choices with
  | nil => rfl
  | cons choice rest ih => rw [Choice.toJsonList, ih, List.map_cons]

theorem membersFit_options {known : List (String × Schema)} {choices : List Choice} :
    MembersFit known (Choice.member choices) ↔
      (choices ≠ [] → MemberFits known "options" (.arr (choices.map Choice.toJson))) := by
  cases choices <;> simp [Choice.member, Choice.toJsonList_eq]

theorem forall_mem_of_ne_nil_iff {α : Type} {P : α → Prop} {xs : List α} :
    (xs ≠ [] → ∀ x ∈ xs, P x) ↔ ∀ x ∈ xs, P x := by
  cases xs <;> simp

theorem forall_mem_toList_flatMap_iff {α β : Type} {P : β → Prop} {f : α → List β}
    {x : Option α} :
    (∀ y ∈ x.toList.flatMap f, P y) ↔ ∀ a, x = some a → ∀ y ∈ f a, P y := by
  cases x <;> simp

theorem Choice.names_sublist (choice : Choice) : choice.toJson.names.Sublist
    ["id", "text", "correct", "feedback", "resources", "tags"] := by
  cases choice
  simp only [Choice.toJson, Json.names, Json.members, List.map_append]
  exact ((((Members.names_one.append Members.names_some?).append Members.names_some?).append
    Feedback.names_member).append Members.names_list?).append Members.names_assoc?

theorem Choice.isRecord_toJson (choice : Choice) : choice.toJson.IsRecord := by
  refine ⟨?_, choice.names_sublist.nodup (by decide)⟩
  cases choice
  rfl

/-- An answer option is accepted where its fields are. -/
theorem Choice.accepts_fields_iff (choice : Choice) :
    Definition.option.schema.Accepts choice.toJson ↔
      choice.id ≠ "" ∧ (∀ t, choice.text = some t → ∀ s ∈ t.samples, s.Exclusive) ∧
        (∀ f, choice.feedback = some f → Definition.feedback.schema.Accepts f.toJson) ∧
        ∀ r ∈ choice.resources, ∀ s ∈ r.samples, s.Exclusive := by
  have hrequired : ∀ name ∈ ["id"], name ∈ choice.toJson.names := by
    cases choice
    simp [Choice.toJson, Json.names, Json.members, Members.one]
  apply (accepts_closedObject_iff choice.isRecord_toJson).trans
  rw [and_iff_left hrequired]
  cases choice
  simp only [Choice.toJson, Json.members, membersFit_append, membersFit_one, membersFit_some?,
    membersFit_list?, membersFit_assoc?, membersFit_feedback, memberFits_cons_self,
    memberFits_cons_of_ne, ne_eq, String.reduceEq, not_false_eq_true]
  simp only [accepts_refTo_iff, accepts_id_iff, Text.accepts_iff, AnswerKey.accepts_toJson,
    accepts_tagsToJson, accepts_resources_iff, implies_true, and_true, and_assoc, ← ne_eq,
    forall_mem_of_ne_nil_iff]

theorem Page.names_sublist (page : Page) : page.toJson.names.Sublist
    ["id", "text", "options", "feedback", "correct", "resources", "condition", "tags", "ordered",
      "exclusive", "freetext", "keyboard", "runIf"] := by
  cases page
  simp only [Page.toJson, Json.names, Json.members, List.map_append]
  exact (((((((((((Members.names_one.append Members.names_one).append Choice.names_member).append
    Feedback.names_member).append Members.names_some?).append Members.names_list?).append
    Members.names_some?).append Members.names_assoc?).append Members.names_some?).append
    Members.names_some?).append Members.names_some?).append Members.names_some?).append
    Members.names_some?

theorem Page.isRecord_toJson (page : Page) : page.toJson.IsRecord := by
  refine ⟨?_, page.names_sublist.nodup (by decide)⟩
  cases page
  rfl

/-- A page is accepted where its fields are. -/
theorem Page.accepts_fields_iff (page : Page) :
    Definition.page.schema.Accepts page.toJson ↔
      page.id ≠ "" ∧ (∀ s ∈ page.text.samples, s.Exclusive) ∧
        (∀ choice ∈ page.choices, Definition.option.schema.Accepts choice.toJson) ∧
        (∀ f, page.feedback = some f → Definition.feedback.schema.Accepts f.toJson) ∧
        (∀ r ∈ page.resources, ∀ s ∈ r.samples, s.Exclusive) ∧
        (∀ t, page.condition = some t → ∀ s ∈ t.samples, s.Exclusive) ∧
        ∀ g, page.guard = some g → g.Fits := by
  have hrequired : ∀ name ∈ ["id", "text"], name ∈ page.toJson.names := by
    cases page
    simp [Page.toJson, Json.names, Json.members, Members.one]
  apply (accepts_closedObject_iff page.isRecord_toJson).trans
  rw [and_iff_left hrequired]
  cases page
  simp only [Page.toJson, Json.members, membersFit_append, membersFit_one, membersFit_some?,
    membersFit_list?, membersFit_assoc?, membersFit_feedback, membersFit_options,
    memberFits_cons_self, memberFits_cons_of_ne, ne_eq, String.reduceEq, not_false_eq_true]
  simp only [accepts_refTo_iff, accepts_id_iff, Text.accepts_iff, AnswerKey.accepts_toJson,
    PageText.accepts_iff, Keyboard.accepts_toJson, accepts_listOf_iff, Guard.accepts_iff,
    accepts_tagsToJson, accepts_resources_iff, accepts_kind_iff, Kind.holds, implies_true, and_true,
    and_assoc, ← ne_eq, List.forall_mem_map, forall_mem_of_ne_nil_iff]

/-! ### Feedback -/

theorem Text.not_accepts_page (label : Text) : ¬ Definition.page.schema.Accepts label.toJson := by
  intro h
  cases label with
  | literal value =>
      have hobject : ∃ k ∈ [Kind.object], k.holds (Text.literal value).toJson = true :=
        holds_of_accepts h (by simp)
      simp [Text.toJson, Kind.holds] at hobject
  | sample s =>
      have hrequired := ((accepts_closedObject_iff s.isRecord_toJson).mp h).2 "id" (by simp)
      exact absurd (s.names_sublist.subset hrequired) (by decide)

theorem Page.not_accepts_text (page : Page) : ¬ Definition.text.schema.Accepts page.toJson := by
  have hsample : ¬ Definition.sample.schema.Accepts page.toJson := by
    apply not_accepts_sample page.isRecord_toJson
    intro hname
    exact absurd (page.names_sublist.subset hname) (by decide)
  have hstring : Kind.string.holds page.toJson = false := by
    cases page
    rfl
  rw [Definition.schema]
  simp [hsample, hstring]

theorem Feedback.accepts_text_iff (label : Text) :
    Definition.feedback.schema.Accepts label.toJson ↔ ∀ s ∈ label.samples, s.Exclusive := by
  rw [Definition.schema]
  simp [label.not_accepts_page, Text.accepts_iff]

theorem Feedback.accepts_page_iff (page : Page) :
    Definition.feedback.schema.Accepts page.toJson ↔
      Definition.page.schema.Accepts page.toJson := by
  rw [Definition.schema]
  simp [page.not_accepts_text]

/-! ### Pages with all pages in them -/

mutual

/-- Feedback is accepted where its text or its pages fit. -/
theorem Feedback.accepts_iff : ∀ (feedback : Feedback),
    Definition.feedback.schema.Accepts feedback.toJson ↔
      (∀ s ∈ Feedback.ownSamples (some feedback), s.Exclusive) ∧
        ∀ page ∈ feedback.within, page.Fits
  | .text label => by
      simp only [Feedback.toJson, Feedback.accepts_text_iff, Feedback.ownSamples, Feedback.within]
      simp
  | .page shown => by
      simp only [Feedback.toJson, Feedback.accepts_page_iff, Feedback.ownSamples, Feedback.within]
      simpa using Page.accepts_iff shown

theorem Feedback.accepts_option_iff : ∀ (feedback : Option Feedback),
    (∀ f, feedback = some f → Definition.feedback.schema.Accepts f.toJson) ↔
      (∀ s ∈ Feedback.ownSamples feedback, s.Exclusive) ∧
        ∀ page ∈ Feedback.withinOption feedback, page.Fits
  | none => by simp [Feedback.ownSamples, Feedback.withinOption]
  | some feedback => by
      rw [Feedback.withinOption, ← Feedback.accepts_iff feedback]
      simp

/-- Answer options are accepted where their own fields and the pages in them fit. -/
theorem Choice.accepts_list_iff : ∀ (choices : List Choice),
    (∀ choice ∈ choices, Definition.option.schema.Accepts choice.toJson) ↔
      (∀ choice ∈ choices, choice.id ≠ "") ∧
        (∀ s ∈ choices.flatMap Choice.ownSamples, s.Exclusive) ∧
        ∀ page ∈ Choice.withinList choices, page.Fits
  | [] => by simp [Choice.withinList]
  | ⟨id, text, correct, feedback, resources, tags⟩ :: rest => by
      have hfeedback := Feedback.accepts_option_iff feedback
      have hrest := Choice.accepts_list_iff rest
      rw [List.forall_mem_cons, hrest, Choice.accepts_fields_iff, hfeedback]
      simp only [Choice.withinList, Choice.ownSamples, List.flatMap_cons, List.forall_mem_cons,
        List.forall_mem_append, forall_mem_toList_flatMap_iff, List.forall_mem_flatMap]
      constructor
      · intro haccepted
        rcases haccepted with ⟨⟨hid, htext, ⟨hown, hwithin⟩, hresources⟩, hids, hsamples, hpages⟩
        exact ⟨⟨hid, hids⟩, ⟨⟨⟨htext, hown⟩, hresources⟩, hsamples⟩, hwithin, hpages⟩
      · intro haccepted
        rcases haccepted with
          ⟨⟨hid, hids⟩, ⟨⟨⟨htext, hown⟩, hresources⟩, hsamples⟩, hwithin, hpages⟩
        exact ⟨⟨hid, htext, ⟨hown, hwithin⟩, hresources⟩, hids, hsamples, hpages⟩

/-- A page is accepted where it and the feedback pages in it fit. -/
theorem Page.accepts_iff : ∀ (page : Page),
    Definition.page.schema.Accepts page.toJson ↔ ∀ inner ∈ page.within, inner.Fits
  | ⟨id, text, choices, feedback, correct, resources, condition, tags, ordered, exclusive, freetext,
      keyboard, guard⟩ => by
      have hfeedback := Feedback.accepts_option_iff feedback
      have hchoices := Choice.accepts_list_iff choices
      rw [Page.accepts_fields_iff, hfeedback, hchoices]
      simp only [Page.within, List.cons_append, List.forall_mem_cons, List.forall_mem_append]
      constructor
      · intro haccepted
        rcases haccepted with ⟨hid, htext, ⟨hids, hchoices, hofChoices⟩, ⟨hown, hofPage⟩,
          hresources, hcondition, hguard⟩
        refine ⟨⟨hid, hids, ?_, hguard⟩, hofPage, hofChoices⟩
        simp only [Page.ownSamples, List.forall_mem_append, forall_mem_toList_flatMap_iff]
        exact ⟨⟨⟨⟨htext, hchoices⟩, hown⟩, List.forall_mem_flatMap.mpr hresources⟩, hcondition⟩
      · intro haccepted
        rcases haccepted with ⟨⟨hid, hids, hsamples, hguard⟩, hofPage, hofChoices⟩
        simp only [Page.ownSamples, List.forall_mem_append, forall_mem_toList_flatMap_iff]
          at hsamples
        obtain ⟨⟨⟨⟨htext, hchoices⟩, hown⟩, hresources⟩, hcondition⟩ := hsamples
        exact ⟨hid, htext, ⟨hids, hchoices, hofChoices⟩, ⟨hown, hofPage⟩,
          List.forall_mem_flatMap.mp hresources, hcondition, hguard⟩

end

/-! ### Items -/

theorem Item.names_sublist (item : Item) :
    item.toJson.names.Sublist ["id", "pages", "condition", "tags", "runIf"] := by
  simp only [Item.toJson, Json.names, Json.members, List.map_append]
  exact (((Members.names_one.append Members.names_one).append Members.names_some?).append
    Members.names_assoc?).append Members.names_some?

theorem accepts_pagesOfItem_iff {pages : List Page} :
    (Schema.all [.items (refTo .page), .minItems 1, .kinds [.array]]).Accepts
        (.arr (pages.map Page.toJson)) ↔
      pages ≠ [] ∧ ∀ page ∈ pages.flatMap Page.within, page.Fits := by
  simp only [accepts_all_cons_iff, accepts_all_nil, Keyword.accepts_items_iff,
    Keyword.accepts_minItems_iff, Keyword.accepts_kinds_iff, accepts_refTo_iff, Page.accepts_iff,
    List.forall_mem_map, List.forall_mem_flatMap]
  simp [Kind.holds, Nat.one_le_iff_ne_zero, List.length_eq_zero_iff, and_comm]

/-- An item is accepted where it and the pages in it fit. -/
theorem Item.accepts_iff (item : Item) : Definition.item.schema.Accepts item.toJson ↔
    item.Fits ∧ ∀ page ∈ item.pages.flatMap Page.within, page.Fits := by
  have hrecord : item.toJson.IsRecord := ⟨rfl, item.names_sublist.nodup (by decide)⟩
  have hrequired : ∀ name ∈ ["id", "pages"], name ∈ item.toJson.names := by
    simp [Item.toJson, Json.names, Json.members, Members.one]
  apply (accepts_closedObject_iff hrecord).trans
  rw [and_iff_left hrequired]
  simp only [Item.toJson, Json.members, membersFit_append, membersFit_one, membersFit_some?,
    membersFit_assoc?, memberFits_cons_self, memberFits_cons_of_ne, ne_eq, String.reduceEq,
    not_false_eq_true]
  rw [accepts_pagesOfItem_iff]
  simp only [accepts_refTo_iff, accepts_id_iff, Text.accepts_iff, Guard.accepts_iff,
    accepts_tagsToJson, implies_true, and_true]
  constructor
  · intro haccepted
    rcases haccepted with ⟨⟨⟨hid, hnonempty, hwithin⟩, hcondition⟩, hguard⟩
    exact ⟨⟨hid, hnonempty, forall_mem_toList_flatMap_iff.mpr hcondition, hguard⟩, hwithin⟩
  · intro haccepted
    rcases haccepted with ⟨h, hwithin⟩
    exact ⟨⟨⟨h.id, h.pages, hwithin⟩, forall_mem_toList_flatMap_iff.mp h.samples⟩, h.guard⟩

/-! ### Blocks -/

theorem Block.names_member {blocks : Option (List Block)} :
    ((Block.member blocks).map Prod.fst).Sublist ["blocks"] := by
  cases blocks with
  | none => exact List.nil_sublist _
  | some blocks => exact .refl _

theorem Block.toJsonList_eq (blocks : List Block) :
    Block.toJsonList blocks = blocks.map Block.toJson := by
  induction blocks with
  | nil => rfl
  | cons block rest ih => rw [Block.toJsonList, ih, List.map_cons]

theorem Block.member_eq (blocks : Option (List Block)) :
    Block.member blocks
      = Members.some? "blocks" (fun blocks => .arr (blocks.map Block.toJson)) blocks := by
  cases blocks <;> simp [Block.member, Members.some?, Block.toJsonList_eq]

theorem Block.names_sublist (block : Block) : block.toJson.names.Sublist
    ["id", "pages", "items", "groups", "blocks", "exchangeable", "counterbalance", "latinSquare",
      "pseudorandom", "criterion", "cutoff", "runIf", "banks"] := by
  cases block
  simp only [Block.toJson, Json.names, Json.members, List.map_append]
  exact (((((((((((Members.names_one.append Members.names_some?).append Members.names_some?).append
    Members.names_some?).append Block.names_member).append Members.names_list?).append
    Members.names_list?).append Members.names_some?).append Members.names_some?).append
    Members.names_some?).append Members.names_some?).append Members.names_some?).append
    Members.names_assoc?

theorem Block.isRecord_toJson (block : Block) : block.toJson.IsRecord := by
  refine ⟨?_, block.names_sublist.nodup (by decide)⟩
  cases block
  rfl

theorem Block.mem_names_iff (block : Block) :
    ("pages" ∈ block.toJson.names ↔ block.pages.isSome) ∧
      ("items" ∈ block.toJson.names ↔ block.items.isSome) ∧
      ("groups" ∈ block.toJson.names ↔ block.groups.isSome) ∧
      ("blocks" ∈ block.toJson.names ↔ block.blocks.isSome) ∧ "id" ∈ block.toJson.names := by
  cases block
  simp [Block.toJson, Json.names, Json.members, Block.member_eq, Members.one,
    Members.mem_names_some?_iff, Members.mem_names_list?_iff, Members.mem_names_assoc?_iff]

/-- The contents of a block are accepted where it has one kind of them. -/
theorem Block.accepts_contents_iff (block : Block) :
    (Keyword.oneOf [has ["pages"], has ["items"], has ["groups"], has ["blocks"]]).Accepts
      block.toJson ↔ block.kindCount = 1 := by
  obtain ⟨hpages, hitems, hgroups, hblocks, _⟩ := block.mem_names_iff
  have hfits : ∀ name (known : Bool), (name ∈ block.toJson.names ↔ known = true) →
      fitsSorted block.toJson (has [name]) = known := by
    intro name known hknown
    rw [Bool.eq_iff_iff, fitsSorted_iff, accepts_has_iff block.isRecord_toJson, ← hknown]
    simp
  rw [Keyword.accepts_oneOf_iff, Block.kindCount]
  simp only [List.countP_cons, List.countP_nil, List.count_cons, List.count_nil, hfits _ _ hpages,
    hfits _ _ hitems, hfits _ _ hgroups, hfits _ _ hblocks]
  simp

theorem accepts_idList_iff {ids : List String} :
    Definition.idList.schema.Accepts (.arr (ids.map .str)) ↔ ∀ id ∈ ids, id ≠ "" := by
  apply accepts_listOf_iff.trans
  simp only [List.forall_mem_map, accepts_id_iff]

theorem accepts_itemsToJson_iff {items : List Item} :
    Definition.items.schema.Accepts (itemsToJson items) ↔
      ∀ item ∈ items, Definition.item.schema.Accepts item.toJson := by
  apply accepts_listOf_iff.trans
  simp only [List.forall_mem_map]

theorem forall_entries_of_isEmpty_iff {α : Type} {P : String × α → Prop} {m : Assoc α} :
    (m.isEmpty = false → ∀ entry ∈ m.entries, P entry) ↔ ∀ entry ∈ m.entries, P entry := by
  unfold Assoc.isEmpty
  cases m.entries <;> simp

theorem forall_mem_getD_iff {α : Type} {P : α → Prop} {xs : Option (List α)} :
    (∀ x ∈ xs.getD [], P x) ↔ ∀ given, xs = some given → ∀ x ∈ given, P x := by
  cases xs <;> simp

theorem Block.accepts_keywords_iff {known : List (String × Schema)} (block : Block) :
    (Schema.all [.members known, .oneOf [has ["pages"], has ["items"], has ["groups"],
      has ["blocks"]], .required ["id"], .kinds [.object]]).Accepts block.toJson ↔
      MembersFit known block.toJson.members ∧ block.kindCount = 1 := by
  have hrecord := block.isRecord_toJson
  have hrequired : ∀ name ∈ ["id"], name ∈ block.toJson.names := by
    simp [block.mem_names_iff]
  simp only [accepts_all_cons_iff, accepts_all_nil, Keyword.accepts_members_iff hrecord,
    Block.accepts_contents_iff, Keyword.accepts_required_iff hrecord,
    Keyword.accepts_object hrecord, and_true, and_iff_left hrequired]

/-- A block is accepted where it fits and its contents are accepted. -/
theorem Block.accepts_fields_iff (block : Block) :
    Definition.block.schema.Accepts block.toJson ↔
      block.Fits ∧ (∀ page ∈ block.pages.getD [], Definition.page.schema.Accepts page.toJson) ∧
        (∀ item ∈ block.ownItems, Definition.item.schema.Accepts item.toJson) ∧
        ∀ inner ∈ block.blocks.getD [], Definition.block.schema.Accepts inner.toJson := by
  apply block.accepts_keywords_iff.trans
  cases block
  simp only [Block.toJson, Json.members, membersFit_append, membersFit_one, membersFit_some?,
    membersFit_list?, membersFit_assoc?, Block.member_eq, memberFits_cons_self,
    memberFits_cons_of_ne, ne_eq, String.reduceEq, not_false_eq_true]
  simp only [accepts_refTo_iff, accepts_listOf_iff, accepts_id_iff, accepts_idList_iff,
    accepts_itemsToJson_iff, accepts_kind_iff, Kind.holds, accepts_positive_iff,
    accepts_banksToJson_iff, Guard.accepts_iff, List.forall_mem_map, implies_true, and_true,
    ← ne_eq, forall_mem_of_ne_nil_iff, forall_entries_of_isEmpty_iff, Block.ownItems,
    List.forall_mem_append, List.forall_mem_flatten, forall_mem_getD_iff, and_assoc]
  constructor
  · intro haccepted
    rcases haccepted with ⟨hid, hpages, hitems, hgroups, hblocks, hexchangeable, hcounterbalance,
      hcriterion, hcutoff, hguard, hbanks, hcount⟩
    exact ⟨⟨hid, hcount, hexchangeable, hcounterbalance, hcriterion, hcutoff, hguard, hbanks⟩,
      hpages, hitems, hgroups, hblocks⟩
  · intro haccepted
    rcases haccepted with ⟨h, hpages, hitems, hgroups, hblocks⟩
    exact ⟨h.id, hpages, hitems, hgroups, hblocks, h.exchangeable, h.counterbalance, h.criterion,
      h.cutoff, h.guard, h.banks, h.contents⟩

/-! ### Documents -/

/-- Whether a block, its items and its pages, feedback pages included, fit by themselves. -/
structure Block.ContentsFit (block : Block) : Prop where
  own : block.Fits
  items : ∀ item ∈ block.ownItems, item.Fits
  pages : ∀ page ∈ block.ownPages.flatMap Page.within, page.Fits

theorem Block.accepts_contents_and_children_iff (block : Block) :
    Definition.block.schema.Accepts block.toJson ↔ block.ContentsFit ∧
      ∀ inner ∈ block.blocks.getD [], Definition.block.schema.Accepts inner.toJson := by
  have hownPages : (∀ page ∈ block.ownPages.flatMap Page.within, page.Fits) ↔
      (∀ page ∈ block.pages.getD [], ∀ inner ∈ page.within, inner.Fits) ∧
        ∀ item ∈ block.ownItems, ∀ page ∈ item.pages.flatMap Page.within, page.Fits := by
    simp only [Block.ownPages, List.flatMap_append, List.forall_mem_append,
      List.forall_mem_flatMap]
  rw [Block.accepts_fields_iff]
  simp only [Page.accepts_iff, Item.accepts_iff]
  constructor
  · intro haccepted
    rcases haccepted with ⟨hown, hpages, hitems, hblocks⟩
    refine ⟨⟨hown, fun item hitem => (hitems item hitem).1, hownPages.mpr ⟨hpages, ?_⟩⟩, hblocks⟩
    exact fun item hitem => (hitems item hitem).2
  · intro haccepted
    rcases haccepted with ⟨h, hblocks⟩
    obtain ⟨hpages, hofItems⟩ := hownPages.mp h.pages
    exact ⟨h.own, hpages, fun item hitem => ⟨h.items item hitem, hofItems item hitem⟩, hblocks⟩

mutual

/-- A block is accepted where all blocks in it fit with their contents. -/
theorem Block.accepts_iff : ∀ (block : Block),
    Definition.block.schema.Accepts block.toJson ↔ ∀ inner ∈ block.within, inner.ContentsFit
  | ⟨_, _, _, _, blocks, _, _, _, _, _, _, _, _⟩ => by
      rw [Block.accepts_contents_and_children_iff, Block.within, List.forall_mem_cons]
      exact and_congr Iff.rfl (Block.accepts_option_iff blocks)

theorem Block.accepts_option_iff : ∀ (blocks : Option (List Block)),
    (∀ block ∈ blocks.getD [], Definition.block.schema.Accepts block.toJson) ↔
      ∀ inner ∈ Block.withinOption blocks, inner.ContentsFit
  | none => by simp [Block.withinOption]
  | some blocks => Block.accepts_list_iff blocks

theorem Block.accepts_list_iff : ∀ (blocks : List Block),
    (∀ block ∈ blocks, Definition.block.schema.Accepts block.toJson) ↔
      ∀ inner ∈ Block.withinList blocks, inner.ContentsFit
  | [] => by simp [Block.withinList]
  | block :: rest => by
      rw [List.forall_mem_cons, Block.accepts_iff block, Block.accepts_list_iff rest,
        Block.withinList, List.forall_mem_append]

end

/-- A document is accepted where all its blocks fit with their contents and the root does. -/
theorem Experiment.accepts_iff (e : Experiment) : runner.Accepts e.toJson ↔
    (∀ block ∈ e.allBlocks, block.ContentsFit) ∧
      (∀ id ∈ e.exchangeable ++ e.counterbalance, id ≠ "") ∧
      ∀ declared ∈ e.banks.entries, declared.2 ≠ [] := by
  have hrecord : e.toJson.IsRecord := ⟨rfl, by simp [Experiment.toJson, Json.names, Json.members]⟩
  have hrequired : ∀ name ∈ ["blocks", "exchangeable", "counterbalance", "banks"],
      name ∈ e.toJson.names := by
    simp [Experiment.toJson, Json.names, Json.members]
  apply (accepts_closedObject_iff hrecord).trans
  rw [and_iff_left hrequired]
  simp only [Experiment.toJson, Json.members, Json.strings, membersFit_cons, membersFit_nil,
    memberFits_cons_self, memberFits_cons_of_ne, ne_eq, String.reduceEq, not_false_eq_true]
  simp only [accepts_refTo_iff, accepts_listOf_iff, Block.toJsonList_eq, List.forall_mem_map,
    accepts_idList_iff, accepts_banksToJson_iff, Block.accepts_list_iff, and_true, ← ne_eq]
  rw [List.forall_mem_append, and_assoc]
  rfl

end Paradigm.Document
