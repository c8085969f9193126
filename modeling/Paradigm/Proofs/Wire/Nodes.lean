/-
Module: Paradigm.Proofs.Wire.Nodes
Layer: Proofs
Purpose: The nodes of a document as records of their fields: answer options, pages, items, blocks
  and the whole document. Readers that go down recursively are brought into the form of the others,
  so a node is read where its fields are, whatever stands in them.
Imports: Paradigm.Proofs.Schema.Nodes, Paradigm.Proofs.Wire.Values
Main exports: Document.Choice.record, Document.Page.record, Document.Item.record,
  Document.Block.record, Document.Experiment.record, Document.Page.codec, Document.Block.codec
-/
import Paradigm.Proofs.Schema.Nodes
import Paradigm.Proofs.Wire.Values

namespace Paradigm.Document

open Wire
open Json (Draft Refusal)

/-! ### Feedback, answer options and pages -/

theorem Page.ofDraft_null (page : Page) : Page.ofDraft .null ≠ .ok page := by
  rw [Page.ofDraft]
  simp [Draft.record]

/-- Feedback. -/
def Feedback.codec : Codec Feedback where
  read := Feedback.ofDraft
  write := Feedback.toJson
  refusesNull feedback := by
    rw [Feedback.ofDraft]
    exact Draft.variants_ne_ok Text.codec.refusesNull Page.ofDraft_null feedback

/-- Puts any field into an answer option. -/
def Choice.putAny (choice : Choice) (name : String) (d : Draft) : Except Refusal Choice :=
  if name = "feedback" then do
    return { choice with feedback := (← d.asOption Feedback.ofDraft) }
  else choice.put name d

/-- The fields of an answer option. -/
def Choice.record : Record Choice where
  fields := Choice.fields
  put := Choice.putAny
  entries choice :=
    [⟨Codec.text.field "id", choice.id⟩, ⟨Text.codec.optional "text", choice.text⟩,
      ⟨AnswerKey.codec.optional "correct", choice.correct⟩,
      ⟨Feedback.codec.optional "feedback", choice.feedback⟩,
      ⟨ResourceEntry.codec.list.defaulted "resources" [] List.isEmpty, choice.resources⟩,
      ⟨tagsCodec.defaulted "tags" .empty Assoc.isEmpty, choice.tags⟩]
  partly choice seen :=
    { id := whenSeen seen "id" choice.id ""
      text := whenSeen seen "text" choice.text none
      correct := whenSeen seen "correct" choice.correct none
      feedback := whenSeen seen "feedback" choice.feedback none
      resources := whenSeen seen "resources" choice.resources []
      tags := whenSeen seen "tags" choice.tags .empty }
  blank := { id := "" }
  names _ := rfl
  distinct := by decide
  needed choice := by
    simp [Entry.name, Codec.field, Codec.optional, Codec.defaulted, Choice.fields]
  partly_nil _ := by simp
  put_partly choice := by
    simp only [List.forall_mem_cons, Entry.name, Codec.field, Codec.optional, Codec.defaulted,
      Codec.text, Text.codec, AnswerKey.codec, Feedback.codec, Codec.list_read, ResourceEntry.codec,
      tagsCodec]
    refine ⟨?_, ?_, ?_, ?_, ?_, ?_, by simp⟩
    all_goals
      intro d hread seen
      simp [Choice.putAny, Choice.put, hread, bind, Except.bind, pure, Except.pure]
  partly_eq choice seen h := by
    simp only [List.forall_mem_cons, Entry.name, Codec.field, Codec.optional, Codec.defaulted,
      Option.some.injEq, reduceCtorEq, or_false] at h
    obtain ⟨hid, htext, hcorrect, hfeedback, hresources, htags, -⟩ := h
    cases choice
    simp only [whenSeen_eq (.inl hid), whenSeen_eq htext, whenSeen_eq hcorrect,
      whenSeen_eq hfeedback, whenSeen_eq hresources, whenSeen_eq htags]

theorem Choice.read_record (d : Draft) : Choice.record.read d = Choice.ofDraft d := by
  rw [Choice.ofDraft]
  unfold Record.read
  congr 1
  funext choice name x _
  by_cases hname : name = "feedback"
  · subst hname
    cases x with
    | null => rfl
    | _ => exact bind_map_left some _ _
  · simp [Choice.record, Choice.putAny, hname]

theorem Feedback.member_eq (feedback : Option Feedback) :
    Feedback.member feedback = Members.some? "feedback" Feedback.toJson feedback := by
  cases feedback <;> rfl

theorem Choice.write_record (choice : Choice) : Choice.record.write choice = choice.toJson := by
  cases choice
  simp [Record.write, Choice.record, Choice.toJson, Feedback.member_eq, Codec.text, Text.codec,
    AnswerKey.codec, Feedback.codec, ResourceEntry.codec, tagsCodec]

/-- Answer options. -/
def Choice.codec : Codec Choice where
  read := Choice.ofDraft
  write := Choice.toJson
  refusesNull choice := by
    rw [← Choice.read_record]
    exact Choice.record.read_null choice

/-- Puts any field into a page. -/
def Page.putAny (page : Page) (name : String) (d : Draft) : Except Refusal Page :=
  if name = "feedback" then do
    return { page with feedback := (← d.asOption Feedback.ofDraft) }
  else if name = "options" then do
    return { page with choices := (← Draft.asList Choice.ofDraft d) }
  else page.put name d

/-- The fields of a page. -/
def Page.record : Record Page where
  fields := Page.fields
  put := Page.putAny
  entries page :=
    [⟨Codec.text.field "id", page.id⟩, ⟨PageText.codec.field "text", page.text⟩,
      ⟨Choice.codec.list.defaulted "options" [] List.isEmpty, page.choices⟩,
      ⟨Feedback.codec.optional "feedback", page.feedback⟩,
      ⟨AnswerKey.codec.optional "correct", page.correct⟩,
      ⟨ResourceEntry.codec.list.defaulted "resources" [] List.isEmpty, page.resources⟩,
      ⟨Text.codec.optional "condition", page.condition⟩,
      ⟨tagsCodec.defaulted "tags" .empty Assoc.isEmpty, page.tags⟩,
      ⟨Codec.flag.optional "ordered", page.ordered⟩,
      ⟨Codec.flag.optional "exclusive", page.exclusive⟩,
      ⟨Codec.flag.optional "freetext", page.freetext⟩,
      ⟨Keyboard.codec.optional "keyboard", page.keyboard⟩,
      ⟨Guard.codec.optional "runIf", page.guard⟩]
  partly page seen :=
    { id := whenSeen seen "id" page.id ""
      text := whenSeen seen "text" page.text (.lines [])
      choices := whenSeen seen "options" page.choices []
      feedback := whenSeen seen "feedback" page.feedback none
      correct := whenSeen seen "correct" page.correct none
      resources := whenSeen seen "resources" page.resources []
      condition := whenSeen seen "condition" page.condition none
      tags := whenSeen seen "tags" page.tags .empty
      ordered := whenSeen seen "ordered" page.ordered none
      exclusive := whenSeen seen "exclusive" page.exclusive none
      freetext := whenSeen seen "freetext" page.freetext none
      keyboard := whenSeen seen "keyboard" page.keyboard none
      guard := whenSeen seen "runIf" page.guard none }
  blank := Page.blank
  names _ := rfl
  distinct := by decide
  needed page := by
    simp [Entry.name, Codec.field, Codec.optional, Codec.defaulted, Page.fields]
  partly_nil _ := by simp [Page.blank]
  put_partly page := by
    simp only [List.forall_mem_cons, Entry.name, Codec.field, Codec.optional, Codec.defaulted,
      Codec.text, PageText.codec, Codec.list_read, Choice.codec, Feedback.codec, AnswerKey.codec,
      ResourceEntry.codec, Text.codec, tagsCodec, Codec.flag, Keyboard.codec, Guard.codec]
    refine ⟨?_, ?_, ?_, ?_, ?_, ?_, ?_, ?_, ?_, ?_, ?_, ?_, ?_, by simp⟩
    all_goals
      intro d hread seen
      simp [Page.putAny, Page.put, hread, bind, Except.bind, pure, Except.pure]
  partly_eq page seen h := by
    simp only [List.forall_mem_cons, Entry.name, Codec.field, Codec.optional, Codec.defaulted,
      Option.some.injEq, reduceCtorEq, or_false] at h
    obtain ⟨hid, htext, hchoices, hfeedback, hcorrect, hresources, hcondition, htags, hordered,
      hexclusive, hfreetext, hkeyboard, hguard, -⟩ := h
    cases page
    simp only [whenSeen_eq (.inl hid), whenSeen_eq (.inl htext), whenSeen_eq hchoices,
      whenSeen_eq hfeedback, whenSeen_eq hcorrect, whenSeen_eq hresources,
      whenSeen_eq hcondition, whenSeen_eq htags, whenSeen_eq hordered, whenSeen_eq hexclusive,
      whenSeen_eq hfreetext, whenSeen_eq hkeyboard, whenSeen_eq hguard]

theorem Page.read_record (d : Draft) : Page.record.read d = Page.ofDraft d := by
  rw [Page.ofDraft]
  unfold Record.read
  congr 1
  funext page name x _
  by_cases hfeedback : name = "feedback"
  · subst hfeedback
    cases x with
    | null => rfl
    | _ => exact bind_map_left some _ _
  · by_cases hoptions : name = "options"
    · subst hoptions
      rfl
    · simp [Page.record, Page.putAny, hfeedback, hoptions]

theorem Choice.member_eq (choices : List Choice) :
    Choice.member choices = Members.list? "options" Choice.toJson choices := by
  cases choices <;> simp [Choice.member, Members.list?, Choice.toJsonList_eq]

theorem Page.write_record (page : Page) : Page.record.write page = page.toJson := by
  cases page
  simp [Record.write, Page.record, Page.toJson, Feedback.member_eq, Choice.member_eq, Codec.text,
    Codec.flag, PageText.codec, Choice.codec, Feedback.codec, AnswerKey.codec,
    ResourceEntry.codec, Text.codec, tagsCodec, Keyboard.codec, Guard.codec]

/-- Pages. -/
def Page.codec : Codec Page := ⟨Page.ofDraft, Page.toJson, Page.ofDraft_null⟩

/-! ### Items -/

/-- The fields of an item. -/
def Item.record : Record Item where
  fields := Item.fields
  put := Item.put
  entries item :=
    [⟨Codec.text.field "id", item.id⟩, ⟨Page.codec.list.field "pages", item.pages⟩,
      ⟨Text.codec.optional "condition", item.condition⟩,
      ⟨tagsCodec.defaulted "tags" .empty Assoc.isEmpty, item.tags⟩,
      ⟨Guard.codec.optional "runIf", item.guard⟩]
  partly item seen :=
    { id := whenSeen seen "id" item.id ""
      pages := whenSeen seen "pages" item.pages []
      condition := whenSeen seen "condition" item.condition none
      tags := whenSeen seen "tags" item.tags .empty
      guard := whenSeen seen "runIf" item.guard none }
  blank := { id := "", pages := [] }
  names _ := rfl
  distinct := by decide
  needed item := by
    simp [Entry.name, Codec.field, Codec.optional, Codec.defaulted, Item.fields]
  partly_nil _ := by simp
  put_partly item := by
    simp only [List.forall_mem_cons, Entry.name, Codec.field, Codec.optional, Codec.defaulted,
      Codec.text, Codec.list_read, Page.codec, Text.codec, tagsCodec, Guard.codec]
    refine ⟨?_, ?_, ?_, ?_, ?_, by simp⟩
    all_goals
      intro d hread seen
      simp [Item.put, hread, bind, Except.bind, pure, Except.pure]
  partly_eq item seen h := by
    simp only [List.forall_mem_cons, Entry.name, Codec.field, Codec.optional, Codec.defaulted,
      Option.some.injEq, reduceCtorEq, or_false] at h
    obtain ⟨hid, hpages, hcondition, htags, hguard, -⟩ := h
    simp only [whenSeen_eq (.inl hid), whenSeen_eq (.inl hpages), whenSeen_eq hcondition,
      whenSeen_eq htags, whenSeen_eq hguard]

theorem Item.write_record (item : Item) : Item.record.write item = item.toJson := by
  simp [Record.write, Item.record, Item.toJson, Codec.text, Page.codec, Text.codec, tagsCodec,
    Guard.codec]

/-- Items. -/
def Item.codec : Codec Item := ⟨Item.ofDraft, Item.toJson, Item.record.read_null⟩

/-- Items in order. -/
def itemsCodec : Codec (List Item) := ⟨itemsOfDraft, itemsToJson, Item.codec.list.refusesNull⟩

/-! ### Blocks -/

theorem Block.ofDraft_null (block : Block) : Block.ofDraft .null ≠ .ok block := by
  rw [Block.ofDraft]
  simp [Draft.record]

/-- Blocks. -/
def Block.codec : Codec Block := ⟨Block.ofDraft, Block.toJson, Block.ofDraft_null⟩

/-- Puts any field into a block. -/
def Block.putAny (block : Block) (name : String) (d : Draft) : Except Refusal Block :=
  if name = "blocks" then do
    return { block with blocks := (← d.asOption (Draft.asList Block.ofDraft)) }
  else block.put name d

/-- The fields of a block. -/
def Block.record : Record Block where
  fields := Block.fields
  put := Block.putAny
  entries block :=
    [⟨Codec.text.field "id", block.id⟩, ⟨Page.codec.list.optional "pages", block.pages⟩,
      ⟨itemsCodec.optional "items", block.items⟩,
      ⟨itemsCodec.list.optional "groups", block.groups⟩,
      ⟨Block.codec.list.optional "blocks", block.blocks⟩,
      ⟨Codec.text.list.defaulted "exchangeable" [] List.isEmpty, block.exchangeable⟩,
      ⟨Codec.text.list.defaulted "counterbalance" [] List.isEmpty, block.counterbalance⟩,
      ⟨Codec.flag.optional "latinSquare", block.latinSquare⟩,
      ⟨Codec.flag.optional "pseudorandom", block.pseudorandom⟩,
      ⟨Criterion.codec.optional "criterion", block.criterion⟩,
      ⟨Codec.word.optional "cutoff", block.cutoff⟩, ⟨Guard.codec.optional "runIf", block.guard⟩,
      ⟨banksCodec.defaulted "banks" .empty Assoc.isEmpty, block.banks⟩]
  partly block seen :=
    { id := whenSeen seen "id" block.id ""
      pages := whenSeen seen "pages" block.pages none
      items := whenSeen seen "items" block.items none
      groups := whenSeen seen "groups" block.groups none
      blocks := whenSeen seen "blocks" block.blocks none
      exchangeable := whenSeen seen "exchangeable" block.exchangeable []
      counterbalance := whenSeen seen "counterbalance" block.counterbalance []
      latinSquare := whenSeen seen "latinSquare" block.latinSquare none
      pseudorandom := whenSeen seen "pseudorandom" block.pseudorandom none
      criterion := whenSeen seen "criterion" block.criterion none
      cutoff := whenSeen seen "cutoff" block.cutoff none
      guard := whenSeen seen "runIf" block.guard none
      banks := whenSeen seen "banks" block.banks .empty }
  blank := { id := "" }
  names _ := rfl
  distinct := by decide
  needed block := by
    simp [Entry.name, Codec.field, Codec.optional, Codec.defaulted, Block.fields]
  partly_nil _ := by simp
  put_partly block := by
    simp only [List.forall_mem_cons, Entry.name, Codec.field, Codec.optional, Codec.defaulted,
      Codec.text, Codec.list_read, Page.codec, itemsCodec, Block.codec, Codec.flag,
      Criterion.codec, Codec.word, Guard.codec, banksCodec]
    refine ⟨?_, ?_, ?_, ?_, ?_, ?_, ?_, ?_, ?_, ?_, ?_, ?_, ?_, by simp⟩
    all_goals
      intro d hread seen
      simp [Block.putAny, Block.put, hread, bind, Except.bind, pure, Except.pure]
  partly_eq block seen h := by
    simp only [List.forall_mem_cons, Entry.name, Codec.field, Codec.optional, Codec.defaulted,
      Option.some.injEq, reduceCtorEq, or_false] at h
    obtain ⟨hid, hpages, hitems, hgroups, hblocks, hexchangeable, hcounterbalance, hlatin, hpseudo,
      hcriterion, hcutoff, hguard, hbanks, -⟩ := h
    cases block
    simp only [whenSeen_eq (.inl hid), whenSeen_eq hpages, whenSeen_eq hitems,
      whenSeen_eq hgroups, whenSeen_eq hblocks, whenSeen_eq hexchangeable,
      whenSeen_eq hcounterbalance, whenSeen_eq hlatin, whenSeen_eq hpseudo,
      whenSeen_eq hcriterion, whenSeen_eq hcutoff, whenSeen_eq hguard, whenSeen_eq hbanks]

theorem Block.read_record (d : Draft) : Block.record.read d = Block.ofDraft d := by
  rw [Block.ofDraft]
  unfold Record.read
  congr 1
  funext block name x _
  by_cases hname : name = "blocks"
  · subst hname
    cases x with
    | null => rfl
    | _ => exact bind_map_left some _ _
  · simp [Block.record, Block.putAny, hname]

theorem Block.write_record (block : Block) : Block.record.write block = block.toJson := by
  cases block
  simp [Record.write, Block.record, Block.toJson, Block.member_eq, Codec.text, Codec.flag,
    Codec.word, Page.codec, itemsCodec, Block.codec, Criterion.codec, Guard.codec, banksCodec]

/-! ### Documents -/

/-- The fields of a whole document. -/
def Experiment.record : Record Experiment where
  fields := Experiment.fields
  put := Experiment.put
  entries e :=
    [⟨Block.codec.list.field "blocks", e.blocks⟩,
      ⟨Codec.text.list.field "exchangeable", e.exchangeable⟩,
      ⟨Codec.text.list.field "counterbalance", e.counterbalance⟩,
      ⟨banksCodec.field "banks", e.banks⟩]
  partly e seen :=
    { blocks := whenSeen seen "blocks" e.blocks []
      exchangeable := whenSeen seen "exchangeable" e.exchangeable []
      counterbalance := whenSeen seen "counterbalance" e.counterbalance []
      banks := whenSeen seen "banks" e.banks .empty }
  blank := { blocks := [], exchangeable := [], counterbalance := [], banks := .empty }
  names _ := rfl
  distinct := by decide
  needed e := by simp [Entry.name, Codec.field, Experiment.fields]
  partly_nil _ := by simp
  put_partly e := by
    simp only [List.forall_mem_cons, Entry.name, Codec.field, Codec.list_read, Codec.text,
      Block.codec, banksCodec]
    refine ⟨?_, ?_, ?_, ?_, by simp⟩
    all_goals
      intro d hread seen
      simp [Experiment.put, hread, bind, Except.bind, pure, Except.pure]
  partly_eq e seen h := by
    simp only [List.forall_mem_cons, Entry.name, Codec.field, reduceCtorEq, or_false] at h
    obtain ⟨hblocks, hexchangeable, hcounterbalance, hbanks, -⟩ := h
    simp only [whenSeen_eq (.inl hblocks), whenSeen_eq (.inl hexchangeable),
      whenSeen_eq (.inl hcounterbalance), whenSeen_eq (.inl hbanks)]

theorem Experiment.write_record (e : Experiment) : Experiment.record.write e = e.toJson := by
  simp [Record.write, Experiment.record, Experiment.toJson, Block.toJsonList_eq, Members.one,
    Json.strings, Codec.text, Block.codec, banksCodec]

/-- Whole documents. -/
def Experiment.codec : Codec Experiment :=
  ⟨Experiment.ofDraft, Experiment.toJson, Experiment.record.read_null⟩

end Paradigm.Document
