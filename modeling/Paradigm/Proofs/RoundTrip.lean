/-
Module: Paradigm.Proofs.RoundTrip
Layer: Proofs
Purpose: Reading undoes writing for the whole wire format. Each type of values is read back as it
  was written, order of labels, banks and record fields included; the one exception is a criterion
  that is no number, since JSON has none to write for it. Feedback inside pages inside feedback is
  followed by one induction over the three types of nodes, blocks inside blocks by another.
Imports: Paradigm.Proofs.Wire.Nodes
Main exports: Document.Page.lossless, Document.Block.lossless, Document.Experiment.lossless,
  Document.ofDraft_toJson
-/
import Paradigm.Proofs.Wire.Nodes

namespace Paradigm.Document

open Wire
open Json (Draft)

/-! ### Options and pages -/

theorem Choice.lossless_of_feedback (choice : Choice)
    (h : ∀ feedback, choice.feedback = some feedback → Feedback.codec.Lossless feedback) :
    Choice.codec.Lossless choice := by
  apply Record.lossless Choice.read_record choice.write_record
  simp only [Choice.record, List.forall_mem_cons]
  refine ⟨Codec.gives_field (Codec.text_lossless _), ?_, ?_, Codec.gives_optional h, ?_, ?_,
    by simp⟩
  · exact Codec.gives_optional fun label _ => label.lossless
  · exact Codec.gives_optional fun key _ => key.lossless
  · exact Codec.gives_defaulted (Codec.list_lossless fun r _ => r.lossless) List.isEmpty_iff.mp
  · exact Codec.gives_defaulted (tags_lossless _) Assoc.eq_empty_of_isEmpty

theorem Page.lossless_of_contents (page : Page)
    (hchoices : ∀ choice ∈ page.choices, Choice.codec.Lossless choice)
    (hfeedback : ∀ feedback, page.feedback = some feedback → Feedback.codec.Lossless feedback) :
    Page.codec.Lossless page := by
  apply Record.lossless Page.read_record page.write_record
  simp only [Page.record, List.forall_mem_cons]
  refine ⟨Codec.gives_field (Codec.text_lossless _), Codec.gives_field page.text.lossless, ?_,
    Codec.gives_optional hfeedback, ?_, ?_, ?_, ?_, ?_, ?_, ?_, ?_, ?_, by simp⟩
  · exact Codec.gives_defaulted (Codec.list_lossless hchoices) List.isEmpty_iff.mp
  · exact Codec.gives_optional fun key _ => key.lossless
  · exact Codec.gives_defaulted (Codec.list_lossless fun r _ => r.lossless) List.isEmpty_iff.mp
  · exact Codec.gives_optional fun condition _ => condition.lossless
  · exact Codec.gives_defaulted (tags_lossless _) Assoc.eq_empty_of_isEmpty
  · exact Codec.gives_optional fun ordered _ => Codec.flag_lossless ordered
  · exact Codec.gives_optional fun exclusive _ => Codec.flag_lossless exclusive
  · exact Codec.gives_optional fun freetext _ => Codec.flag_lossless freetext
  · exact Codec.gives_optional fun keyboard _ => keyboard.lossless
  · exact Codec.gives_optional fun g _ => g.lossless

/-- A page has no bank, so it is not taken for a text. -/
theorem Page.ofDraft_text_ne_ok (page : Page) (label : Text) :
    Text.ofDraft (.ofJson page.toJson) ≠ .ok label := by
  rw [page.isRecord_toJson.object]
  apply Text.ofDraft_ne_ok_of_missing
  intro hname
  exact absurd (page.names_sublist.subset hname) (by decide)

mutual

/-- Feedback is read back as it was written. -/
theorem Feedback.lossless : ∀ feedback : Feedback, Feedback.codec.Lossless feedback
  | .text label => by
      show Feedback.ofDraft (.ofJson label.toJson) = .ok (.text label)
      rw [Feedback.ofDraft]
      exact Draft.variants_first label.lossless
  | .page page => by
      show Feedback.ofDraft (.ofJson page.toJson) = .ok (.page page)
      rw [Feedback.ofDraft]
      exact Draft.variants_second page.ofDraft_text_ne_ok page.lossless

theorem Feedback.lossless_option : ∀ (feedback : Option Feedback) (f : Feedback),
    feedback = some f → Feedback.codec.Lossless f
  | none, _, h => by simp at h
  | some feedback, _, h => by
      cases h
      exact feedback.lossless

/-- Answer options are read back as they were written. -/
theorem Choice.lossless : ∀ choice : Choice, Choice.codec.Lossless choice
  | ⟨_, _, _, feedback, _, _⟩ =>
      Choice.lossless_of_feedback _ (Feedback.lossless_option feedback)

theorem Choice.lossless_list : ∀ choices : List Choice,
    ∀ choice ∈ choices, Choice.codec.Lossless choice
  | [] => by simp
  | choice :: rest => by
      rw [List.forall_mem_cons]
      exact ⟨choice.lossless, Choice.lossless_list rest⟩

/-- Pages are read back as they were written. -/
theorem Page.lossless : ∀ page : Page, Page.codec.Lossless page
  | ⟨_, _, choices, feedback, _, _, _, _, _, _, _, _, _⟩ =>
      Page.lossless_of_contents _ (Choice.lossless_list choices) (Feedback.lossless_option feedback)

end

/-! ### Items and blocks -/

/-- Items are read back as they were written. -/
theorem Item.lossless (item : Item) : Item.codec.Lossless item := by
  apply Record.lossless (fun _ => rfl) item.write_record
  simp only [Item.record, List.forall_mem_cons]
  refine ⟨Codec.gives_field (Codec.text_lossless _), ?_, ?_, ?_, ?_, by simp⟩
  · exact Codec.gives_field (Codec.list_lossless fun page _ => page.lossless)
  · exact Codec.gives_optional fun condition _ => condition.lossless
  · exact Codec.gives_defaulted (tags_lossless _) Assoc.eq_empty_of_isEmpty
  · exact Codec.gives_optional fun g _ => g.lossless

theorem items_lossless (items : List Item) : itemsCodec.Lossless items :=
  Codec.list_lossless fun item _ => Item.lossless item

/-- Whether the criterion of a block, if it has one, is a number. -/
def Block.CriterionFinite (block : Block) : Prop := ∀ c, block.criterion = some c → c.IsFinite

theorem Block.lossless_of_children (block : Block) (hcriterion : block.CriterionFinite)
    (h : ∀ inner ∈ block.blocks.getD [], Block.codec.Lossless inner) :
    Block.codec.Lossless block := by
  apply Record.lossless Block.read_record block.write_record
  simp only [Block.record, List.forall_mem_cons]
  refine ⟨Codec.gives_field (Codec.text_lossless _), ?_, ?_, ?_, ?_, ?_, ?_, ?_, ?_, ?_, ?_, ?_, ?_,
    by simp⟩
  · exact Codec.gives_optional fun pages _ => Codec.list_lossless fun page _ => page.lossless
  · exact Codec.gives_optional fun items _ => items_lossless items
  · exact Codec.gives_optional fun groups _ =>
      Codec.list_lossless fun items _ => items_lossless items
  · apply Codec.gives_optional
    intro blocks hblocks
    have hgiven : block.blocks.getD [] = blocks := congrArg (·.getD []) hblocks
    exact Codec.list_lossless (hgiven ▸ h)
  · apply Codec.gives_defaulted _ List.isEmpty_iff.mp
    exact Codec.list_lossless fun id _ => Codec.text_lossless id
  · apply Codec.gives_defaulted _ List.isEmpty_iff.mp
    exact Codec.list_lossless fun id _ => Codec.text_lossless id
  · exact Codec.gives_optional fun latinSquare _ => Codec.flag_lossless latinSquare
  · exact Codec.gives_optional fun pseudorandom _ => Codec.flag_lossless pseudorandom
  · exact Codec.gives_optional fun c hc => Criterion.lossless (hcriterion c hc)
  · exact Codec.gives_optional fun cutoff _ => Codec.word_lossless cutoff
  · exact Codec.gives_optional fun g _ => g.lossless
  · exact Codec.gives_defaulted (banks_lossless _) Assoc.eq_empty_of_isEmpty

mutual

/-- Blocks with criteria that are numbers are read back as they were written. -/
theorem Block.lossless : ∀ block : Block,
    (∀ inner ∈ block.within, inner.CriterionFinite) → Block.codec.Lossless block
  | ⟨_, _, _, _, blocks, _, _, _, _, _, _, _, _⟩, h => by
      rw [Block.within, List.forall_mem_cons] at h
      exact Block.lossless_of_children _ h.1 (Block.lossless_option blocks h.2)

theorem Block.lossless_option : ∀ blocks : Option (List Block),
    (∀ inner ∈ Block.withinOption blocks, inner.CriterionFinite) →
      ∀ block ∈ blocks.getD [], Block.codec.Lossless block
  | none, _ => by simp
  | some blocks, h => Block.lossless_list blocks h

theorem Block.lossless_list : ∀ blocks : List Block,
    (∀ inner ∈ Block.withinList blocks, inner.CriterionFinite) →
      ∀ block ∈ blocks, Block.codec.Lossless block
  | [], _ => by simp
  | block :: rest, h => by
      rw [Block.withinList, List.forall_mem_append] at h
      rw [List.forall_mem_cons]
      exact ⟨block.lossless h.1, Block.lossless_list rest h.2⟩

end

/-- A document with criteria that are numbers is read back as it was written. -/
theorem Experiment.lossless {e : Experiment} (h : ∀ block ∈ e.allBlocks, block.CriterionFinite) :
    Experiment.codec.Lossless e := by
  apply Record.lossless (fun _ => rfl) e.write_record
  simp only [Experiment.record, List.forall_mem_cons]
  refine ⟨?_, ?_, ?_, Codec.gives_field (banks_lossless _), by simp⟩
  · exact Codec.gives_field (Codec.list_lossless (Block.lossless_list e.blocks h))
  · exact Codec.gives_field (Codec.list_lossless fun id _ => Codec.text_lossless id)
  · exact Codec.gives_field (Codec.list_lossless fun id _ => Codec.text_lossless id)

/-! ### The wire format -/

/-- Reading undoes writing for every type of the wire format. -/
theorem ofDraft_toJson :
    (∀ s : Sample, Sample.ofDraft (.ofJson s.toJson) = .ok s) ∧
    (∀ t : Text, Text.ofDraft (.ofJson t.toJson) = .ok t) ∧
    (∀ t : PageText, PageText.ofDraft (.ofJson t.toJson) = .ok t) ∧
    (∀ key : AnswerKey, AnswerKey.ofDraft (.ofJson key.toJson) = .ok key) ∧
    (∀ keyboard : Keyboard, Keyboard.ofDraft (.ofJson keyboard.toJson) = .ok keyboard) ∧
    (∀ r : Resource, Resource.ofDraft (.ofJson r.toJson) = .ok r) ∧
    (∀ r : ResourceEntry, ResourceEntry.ofDraft (.ofJson r.toJson) = .ok r) ∧
    (∀ g : Guard, Guard.ofDraft (.ofJson g.toJson) = .ok g) ∧
    (∀ feedback : Feedback, Feedback.ofDraft (.ofJson feedback.toJson) = .ok feedback) ∧
    (∀ choice : Choice, Choice.ofDraft (.ofJson choice.toJson) = .ok choice) ∧
    (∀ page : Page, Page.ofDraft (.ofJson page.toJson) = .ok page) ∧
    (∀ item : Item, Item.ofDraft (.ofJson item.toJson) = .ok item) ∧
    (∀ block : Block, (∀ inner ∈ block.within, inner.CriterionFinite) →
      Block.ofDraft (.ofJson block.toJson) = .ok block) ∧
    (∀ e : Experiment, (∀ block ∈ e.allBlocks, block.CriterionFinite) →
      Experiment.ofDraft (.ofJson e.toJson) = .ok e) ∧
    (∀ c : Criterion, c.IsFinite → Criterion.ofDraft (.ofJson c.toJson) = .ok c) ∧
    (∀ entry : BankEntry, BankEntry.ofDraft (.ofJson entry.toJson) = .ok entry) ∧
    (∀ banks : Banks, banksOfDraft (.ofJson (banksToJson banks)) = .ok banks) :=
  ⟨Sample.lossless, Text.lossless, PageText.lossless, AnswerKey.lossless, Keyboard.lossless,
    Resource.lossless, ResourceEntry.lossless, Guard.lossless, Feedback.lossless, Choice.lossless,
    Page.lossless, Item.lossless, Block.lossless, fun _ => Experiment.lossless,
    fun _ => Criterion.lossless, BankEntry.lossless, banks_lossless⟩

/-- A document with criteria of each kind: a share of one, a share of one half, and a streak. -/
def Experiment.drill : Experiment where
  blocks :=
    [{ id := "drill"
       blocks := some
        [{ id := "halves"
           pages := some
            [{ id := "pair"
               text := .lines [.literal "Which one?", .sample { bank := "pets", slot := some 0 }]
               feedback := some (.page { id := "hint", text := .single (.literal "Look again") }) }]
           criterion := some (.proportion (.ofRatio false 1 2)) },
         { id := "streaks", items := some [], criterion := some (.streak (UInt32.ofNat 1)) }]
       exchangeable := ["halves", "streaks"]
       criterion := some (.proportion (.ofInt 1))
       banks := .ofList [("pets", [.text "cat", .record (.ofList [("name", "dog")])])] }]
  exchangeable := []
  counterbalance := []
  banks := .empty

/-- The drill is read back, a share of one as a share and a streak of one as a streak. -/
theorem ofDraft_toJson_drill :
    (∀ block ∈ Experiment.drill.allBlocks, block.CriterionFinite) ∧
      Experiment.ofDraft (.ofJson Experiment.drill.toJson) = .ok Experiment.drill ∧
      (∀ block ∈ Experiment.drill.blocks, Block.ofDraft (.ofJson block.toJson) = .ok block) ∧
      Criterion.ofDraft (.ofJson (Criterion.proportion (.ofInt 1)).toJson)
        = .ok (.proportion (.ofInt 1)) := by
  obtain ⟨-, -, -, -, -, -, -, -, -, -, -, -, hblock, hexperiment, hcriterion, -, -⟩ :=
    ofDraft_toJson
  have hwhole : (Binary64.ofInt 1).isFinite = true := by decide +kernel
  have hfinite : ∀ block ∈ Experiment.drill.allBlocks, block.CriterionFinite := by
    simp [Experiment.drill, Experiment.allBlocks, Block.withinList, Block.within,
      Block.withinOption, Block.CriterionFinite, Criterion.IsFinite]
    decide +kernel
  have hblocks : ∀ block ∈ Experiment.drill.blocks,
      ∀ inner ∈ block.within, inner.CriterionFinite := by
    simp only [Experiment.allBlocks, Experiment.drill, Block.withinList, List.append_nil]
      at hfinite ⊢
    rw [List.forall_mem_singleton]
    exact hfinite
  exact ⟨hfinite, hexperiment _ hfinite, fun block hmem => hblock block (hblocks block hmem),
    hcriterion _ hwhole⟩

end Paradigm.Document
