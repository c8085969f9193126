/-
Module: Paradigm.Proofs.Relabelling.Resolution
Layer: Proofs
Purpose: Resolution hands identifiers on, looks guards up in the index and names nodes in what it
  refuses. A tree and the relabelled tree, each against its own index and with its own registry,
  resolve side by side: to a document and the relabelled document, or to refusals for the same
  cause. Only a token that the second registry alone knows, or a moved slot past the end of its
  bank, sets them apart.
Imports: Paradigm.Proofs.Relabelling.Index, Paradigm.Proofs.Relabelling.Slots
Main exports: Gathered.Relabelled, Correspondence.resolution, Surroundings.Relabelled,
  Page.resolve_relabel, Item.resolve_relabel, Block.resolve_relabel, Experiment.resolve_relabel
-/
import Paradigm.Proofs.Relabelling.Index
import Paradigm.Proofs.Relabelling.Slots

namespace Paradigm

variable {c : Correspondence}

/-! ### Steps of resolution -/

/-- What two resolutions gather: the slots to be given out are moved, the declarations hold moved
slots, and the warnings correspond. -/
structure Gathered.Relabelled (r : Relabelling) (g g' : Gathered) : Prop where
  slots : r.MovesSlots g.slots g'.slots
  frames : List.Forall₂ (Frame.Relabelled r) g.frames g'.frames
  warnings : Warnings.Relabelled r g.warnings g'.warnings

theorem Gathered.Relabelled.start (c : Correspondence) :
    Gathered.Relabelled c.r (.start c.source.registry) (.start c.target.registry) :=
  ⟨c.movesSlots, .nil, .nil⟩

/-- Resolution side by side, with what sets two resolutions apart. -/
def Correspondence.resolution (c : Correspondence) : Comparison Gathered where
  alike := Gathered.Relabelled c.r
  reports := Failure.Relabelled c.r
  waived := c.Learnt
  tolerated := c.r.Overruns

theorem Resolving.lift_relabel {α β : Type} {change : α → β} {outcome : Except Failure α}
    {outcome' : Except Failure β} (h : Outcome.Relabelled c.r change outcome outcome') :
    Runs c.resolution change (Resolving.lift outcome) (Resolving.lift outcome') where
  onward := fun _ hpast => hpast.elim
  results := by
    intro g g' hstates
    cases h with
    | ok value => exact .ok hstates
    | error report => exact .error report hstates

/-- What comes after a check may rely on it. -/
theorem Resolving.check_relabel {α β : Type} {change : α → β} {verdict verdict' : Verdict}
    {k : Resolving α} {k' : Resolving β} (h : Verdict.Relabelled c.r verdict verdict')
    (rest : verdict = .ok () → Runs c.resolution change k k') :
    Runs c.resolution change (Resolving.lift verdict >>= fun _ => k)
      (Resolving.lift verdict' >>= fun _ => k') := by
  cases h with
  | ok u => exact rest rfl
  | error report =>
      exact ⟨fun _ hpast => hpast.elim, fun _ _ hstates => .error report hstates⟩

theorem Resolving.warn_relabel {warnings warnings' : List Warning}
    (h : Warnings.Relabelled c.r warnings warnings') :
    Runs c.resolution (fun u => u) (Resolving.warn warnings) (Resolving.warn warnings') where
  onward := fun _ hpast => hpast
  results := fun _ _ hstates =>
    .same ⟨hstates.slots, hstates.frames, List.rel_append hstates.warnings h⟩

theorem Resolving.openScope_relabel {owner owner' : String} (hnode : c.r.Takes owner owner')
    (banks : Banks) : Runs c.resolution (fun u => u) (Resolving.openScope owner banks)
      (Resolving.openScope owner' banks) where
  onward := fun _ hpast => hpast
  results := fun _ _ hstates =>
    .same ⟨hstates.slots, .cons ⟨hnode, rfl, .nil⟩ hstates.frames, hstates.warnings⟩

/-- Banks are checked with moved slots when their scope ends. -/
theorem Resolving.closeScope_relabel :
    Runs c.resolution (fun u => u) Resolving.closeScope Resolving.closeScope where
  onward := fun _ hpast => hpast.elim
  results := by
    rintro ⟨slots, frames, warnings⟩ ⟨slots', frames', warnings'⟩ ⟨hslots, hframes, hwarnings⟩
    cases hframes with
    | nil => exact .same ⟨hslots, .nil, hwarnings⟩
    | @cons frame frame' outer outer' head tail =>
        have hstates : Gathered.Relabelled c.r
            { slots := slots, frames := outer, warnings := warnings }
            { slots := slots', frames := outer', warnings := warnings' } :=
          ⟨hslots, tail, hwarnings⟩
        simp only [Resolving.closeScope]
        rcases Frame.check_relabel c.increasing head with hcheck | ⟨failure, hcheck, hoverruns⟩
        · generalize frame.check = verdict at hcheck ⊢
          generalize frame'.check = verdict' at hcheck ⊢
          cases hcheck with
          | ok u => exact .same hstates
          | error report => exact .error report hstates
        · rw [hcheck]
          exact .tolerated hoverruns

theorem Resolving.freshSlot_relabel (bank : String) :
    Runs c.resolution (c.r.slot bank) (Resolving.freshSlot bank) (Resolving.freshSlot bank) where
  onward := fun _ hpast => hpast
  results := by
    intro g g' hstates
    have hnext : c.r.slot bank (g.slots.upcoming bank) = g'.slots.upcoming bank :=
      hstates.slots bank 0
    have hok : Results c.resolution (c.r.slot bank)
        (.ok (g.slots.upcoming bank) { g with slots := (g.slots.fresh bank).2 })
        (.ok (c.r.slot bank (g.slots.upcoming bank))
          { g' with slots := (g'.slots.fresh bank).2 }) :=
      .ok ⟨hstates.slots.fresh bank, hstates.frames, hstates.warnings⟩
    rwa [hnext] at hok

theorem Resolving.bind_relabel {bank : String} {use use' : Use}
    (h : use.Relabelled c.r bank use') :
    Runs c.resolution (fun u => u) (Resolving.bind bank use) (Resolving.bind bank use') where
  onward := fun _ hpast => hpast.elim
  results := by
    intro g g' hstates
    unfold Resolving.bind
    rcases Frame.bind?_relabel hstates.frames h with
      ⟨hnone, hnone'⟩ | ⟨bound, bound', hbound, hbound', hframes⟩
    · rw [hnone, hnone']
      exact .error (.rule h.node (.undeclaredBank bank)) hstates
    · rw [hbound, hbound']
      exact .same ⟨hstates.slots, hframes, hstates.warnings⟩

theorem resolveOption_relabel {α β γ δ : Type} {given : α → γ} {change : β → δ}
    {step : α → Resolving β} {step' : γ → Resolving δ}
    (h : ∀ x, Runs c.resolution change (step x) (step' (given x))) (x : Option α) :
    Runs c.resolution (Option.map change) (resolveOption step x)
      (resolveOption step' (x.map given)) := by
  cases x with
  | none => exact Runs.pure rfl
  | some value =>
      apply Runs.bind (h value)
      intro resolved
      exact Runs.pure rfl

/-- The slot of a token is where the second registry has it, unless only that one knows the
token. -/
theorem tokenSlot_relabel {node node' : String} (hnode : c.r.Takes node node')
    (bank token : String) : Runs c.resolution (c.r.slot bank)
      (Resolving.lift (tokenSlot c.source.registry node bank token))
      (Resolving.lift (tokenSlot c.target.registry node' bank token)) := by
  unfold tokenSlot
  cases hslot : c.source.registry.slotOf bank token with
  | some slot =>
      rw [c.tokens hslot]
      exact Resolving.lift_relabel (.ok slot)
  | none =>
      cases hslot' : c.target.registry.slotOf bank token with
      | none => exact Resolving.lift_relabel (.refuse hnode (.unregisteredToken token bank))
      | some slot' =>
          have hlearnt : c.Learnt (.rule node (.unregisteredToken token bank)) :=
            ⟨node, token, bank, rfl, hslot, by simp [hslot']⟩
          exact ⟨fun _ hpast => hpast.elim, fun _ _ _ => .waived hlearnt⟩

/-! ### Texts and resources -/

/-- Surroundings beside those of the relabelled tree, each with the registry of its session. -/
structure Surroundings.Relabelled (c : Correspondence) (env env' : Surroundings) : Prop where
  index : env.index.Relabelled c.r env'.index
  registry : env.registry = c.source.registry
  registry' : env'.registry = c.target.registry

section Resolution

variable {env env' : Surroundings} {node node' : String} (henv : env.Relabelled c env')
  (hnode : c.r.Takes node node')
include henv hnode

/-- The slot of a placeholder is moved, be it that of its token or one of its own. -/
theorem Placeholder.slot_relabel (p : Placeholder) :
    Runs c.resolution (Slot.move (c.r.slot p.bank)) (p.slot env node) (p.slot env' node') := by
  unfold Placeholder.slot
  rw [henv.registry, henv.registry']
  cases p.draw with
  | fresh =>
      apply Runs.bind (Resolving.freshSlot_relabel p.bank)
      intro slot
      exact Runs.pure rfl
  | shared token =>
      apply Runs.bind (tokenSlot_relabel hnode p.bank token)
      intro slot
      exact Runs.pure rfl
  | unlike token =>
      apply Runs.bind (tokenSlot_relabel hnode p.bank token)
      intro slot
      exact Runs.pure rfl
  | replacing => exact Runs.pure rfl

theorem Placeholder.resolve_relabel (p : Placeholder) :
    Runs c.resolution (Document.Sample.relabel c.r) (p.resolve env node)
      (p.resolve env' node') := by
  apply Runs.bind (Placeholder.slot_relabel henv hnode p)
  intro slot
  have huse : Use.Relabelled c.r p.bank { node := node, field := p.field, slot := slot }
      { node := node', field := p.field, slot := slot.move (c.r.slot p.bank) } := ⟨hnode, rfl, rfl⟩
  apply Runs.bind (Resolving.bind_relabel huse)
  intro _
  apply Runs.pure
  cases slot <;> rfl

theorem Text.resolve_relabel (text : Text) :
    Runs c.resolution (Document.Text.relabel c.r) (text.resolve env node)
      (text.resolve env' node') := by
  cases text with
  | literal value => exact Runs.pure rfl
  | sample p =>
      apply Runs.bind (Placeholder.resolve_relabel henv hnode p)
      intro shown
      exact Runs.pure rfl

theorem Text.resolveOption_relabel (text : Option Text) :
    Runs c.resolution (Option.map (Document.Text.relabel c.r)) (Text.resolveOption env node text)
      (Text.resolveOption env' node' text) := by
  cases text with
  | none => exact Runs.pure rfl
  | some text =>
      apply Runs.bind (Text.resolve_relabel henv hnode text)
      intro shown
      exact Runs.pure rfl

theorem PageText.resolve_relabel (text : PageText) :
    Runs c.resolution (Document.PageText.relabel c.r) (text.resolve env node)
      (text.resolve env' node') := by
  cases text with
  | single text =>
      apply Runs.bind (Text.resolve_relabel henv hnode text)
      intro shown
      exact Runs.pure rfl
  | lines texts =>
      apply Runs.bind (Runs.mapM_same (Text.resolve_relabel henv hnode) texts)
      intro shown
      exact Runs.pure rfl

theorem ResourceEntry.resolve_relabel (entry : ResourceEntry) :
    Runs c.resolution (Document.ResourceEntry.relabel c.r) (entry.resolve env node)
      (entry.resolve env' node') := by
  cases entry with
  | file name => exact Runs.pure rfl
  | full resource =>
      apply Runs.bind (Text.resolve_relabel henv hnode resource.source)
      intro source
      exact Runs.pure rfl
  | sample p =>
      apply Runs.bind (Placeholder.resolve_relabel henv hnode p)
      intro shown
      exact Runs.pure rfl

/-- A guard that passed its check resolves to the relabelled guard. -/
theorem Guard.resolveOption_relabel {g : Option Guard} (h : Guard.checkOption g node = .ok ()) :
    Runs c.resolution (Option.map (Document.Guard.relabel c.r)) (Guard.resolveOption env node g)
      (Guard.resolveOption env' node' (g.map (Guard.relabel c.r))) :=
  Resolving.lift_relabel (Index.resolveOption_relabel c.injective henv.index hnode h)

end Resolution

/-! ### Pages -/

section Pages

variable {env env' : Surroundings} (henv : env.Relabelled c env')
include henv

/-- An answer option resolves beside the relabelled one where its feedback does. -/
theorem Choice.resolve_relabel_of_feedback (choice : Choice)
    (feedback : Runs c.resolution (Document.Feedback.relabelOption c.r)
      (Feedback.resolveOption env choice.id choice.feedback)
      (Feedback.resolveOption env' (c.r.name .choice choice.id)
        (Feedback.relabelOption c.r choice.feedback))) :
    Runs c.resolution (Document.Choice.relabel c.r) (choice.resolve env)
      ((choice.relabel c.r).resolve env') := by
  have hnode : c.r.Takes choice.id (c.r.name .choice choice.id) := .node .choice choice.id
  have hcheck := choice.check_relabel (r := c.r)
  cases choice
  rw [Choice.relabel] at hcheck ⊢
  rw [Choice.resolve, Choice.resolve]
  apply Resolving.check_relabel hcheck
  intro _
  apply Runs.bind (Text.resolveOption_relabel henv hnode _)
  intro text
  apply Runs.bind feedback
  intro shown
  apply Runs.bind (Runs.mapM_same (ResourceEntry.resolve_relabel henv hnode) _)
  intro resources
  apply Runs.pure
  rw [Document.Choice.relabel]

/-- A page resolves beside the relabelled one where its options and its feedback do. -/
theorem Page.resolve_relabel_of_parts (page : Page)
    (choices : Runs c.resolution (Document.Choice.relabelList c.r)
      (Choice.resolveList env page.choices)
      (Choice.resolveList env' (Choice.relabelList c.r page.choices)))
    (feedback : Runs c.resolution (Document.Feedback.relabelOption c.r)
      (Feedback.resolveOption env page.id page.feedback)
      (Feedback.resolveOption env' (c.r.name .page page.id)
        (Feedback.relabelOption c.r page.feedback))) :
    Runs c.resolution (Document.Page.relabel c.r) (page.resolve env)
      ((page.relabel c.r).resolve env') := by
  have hnode : c.r.Takes page.id (c.r.name .page page.id) := .node .page page.id
  have hcheck := page.check_relabel (r := c.r)
  have hguard := fun h : page.check = .ok () => (Page.check_eq_ok_iff.mp h).guard
  cases page
  rw [Page.relabel] at hcheck ⊢
  rw [Page.resolve, Page.resolve]
  apply Resolving.check_relabel hcheck
  intro hchecked
  apply Runs.bind (PageText.resolve_relabel henv hnode _)
  intro text
  apply Runs.bind choices
  intro options
  apply Runs.bind feedback
  intro shown
  apply Runs.bind (Runs.mapM_same (ResourceEntry.resolve_relabel henv hnode) _)
  intro resources
  apply Runs.bind (Text.resolveOption_relabel henv hnode _)
  intro condition
  apply Runs.bind (Guard.resolveOption_relabel henv hnode (hguard hchecked))
  intro guard
  apply Runs.pure
  rw [Document.Page.relabel]

end Pages

section Nodes

variable {env env' : Surroundings}

mutual

theorem Feedback.resolve_relabel (henv : env.Relabelled c env') {node node' : String}
    (hnode : c.r.Takes node node') : ∀ feedback : Feedback,
    Runs c.resolution (Document.Feedback.relabel c.r) (feedback.resolve env node)
      ((feedback.relabel c.r).resolve env' node')
  | .text label => by
      rw [Feedback.relabel, Feedback.resolve, Feedback.resolve]
      apply Runs.bind (Text.resolve_relabel henv hnode label)
      intro text
      apply Runs.pure
      rw [Document.Feedback.relabel]
  | .page shown => by
      rw [Feedback.relabel, Feedback.resolve, Feedback.resolve]
      apply Runs.bind (Page.resolve_relabel henv shown)
      intro document
      apply Runs.pure
      rw [Document.Feedback.relabel]

theorem Feedback.resolveOption_relabel (henv : env.Relabelled c env') {node node' : String}
    (hnode : c.r.Takes node node') : ∀ feedback : Option Feedback,
    Runs c.resolution (Document.Feedback.relabelOption c.r)
      (Feedback.resolveOption env node feedback)
      (Feedback.resolveOption env' node' (Feedback.relabelOption c.r feedback))
  | none => by
      rw [Feedback.relabelOption, Feedback.resolveOption, Feedback.resolveOption]
      apply Runs.pure
      rw [Document.Feedback.relabelOption]
  | some feedback => by
      rw [Feedback.relabelOption, Feedback.resolveOption, Feedback.resolveOption]
      apply Runs.bind (Feedback.resolve_relabel henv hnode feedback)
      intro shown
      apply Runs.pure
      rw [Document.Feedback.relabelOption]

theorem Choice.resolve_relabel (henv : env.Relabelled c env') : ∀ choice : Choice,
    Runs c.resolution (Document.Choice.relabel c.r) (choice.resolve env)
      ((choice.relabel c.r).resolve env')
  | ⟨id, _, _, feedback, _, _⟩ => by
      apply Choice.resolve_relabel_of_feedback henv
      exact Feedback.resolveOption_relabel henv (.node .choice id) feedback

theorem Choice.resolveList_relabel (henv : env.Relabelled c env') : ∀ choices : List Choice,
    Runs c.resolution (Document.Choice.relabelList c.r) (Choice.resolveList env choices)
      (Choice.resolveList env' (Choice.relabelList c.r choices))
  | [] => by
      rw [Choice.relabelList, Choice.resolveList, Choice.resolveList]
      apply Runs.pure
      rw [Document.Choice.relabelList]
  | choice :: rest => by
      rw [Choice.relabelList, Choice.resolveList, Choice.resolveList]
      apply Runs.bind (Choice.resolve_relabel henv choice)
      intro shown
      apply Runs.bind (Choice.resolveList_relabel henv rest)
      intro others
      apply Runs.pure
      rw [Document.Choice.relabelList]

/-- A page and the relabelled page resolve side by side. -/
theorem Page.resolve_relabel (henv : env.Relabelled c env') : ∀ page : Page,
    Runs c.resolution (Document.Page.relabel c.r) (page.resolve env)
      ((page.relabel c.r).resolve env')
  | ⟨id, _, choices, feedback, _, _, _, _, _, _, _, _, _⟩ => by
      apply Page.resolve_relabel_of_parts henv
      · exact Choice.resolveList_relabel henv choices
      · exact Feedback.resolveOption_relabel henv (.node .page id) feedback

end

/-! ### Items and blocks -/

/-- An item and the relabelled item resolve side by side. -/
theorem Item.resolve_relabel (henv : env.Relabelled c env') (item : Item) :
    Runs c.resolution (Document.Item.relabel c.r) (item.resolve env)
      ((item.relabel c.r).resolve env') := by
  have hnode : c.r.Takes item.id (c.r.name .item item.id) := .node .item item.id
  unfold Item.resolve
  rw [Item.pages_relabel]
  apply Resolving.check_relabel item.check_relabel
  intro hchecked
  have hguard := (Item.check_eq_ok_iff.mp hchecked).guard
  apply Runs.bind (Runs.mapM (Page.resolve_relabel henv) item.pages)
  intro pages
  apply Runs.bind (Text.resolveOption_relabel henv hnode item.condition)
  intro condition
  apply Runs.bind (Guard.resolveOption_relabel henv hnode hguard)
  intro guard
  exact Runs.pure rfl

/-- A block resolves beside the relabelled one where its children do. -/
theorem Block.resolve_relabel_of_children (henv : env.Relabelled c env') (block : Block)
    (children : Runs c.resolution (Document.Block.relabelOption c.r)
      (Block.resolveChildren env block.blocks)
      (Block.resolveChildren env' (Block.relabelOption c.r block.blocks))) :
    Runs c.resolution (Document.Block.relabel c.r) (block.resolve env)
      ((block.relabel c.r).resolve env') := by
  have hnode : c.r.Takes block.id (c.r.name .block block.id) := .node .block block.id
  have hnotices := block.notices_relabel (c.injective .block)
  have hcheck := block.check_relabel (c.injective .block)
  have hguard := fun h : block.check = .ok () => (Block.check_eq_ok_iff.mp h).guard
  cases block
  rw [Block.relabel] at hnotices hcheck ⊢
  rw [Block.resolve, Block.resolve]
  apply Runs.bind (Resolving.warn_relabel hnotices)
  intro _
  apply Resolving.check_relabel hcheck
  intro hchecked
  apply Runs.bind (Resolving.openScope_relabel hnode _)
  intro _
  apply Runs.bind (resolveOption_relabel (Runs.mapM (Page.resolve_relabel henv)) _)
  intro pages
  apply Runs.bind (resolveOption_relabel (Runs.mapM (Item.resolve_relabel henv)) _)
  intro items
  apply Runs.bind
    (resolveOption_relabel (Runs.mapM (Runs.mapM (Item.resolve_relabel henv))) _)
  intro groups
  apply Runs.bind children
  intro blocks
  apply Runs.bind (Guard.resolveOption_relabel henv hnode (hguard hchecked))
  intro guard
  apply Runs.bind Resolving.closeScope_relabel
  intro _
  apply Runs.pure
  rw [Document.Block.relabel]

mutual

/-- A block and the relabelled block resolve side by side. -/
theorem Block.resolve_relabel (henv : env.Relabelled c env') : ∀ block : Block,
    Runs c.resolution (Document.Block.relabel c.r) (block.resolve env)
      ((block.relabel c.r).resolve env')
  | ⟨_, _, _, _, blocks, _, _, _, _, _, _, _, _, _⟩ => by
      apply Block.resolve_relabel_of_children henv
      exact Block.resolveChildren_relabel henv blocks

theorem Block.resolveChildren_relabel (henv : env.Relabelled c env') :
    ∀ blocks : Option (List Block),
    Runs c.resolution (Document.Block.relabelOption c.r) (Block.resolveChildren env blocks)
      (Block.resolveChildren env' (Block.relabelOption c.r blocks))
  | none => by
      rw [Block.relabelOption, Block.resolveChildren, Block.resolveChildren]
      apply Runs.pure
      rw [Document.Block.relabelOption]
  | some blocks => by
      rw [Block.relabelOption, Block.resolveChildren, Block.resolveChildren]
      apply Runs.bind (Block.resolveList_relabel henv blocks)
      intro documents
      apply Runs.pure
      rw [Document.Block.relabelOption]

theorem Block.resolveList_relabel (henv : env.Relabelled c env') : ∀ blocks : List Block,
    Runs c.resolution (Document.Block.relabelList c.r) (Block.resolveList env blocks)
      (Block.resolveList env' (Block.relabelList c.r blocks))
  | [] => by
      rw [Block.relabelList, Block.resolveList, Block.resolveList]
      apply Runs.pure
      rw [Document.Block.relabelList]
  | block :: rest => by
      rw [Block.relabelList, Block.resolveList, Block.resolveList]
      apply Runs.bind (Block.resolve_relabel henv block)
      intro shown
      apply Runs.bind (Block.resolveList_relabel henv rest)
      intro others
      apply Runs.pure
      rw [Document.Block.relabelList]

end

/-- A tree and the relabelled tree resolve side by side. -/
theorem Experiment.resolve_relabel (henv : env.Relabelled c env') (e : Experiment) :
    Runs c.resolution (Document.Experiment.relabel c.r) (e.resolve env)
      ((e.relabel c.r).resolve env') := by
  have hblocks := Block.resolveList_relabel henv e.blocks
  rw [Block.relabelList_eq] at hblocks
  apply Runs.bind (Resolving.openScope_relabel .root _)
  intro _
  apply Runs.bind hblocks
  intro blocks
  apply Runs.bind Resolving.closeScope_relabel
  intro _
  apply Runs.pure
  rw [Document.Block.relabelList_eq]
  rfl

end Nodes

end Paradigm
