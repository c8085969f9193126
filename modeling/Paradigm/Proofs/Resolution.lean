/-
Module: Paradigm.Proofs.Resolution
Layer: Proofs
Purpose: What resolution gives. A tree is related to its document node by node: every node passed
  its check, guards are those of the index, and all else is carried over. Beside the relation stands
  what happens to placeholders: read in the order of the fields, they are settled one after the
  other, and each is bound to the nearest declaration of its bank.
Imports: Paradigm.Proofs.Resolution.Scopes, Paradigm.Proofs.Resolution.Slots,
  Paradigm.Proofs.Rules, Paradigm.Proofs.Tree.Placeholders, Mathlib.Data.List.Forall2
Main exports: Page.Resolved, Item.Resolved, Block.Resolved, Placed, Page.resolve_ok,
  Item.resolve_ok, Block.resolve_ok, Experiment.Resolved, Experiment.resolve_ok
-/
import Mathlib.Data.List.Forall2
import Paradigm.Proofs.Resolution.Scopes
import Paradigm.Proofs.Resolution.Slots
import Paradigm.Proofs.Rules
import Paradigm.Proofs.Tree.Placeholders

namespace Paradigm

open Document (Sample)

/-! ### Texts and resources -/

/-- A text beside what the document has for it. -/
inductive Text.Resolved : Text → Document.Text → Prop where
  | literal (value : String) : Text.Resolved (.literal value) (.literal value)
  | sample (p : Placeholder) (slot : Slot) : Text.Resolved (.sample p) (.sample (p.document slot))

/-- What a page shows beside what the document has for it. -/
inductive PageText.Resolved : PageText → Document.PageText → Prop where
  | single {given : Text} {shown : Document.Text} (text : given.Resolved shown) :
      PageText.Resolved (.single given) (.single shown)
  | lines {given : List Text} {shown : List Document.Text}
      (texts : List.Forall₂ Text.Resolved given shown) :
      PageText.Resolved (.lines given) (.lines shown)

/-- A resource beside what the document has for it. A file name becomes a record with the usual
options. -/
inductive ResourceEntry.Resolved : ResourceEntry → Document.ResourceEntry → Prop where
  | file (name : String) :
      ResourceEntry.Resolved (.file name)
        (.record
          { source := .literal name, autoplay := false, controls := true, required := false })
  | full {resource : Resource} {source : Document.Text} (text : resource.source.Resolved source) :
      ResourceEntry.Resolved (.full resource)
        (.record { source := source, mediaType := resource.mediaType,
                   autoplay := resource.autoplay, controls := resource.controls,
                   required := resource.required })
  | sample (p : Placeholder) (slot : Slot) :
      ResourceEntry.Resolved (.sample p) (.sample (p.document slot))

/-! ### Nodes -/

mutual

/-- Feedback in place beside what the document has for it. -/
inductive Feedback.Resolved (index : Index) : Feedback → Document.Feedback → Prop where
  | text {label : Text} {shown : Document.Text} (text : label.Resolved shown) :
      Feedback.Resolved index (.text label) (.text shown)
  | page {given : Page} {shown : Document.Page} (page : Page.Resolved index given shown) :
      Feedback.Resolved index (.page given) (.page shown)

/-- Feedback, where there is any, beside what the document has for it. -/
inductive Feedback.ResolvedOption (index : Index) :
    Option Feedback → Option Document.Feedback → Prop where
  | none : Feedback.ResolvedOption index none none
  | some {given : Feedback} {shown : Document.Feedback}
      (feedback : Feedback.Resolved index given shown) :
      Feedback.ResolvedOption index (some given) (some shown)

/-- An answer option beside what the document has for it. -/
inductive Choice.Resolved (index : Index) : Choice → Document.Choice → Prop where
  | mk {choice : Choice} {text : Option Document.Text} {feedback : Option Document.Feedback}
      {resources : List Document.ResourceEntry}
      (checked : choice.check = .ok ())
      (texts : Option.Rel Text.Resolved choice.text text)
      (feedbacks : Feedback.ResolvedOption index choice.feedback feedback)
      (files : List.Forall₂ ResourceEntry.Resolved choice.resources resources) :
      Choice.Resolved index choice
        { id := choice.id, text := text, correct := choice.correct, feedback := feedback
          resources := resources, tags := choice.tags }

/-- Answer options beside what the document has for them. -/
inductive Choice.ResolvedList (index : Index) : List Choice → List Document.Choice → Prop where
  | nil : Choice.ResolvedList index [] []
  | cons {choice : Choice} {shown : Document.Choice} {rest : List Choice}
      {others : List Document.Choice} (head : Choice.Resolved index choice shown)
      (tail : Choice.ResolvedList index rest others) :
      Choice.ResolvedList index (choice :: rest) (shown :: others)

/-- A page beside what the document has for it. -/
inductive Page.Resolved (index : Index) : Page → Document.Page → Prop where
  | mk {page : Page} {text : Document.PageText} {choices : List Document.Choice}
      {feedback : Option Document.Feedback} {resources : List Document.ResourceEntry}
      {condition : Option Document.Text} {guard : Option Document.Guard}
      (checked : page.check = .ok ())
      (texts : page.text.Resolved text)
      (options : Choice.ResolvedList index page.choices choices)
      (feedbacks : Feedback.ResolvedOption index page.feedback feedback)
      (files : List.Forall₂ ResourceEntry.Resolved page.resources resources)
      (conditions : Option.Rel Text.Resolved page.condition condition)
      (guards : index.resolveOption page.id page.guard = .ok guard) :
      Page.Resolved index page
        { id := page.id, text := text, choices := choices, feedback := feedback
          correct := page.correct, resources := resources, condition := condition
          tags := page.tags, ordered := page.ordered, exclusive := page.exclusive
          freetext := page.freetext, keyboard := page.keyboard, guard := guard }

end

/-- An item beside what the document has for it. -/
inductive Item.Resolved (index : Index) : Item → Document.Item → Prop where
  | mk {item : Item} {pages : List Document.Page} {condition : Option Document.Text}
      {guard : Option Document.Guard}
      (checked : item.check = .ok ())
      (contents : List.Forall₂ (Page.Resolved index) item.pages pages)
      (conditions : Option.Rel Text.Resolved item.condition condition)
      (guards : index.resolveOption item.id item.guard = .ok guard) :
      Item.Resolved index item
        { id := item.id, pages := pages, condition := condition, tags := item.tags
          guard := guard }

mutual

/-- A block beside what the document has for it. The banks that it declares serve the samples that
are bound to them. -/
inductive Block.Resolved (index : Index) : Block → Document.Block → Prop where
  | mk {block : Block} {pages : Option (List Document.Page)} {items : Option (List Document.Item)}
      {groups : Option (List (List Document.Item))} {blocks : Option (List Document.Block)}
      {guard : Option Document.Guard} {document : Document.Block}
      (checked : block.check = .ok ())
      (ofPages : Option.Rel (List.Forall₂ (Page.Resolved index)) block.pages pages)
      (ofItems : Option.Rel (List.Forall₂ (Item.Resolved index)) block.items items)
      (ofGroups :
        Option.Rel (List.Forall₂ (List.Forall₂ (Item.Resolved index))) block.groups groups)
      (children : Block.ResolvedOption index block.blocks blocks)
      (guards : index.resolveOption block.id block.guard = .ok guard)
      (shape : document =
        { id := block.id, pages := pages, items := items, groups := groups, blocks := blocks
          exchangeable := block.exchangeable, counterbalance := block.counterbalance
          latinSquare := block.latinSquare, pseudorandom := block.pseudorandom
          criterion := block.criterion, cutoff := block.cutoff, guard := guard
          banks := block.banks })
      (served : document.scope.Served) :
      Block.Resolved index block document

/-- Child blocks, where there are any, beside what the document has for them. -/
inductive Block.ResolvedOption (index : Index) :
    Option (List Block) → Option (List Document.Block) → Prop where
  | none : Block.ResolvedOption index none none
  | some {given : List Block} {shown : List Document.Block}
      (blocks : Block.ResolvedList index given shown) :
      Block.ResolvedOption index (some given) (some shown)

/-- Blocks beside what the document has for them. -/
inductive Block.ResolvedList (index : Index) : List Block → List Document.Block → Prop where
  | nil : Block.ResolvedList index [] []
  | cons {block : Block} {shown : Document.Block} {rest : List Block}
      {others : List Document.Block} (head : Block.Resolved index block shown)
      (tail : Block.ResolvedList index rest others) :
      Block.ResolvedList index (block :: rest) (shown :: others)

end

/-- An expanded experiment beside its document. Every sample is bound to some declaration, and the
banks of the root serve the samples bound to them. -/
structure Experiment.Resolved (index : Index) (e : Experiment) (document : Document.Experiment) :
    Prop where
  blocks : Block.ResolvedList index e.blocks document.blocks
  exchangeable : document.exchangeable = e.exchangeable
  counterbalance : document.counterbalance = e.counterbalance
  banks : document.banks = e.banks
  bound : ∀ s ∈ document.scope.reaching, s.declaredIn document.banks
  served : ∀ owner, checkBanks owner e.banks = .ok () → document.scope.Served

/-! ### Placeholders on the way -/

/-- A stretch of resolution settles placeholders in order as samples. Those that leave it undeclared
are bound to the frames around it. -/
structure Placed (registry : Registry) (g : Gathered) (ps : List Placeholder)
    (ss leaving : List Sample) (g' : Gathered) : Prop where
  settles : Settles registry g.slots ps ss g'.slots
  binds : Binds g.frames leaving g'.frames

theorem Placed.refl (registry : Registry) (g : Gathered) : Placed registry g [] [] [] g :=
  ⟨.nil _, .refl _⟩

theorem Placed.append {registry : Registry} {g g₁ g₂ : Gathered} {ps qs : List Placeholder}
    {ss ts leaving others : List Sample} (first : Placed registry g ps ss leaving g₁)
    (second : Placed registry g₁ qs ts others g₂) :
    Placed registry g (ps ++ qs) (ss ++ ts) (leaving ++ others) g₂ :=
  ⟨first.settles.append second.settles, first.binds.append second.binds⟩

/-- Steps that relate what they are given to what they give, and place the placeholders of the one
as the samples of the other. -/
def Places {α β : Type} (registry : Registry) (step : α → Resolving β) (rel : α → β → Prop)
    (asked : α → List Placeholder) (given : β → List Sample) : Prop :=
  ∀ ⦃x y g g'⦄, step x g = .ok y g' →
    rel x y ∧ Placed registry g (asked x) (given y) (given y) g'

section Places

variable {α β : Type} {registry : Registry} {step : α → Resolving β} {rel : α → β → Prop}
  {asked : α → List Placeholder} {given : β → List Sample}

/-- Steps over a list place its placeholders in order. -/
theorem Places.mapM (h : Places registry step rel asked given) :
    Places registry (fun xs : List α => xs.mapM step) (List.Forall₂ rel)
      (fun xs => xs.flatMap asked) (fun ys => ys.flatMap given) := by
  intro xs
  induction xs with
  | nil =>
      intro ys g g' hok
      simp only [List.mapM_nil, Step.pure_eq_ok_iff] at hok
      obtain ⟨rfl, rfl⟩ := hok
      exact ⟨.nil, .refl _ _⟩
  | cons x rest ih =>
      intro ys g g' hok
      simp only [List.mapM_cons, Step.bind_eq_ok_iff, Step.pure_eq_ok_iff] at hok
      obtain ⟨y, g₁, hx, others, g₂, hrest, rfl, rfl⟩ := hok
      obtain ⟨hrel, hplaced⟩ := h hx
      obtain ⟨hrels, hothers⟩ := ih hrest
      exact ⟨.cons hrel hrels, hplaced.append hothers⟩

/-- A step on a value that may be missing places its placeholders where it is there. -/
theorem Places.option (h : Places registry step rel asked given) :
    Places registry (resolveOption step) (Option.Rel rel)
      (fun x => x.toList.flatMap asked) (fun y => y.toList.flatMap given) := by
  intro x y g g' hok
  cases x with
  | none =>
      simp only [resolveOption, Step.pure_eq_ok_iff] at hok
      obtain ⟨rfl, rfl⟩ := hok
      exact ⟨.none, .refl _ _⟩
  | some a =>
      simp only [resolveOption, Step.bind_eq_ok_iff, Step.pure_eq_ok_iff] at hok
      obtain ⟨b, _, hstep, rfl, rfl⟩ := hok
      obtain ⟨hrel, hplaced⟩ := h hstep
      exact ⟨.some hrel, by simpa using hplaced⟩

end Places

/-! ### Resolution of values -/

section Specifications

variable {env : Surroundings}

/-- A placeholder that resolves is settled and bound. -/
theorem Placeholder.resolve_ok {node : String} {p : Placeholder} {s : Sample} {g g' : Gathered}
    (h : p.resolve env node g = .ok s g') :
    (∃ slot, s = p.document slot) ∧ Placed env.registry g [p] [s] [s] g' := by
  unfold Placeholder.resolve at h
  simp only [Step.bind_eq_ok_iff, Step.pure_eq_ok_iff] at h
  obtain ⟨slot, g₁, hslot, _, g₂, hbind, rfl, rfl⟩ := h
  obtain ⟨hamong, rfl⟩ := Placeholder.slot_eq_ok hslot
  refine ⟨⟨slot, rfl⟩, ?_⟩
  unfold Resolving.bind at hbind
  cases hframes : Frame.bind? p.bank { node := node, field := p.field, slot := slot } g.frames with
  | none => simp [hframes] at hbind
  | some frames =>
      simp only [hframes, EStateM.Result.ok.injEq, true_and] at hbind
      subst hbind
      exact ⟨.cons hamong (.nil _), Binds.of_bind? hframes⟩

/-- Resolving texts places their placeholders. -/
theorem Text.places (node : String) :
    Places env.registry (Text.resolve env node) Text.Resolved Text.placeholders
      Document.Text.samples := by
  intro given shown g g' h
  cases given with
  | literal value =>
      simp only [Text.resolve, Step.pure_eq_ok_iff] at h
      obtain ⟨rfl, rfl⟩ := h
      exact ⟨.literal value, .refl _ _⟩
  | sample p =>
      simp only [Text.resolve, Step.bind_eq_ok_iff, Step.pure_eq_ok_iff] at h
      obtain ⟨s, _, hs, rfl, rfl⟩ := h
      obtain ⟨⟨slot, rfl⟩, hplaced⟩ := Placeholder.resolve_ok hs
      exact ⟨.sample p slot, hplaced⟩

theorem Text.resolveOption_eq (node : String) :
    Text.resolveOption env node = Paradigm.resolveOption (Text.resolve env node) := by
  funext given
  cases given <;> rfl

/-- Resolving texts that may be missing places their placeholders. -/
theorem Text.places_option (node : String) :
    Places env.registry (Text.resolveOption env node) (Option.Rel Text.Resolved)
      (fun x => x.toList.flatMap Text.placeholders)
      (fun y => y.toList.flatMap Document.Text.samples) := by
  rw [Text.resolveOption_eq]
  exact (Text.places node).option

/-- Resolving what pages show places its placeholders. -/
theorem PageText.places (node : String) :
    Places env.registry (PageText.resolve env node) PageText.Resolved PageText.placeholders
      Document.PageText.samples := by
  intro given shown g g' h
  cases given with
  | single one =>
      simp only [PageText.resolve, Step.bind_eq_ok_iff, Step.pure_eq_ok_iff] at h
      obtain ⟨text, _, htext, rfl, rfl⟩ := h
      obtain ⟨hrel, hplaced⟩ := Text.places node htext
      exact ⟨.single hrel, hplaced⟩
  | lines several =>
      simp only [PageText.resolve, Step.bind_eq_ok_iff, Step.pure_eq_ok_iff] at h
      obtain ⟨texts, _, htexts, rfl, rfl⟩ := h
      obtain ⟨hrel, hplaced⟩ := (Text.places node).mapM htexts
      exact ⟨.lines hrel, hplaced⟩

/-- Resolving resources places their placeholders. -/
theorem ResourceEntry.places (node : String) :
    Places env.registry (ResourceEntry.resolve env node) ResourceEntry.Resolved
      ResourceEntry.placeholders Document.ResourceEntry.samples := by
  intro given shown g g' h
  cases given with
  | file name =>
      simp only [ResourceEntry.resolve, Step.pure_eq_ok_iff] at h
      obtain ⟨rfl, rfl⟩ := h
      exact ⟨.file name, .refl _ _⟩
  | full resource =>
      simp only [ResourceEntry.resolve, Step.bind_eq_ok_iff, Step.pure_eq_ok_iff] at h
      obtain ⟨source, _, hsource, rfl, rfl⟩ := h
      obtain ⟨hrel, hplaced⟩ := Text.places node hsource
      exact ⟨.full hrel, hplaced⟩
  | sample p =>
      simp only [ResourceEntry.resolve, Step.bind_eq_ok_iff, Step.pure_eq_ok_iff] at h
      obtain ⟨s, _, hs, rfl, rfl⟩ := h
      obtain ⟨⟨slot, rfl⟩, hplaced⟩ := Placeholder.resolve_ok hs
      exact ⟨.sample p slot, hplaced⟩

/-! ### Resolution of pages -/

mutual

/-- Feedback that resolves is related to its document, and its placeholders are placed. -/
theorem Feedback.resolve_ok {node : String} : ∀ {feedback : Feedback}
    {shown : Document.Feedback} {g g' : Gathered}, feedback.resolve env node g = .ok shown g' →
      feedback.Resolved env.index shown ∧
        Placed env.registry g feedback.placeholders shown.samples shown.samples g'
  | .text label, shown, g, g', h => by
      simp only [Feedback.resolve, Step.bind_eq_ok_iff, Step.pure_eq_ok_iff] at h
      obtain ⟨text, _, htext, rfl, rfl⟩ := h
      obtain ⟨hrel, hplaced⟩ := Text.places node htext
      exact ⟨.text hrel, hplaced⟩
  | .page page, shown, g, g', h => by
      simp only [Feedback.resolve, Step.bind_eq_ok_iff, Step.pure_eq_ok_iff] at h
      obtain ⟨document, _, hpage, rfl, rfl⟩ := h
      obtain ⟨hrel, hplaced⟩ := Page.resolve_ok hpage
      exact ⟨.page hrel, hplaced⟩

theorem Feedback.resolveOption_ok {node : String} : ∀ {feedback : Option Feedback}
    {shown : Option Document.Feedback} {g g' : Gathered},
    Feedback.resolveOption env node feedback g = .ok shown g' →
      Feedback.ResolvedOption env.index feedback shown ∧
        Placed env.registry g (Feedback.placeholdersOption feedback)
          (Document.Feedback.samplesOption shown) (Document.Feedback.samplesOption shown) g'
  | none, shown, g, g', h => by
      simp only [Feedback.resolveOption, Step.pure_eq_ok_iff] at h
      obtain ⟨rfl, rfl⟩ := h
      exact ⟨.none, .refl _ _⟩
  | some feedback, shown, g, g', h => by
      simp only [Feedback.resolveOption, Step.bind_eq_ok_iff, Step.pure_eq_ok_iff] at h
      obtain ⟨document, _, hfeedback, rfl, rfl⟩ := h
      obtain ⟨hrel, hplaced⟩ := Feedback.resolve_ok hfeedback
      exact ⟨.some hrel, hplaced⟩

/-- An answer option that resolves is related to its document, and its placeholders are placed. -/
theorem Choice.resolve_ok : ∀ {choice : Choice} {shown : Document.Choice} {g g' : Gathered},
    choice.resolve env g = .ok shown g' →
      choice.Resolved env.index shown ∧
        Placed env.registry g choice.placeholders shown.samples shown.samples g'
  | ⟨id, text, correct, feedback, resources, tags⟩, shown, g, g', h => by
      simp only [Choice.resolve, Step.bind_eq_ok_iff, Step.pure_eq_ok_iff,
        Resolving.lift_eq_ok_iff] at h
      obtain ⟨_, _, ⟨hcheck, rfl⟩, shownText, _, htext, shownFeedback, _, hfeedback, files, _,
        hfiles, rfl, rfl⟩ := h
      obtain ⟨htexts, hplaced₁⟩ := Text.places_option id htext
      obtain ⟨hfeedbacks, hplaced₂⟩ := Feedback.resolveOption_ok hfeedback
      obtain ⟨hresources, hplaced₃⟩ := (ResourceEntry.places id).mapM hfiles
      exact ⟨.mk hcheck htexts hfeedbacks hresources, (hplaced₁.append hplaced₂).append hplaced₃⟩

theorem Choice.resolveList_ok : ∀ {choices : List Choice} {shown : List Document.Choice}
    {g g' : Gathered}, Choice.resolveList env choices g = .ok shown g' →
      Choice.ResolvedList env.index choices shown ∧
        Placed env.registry g (Choice.placeholdersList choices)
          (Document.Choice.samplesList shown) (Document.Choice.samplesList shown) g'
  | [], shown, g, g', h => by
      simp only [Choice.resolveList, Step.pure_eq_ok_iff] at h
      obtain ⟨rfl, rfl⟩ := h
      exact ⟨.nil, .refl _ _⟩
  | choice :: rest, shown, g, g', h => by
      simp only [Choice.resolveList, Step.bind_eq_ok_iff, Step.pure_eq_ok_iff] at h
      obtain ⟨document, _, hchoice, others, _, hrest, rfl, rfl⟩ := h
      obtain ⟨hrel, hplaced₁⟩ := Choice.resolve_ok hchoice
      obtain ⟨hrels, hplaced₂⟩ := Choice.resolveList_ok hrest
      exact ⟨.cons hrel hrels, hplaced₁.append hplaced₂⟩

/-- A page that resolves is related to its document, and its placeholders are placed. -/
theorem Page.resolve_ok : ∀ {page : Page} {shown : Document.Page} {g g' : Gathered},
    page.resolve env g = .ok shown g' →
      page.Resolved env.index shown ∧
        Placed env.registry g page.placeholders shown.samples shown.samples g'
  | ⟨id, text, choices, feedback, correct, resources, condition, tags, ordered, exclusive,
      freetext, keyboard, guard⟩, shown, g, g', h => by
      simp only [Page.resolve, Guard.resolveOption, Step.bind_eq_ok_iff, Step.pure_eq_ok_iff,
        Resolving.lift_eq_ok_iff] at h
      obtain ⟨_, _, ⟨hcheck, rfl⟩, shownText, _, htext, options, _, hoptions, shownFeedback, _,
        hfeedback, files, _, hfiles, shownCondition, _, hcondition, shownGuard, _,
        ⟨hguard, rfl⟩, rfl, rfl⟩ := h
      obtain ⟨htexts, hplaced₁⟩ := PageText.places id htext
      obtain ⟨hchoices, hplaced₂⟩ := Choice.resolveList_ok hoptions
      obtain ⟨hfeedbacks, hplaced₃⟩ := Feedback.resolveOption_ok hfeedback
      obtain ⟨hresources, hplaced₄⟩ := (ResourceEntry.places id).mapM hfiles
      obtain ⟨hconditions, hplaced₅⟩ := Text.places_option id hcondition
      exact ⟨.mk hcheck htexts hchoices hfeedbacks hresources hconditions hguard,
        (((hplaced₁.append hplaced₂).append hplaced₃).append hplaced₄).append hplaced₅⟩

end

/-- Resolving pages places their placeholders. -/
theorem Page.places :
    Places env.registry (Page.resolve env) (Page.Resolved env.index) Page.placeholders
      Document.Page.samples :=
  fun _ _ _ _ h => Page.resolve_ok h

/-! ### Resolution of items and blocks -/

/-- Resolving items places their placeholders. -/
theorem Item.places :
    Places env.registry (Item.resolve env) (Item.Resolved env.index) Item.placeholders
      Document.Item.samples := by
  intro item shown g g' h
  simp only [Item.resolve, Guard.resolveOption, Step.bind_eq_ok_iff, Step.pure_eq_ok_iff,
    Resolving.lift_eq_ok_iff] at h
  obtain ⟨_, _, ⟨hcheck, rfl⟩, pages, _, hpages, condition, _, hcondition, guard, _,
    ⟨hguard, rfl⟩, rfl, rfl⟩ := h
  obtain ⟨hcontents, hplaced₁⟩ := Page.places.mapM hpages
  obtain ⟨hconditions, hplaced₂⟩ := Text.places_option item.id hcondition
  exact ⟨.mk hcheck hcontents hconditions hguard, hplaced₁.append hplaced₂⟩

/-- The pages, items and groups of a block place their placeholders in this order. -/
theorem Block.resolveOwn_ok {pages : Option (List Page)} {items : Option (List Item)}
    {groups : Option (List (List Item))} {pages' : Option (List Document.Page)}
    {items' : Option (List Document.Item)} {groups' : Option (List (List Document.Item))}
    {g g₁ g₂ g₃ : Gathered}
    (hpages : resolveOption (·.mapM (Page.resolve env)) pages g = .ok pages' g₁)
    (hitems : resolveOption (·.mapM (Item.resolve env)) items g₁ = .ok items' g₂)
    (hgroups : resolveOption (·.mapM (·.mapM (Item.resolve env))) groups g₂ = .ok groups' g₃) :
    (Option.Rel (List.Forall₂ (Page.Resolved env.index)) pages pages' ∧
      Option.Rel (List.Forall₂ (Item.Resolved env.index)) items items' ∧
      Option.Rel (List.Forall₂ (List.Forall₂ (Item.Resolved env.index))) groups groups') ∧
    ∃ samples, samples = (pages'.getD []).flatMap Document.Page.samples
        ++ (items'.getD [] ++ (groups'.getD []).flatten).flatMap Document.Item.samples ∧
      Placed env.registry g
        ((pages.getD []).flatMap Page.placeholders
          ++ (items.getD [] ++ (groups.getD []).flatten).flatMap Item.placeholders)
        samples samples g₃ := by
  obtain ⟨hrelPages, hplaced₁⟩ := Page.places.mapM.option hpages
  obtain ⟨hrelItems, hplaced₂⟩ := Item.places.mapM.option hitems
  obtain ⟨hrelGroups, hplaced₃⟩ := Item.places.mapM.mapM.option hgroups
  have hplaced := hplaced₁.append (hplaced₂.append hplaced₃)
  simp only [flatMap_toList_eq] at hplaced
  refine ⟨⟨hrelPages, hrelItems, hrelGroups⟩, _, rfl, ?_⟩
  rw [List.flatMap_append, List.flatMap_append, flatMap_flatten_eq, flatMap_flatten_eq]
  exact hplaced

/-- What is placed between opening and closing a scope: the frame of the scope takes the samples
of its banks and passes its check, and the frames around it take the others. -/
theorem Placed.close {registry : Registry} {owner : String} {banks : Banks} {outer : List Frame}
    {ps : List Placeholder} {ss reaching : List Sample} {u : Unit} {g g₁ g' : Gathered}
    (hplaced : Placed registry g ps ss reaching g₁)
    (hframes : g.frames = { owner := owner, banks := banks } :: outer)
    (hclose : Resolving.closeScope g₁ = .ok u g') :
    Settles registry g.slots ps ss g'.slots ∧
      Binds outer (reaching.filter (!Sample.declaredIn banks ·)) g'.frames ∧
      ∀ name, checkBanks name banks = .ok () →
        Document.Scope.Served { banks := banks, reaching := reaching } := by
  have hbinds := hplaced.binds
  rw [hframes] at hbinds
  generalize hafter : g₁.frames = frames at hbinds
  cases hbinds with
  | @cons _ frame _ outer' _ hbanks htaken hrest =>
      simp only at hbanks
      obtain ⟨hcheck, rfl⟩ := (Resolving.closeScope_eq_ok_iff hafter).mp hclose
      refine ⟨hplaced.settles, hrest, fun name hrules => ?_⟩
      rw [← hbanks] at hrules
      have hserved := Frame.serves_of_check hrules hcheck
      rw [hbanks, htaken] at hserved
      exact Document.Scope.served_of_filter hserved

mutual

/-- A block that resolves is related to its document, its placeholders are settled, and samples that
it leaves undeclared are bound around it. -/
theorem Block.resolve_ok : ∀ {block : Block} {shown : Document.Block} {g g' : Gathered},
    block.resolve env g = .ok shown g' →
      block.Resolved env.index shown ∧
        Placed env.registry g (block.placeholders Item.placeholders) shown.samples
          (shown.reaching.filter (!Sample.declaredIn shown.banks ·)) g'
  | ⟨id, pages, items, groups, blocks, exchangeable, counterbalance, treatments, latinSquare,
      pseudorandom, criterion, cutoff, guard, banks⟩, shown, g, g', h => by
      simp only [Block.resolve, Guard.resolveOption, Step.bind_eq_ok_iff, Step.pure_eq_ok_iff,
        Resolving.lift_eq_ok_iff, Resolving.warn_eq_ok_iff, Resolving.openScope_eq_ok_iff] at h
      obtain ⟨_, _, rfl, _, _, ⟨hcheck, rfl⟩, _, g₁, hopen, _, _, hpages, _, _, hitems, _, _,
        hgroups, _, g₂, hchildren, _, _, ⟨hguard, rfl⟩, _, _, hclose, hshown, rfl⟩ := h
      subst hshown hopen
      obtain ⟨⟨hofPages, hofItems, hofGroups⟩, _, rfl, hown⟩ :=
        Block.resolveOwn_ok hpages hitems hgroups
      obtain ⟨hofBlocks, hinner⟩ := Block.resolveChildren_ok hchildren
      obtain ⟨hsettles, hbinds, hserved⟩ := (hown.append hinner).close rfl hclose
      exact ⟨.mk hcheck hofPages hofItems hofGroups hofBlocks hguard rfl
        (hserved id (Block.check_eq_ok_iff.mp hcheck).banks), hsettles, hbinds⟩

theorem Block.resolveChildren_ok : ∀ {blocks : Option (List Block)}
    {shown : Option (List Document.Block)} {g g' : Gathered},
    Block.resolveChildren env blocks g = .ok shown g' →
      Block.ResolvedOption env.index blocks shown ∧
        Placed env.registry g (Block.placeholdersOption Item.placeholders blocks)
          (Document.Block.samplesOption shown) (Document.Block.leavingOption shown) g'
  | none, shown, g, g', h => by
      simp only [Block.resolveChildren, Step.pure_eq_ok_iff] at h
      obtain ⟨rfl, rfl⟩ := h
      exact ⟨.none, .refl _ _⟩
  | some blocks, shown, g, g', h => by
      simp only [Block.resolveChildren, Step.bind_eq_ok_iff, Step.pure_eq_ok_iff] at h
      obtain ⟨documents, _, hblocks, rfl, rfl⟩ := h
      obtain ⟨hrel, hplaced⟩ := Block.resolveList_ok hblocks
      exact ⟨.some hrel, hplaced⟩

theorem Block.resolveList_ok : ∀ {blocks : List Block} {shown : List Document.Block}
    {g g' : Gathered}, Block.resolveList env blocks g = .ok shown g' →
      Block.ResolvedList env.index blocks shown ∧
        Placed env.registry g (Block.placeholdersList Item.placeholders blocks)
          (Document.Block.samplesList shown) (Document.Block.leavingList shown) g'
  | [], shown, g, g', h => by
      simp only [Block.resolveList, Step.pure_eq_ok_iff] at h
      obtain ⟨rfl, rfl⟩ := h
      exact ⟨.nil, .refl _ _⟩
  | block :: rest, shown, g, g', h => by
      simp only [Block.resolveList, Step.bind_eq_ok_iff, Step.pure_eq_ok_iff] at h
      obtain ⟨document, _, hblock, others, _, hrest, rfl, rfl⟩ := h
      obtain ⟨hrel, hplaced₁⟩ := Block.resolve_ok hblock
      obtain ⟨hrels, hplaced₂⟩ := Block.resolveList_ok hrest
      exact ⟨.cons hrel hrels, hplaced₁.append hplaced₂⟩

end

/-- An expanded experiment that resolves from the start is related to its document, and its
placeholders are settled from the reserved slots on. -/
theorem Experiment.resolve_ok {e : Experiment} {document : Document.Experiment} {g : Gathered}
    (h : e.resolve env (.start env.registry) = .ok document g) :
    e.Resolved env.index document ∧
      Settles env.registry (.ofRegistry env.registry)
        (Block.placeholdersList Item.placeholders e.blocks) document.samples g.slots := by
  unfold Experiment.resolve at h
  simp only [Step.bind_eq_ok_iff, Step.pure_eq_ok_iff, Resolving.openScope_eq_ok_iff] at h
  obtain ⟨_, g₁, rfl, blocks, g₂, hblocks, _, _, hclose, rfl, rfl⟩ := h
  obtain ⟨hrel, hplaced⟩ := Block.resolveList_ok hblocks
  obtain ⟨hsettles, hbinds, hserved⟩ := hplaced.close rfl hclose
  refine ⟨⟨hrel, rfl, rfl, rfl, ?_, hserved⟩, hsettles⟩
  have hnone := hbinds.eq_nil
  rw [List.filter_eq_nil_iff] at hnone
  intro s hs
  simpa using hnone s hs

end Specifications

end Paradigm
