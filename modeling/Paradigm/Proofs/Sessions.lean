/-
Module: Paradigm.Proofs.Sessions
Layer: Proofs
Purpose: What a session goes through while an experiment is built: new nodes, copies, placeholders
  and compilations, those that fail included. Computations are looked at by the identifiers that
  they take on their way. Whatever is done, the identifiers taken are the next ones of the source,
  in order, and the tokens of every bank stay where they are.
Imports: Paradigm.Proofs.Compilation, Paradigm.Proofs.Expansion.Minting, Paradigm.Tree.Copy
Main exports: Issuing.Takes, Expanding.Takes, Session.Operation, Session.perform,
  Session.Operation.Takes, Session.TakesAlong, Session.TakesAlong.taken_eq,
  Session.exists_takesAlong, Session.GrownTo, Session.grownTo_perform
-/
import Paradigm.Proofs.Compilation
import Paradigm.Proofs.Expansion.Minting
import Paradigm.Tree.Copy

namespace Paradigm

/-! ### Identifiers taken -/

/-- The identifiers that a computation takes from a source: none if it only returns, the next one if
it asks for one, and otherwise those that its parts take, each from where the one before it left
off. -/
inductive Issuing.Takes : {α : Type} → Issuing α → IdSource → List String → Prop where
  | pure {α : Type} (value : α) (ids : IdSource) : Takes (pure value) ids []
  | issue (ids : IdSource) : Takes issueId ids [ids.next.1]
  | bind {α β : Type} {m : Issuing α} {next : α → Issuing β} {ids : IdSource}
      {taken later : List String} (first : Takes m ids taken)
      (second : Takes (next (m ids).1) (m ids).2 later) : Takes (m >>= next) ids (taken ++ later)

/-- What a computation leaves of a source of which some identifiers were taken. -/
def IdSource.Handed (ids ids' : IdSource) (taken : List String) : Prop :=
  taken = ids.upcoming taken.length ∧ ids' = ids.after taken.length

theorem IdSource.Handed.append {ids ids₁ ids₂ : IdSource} {taken later : List String}
    (first : ids.Handed ids₁ taken) (second : ids₁.Handed ids₂ later) :
    ids.Handed ids₂ (taken ++ later) := by
  obtain ⟨htaken, rfl⟩ := first
  obtain ⟨hlater, rfl⟩ := second
  constructor
  · rw [List.length_append, upcoming_add, ← htaken, ← hlater]
  · rw [after_after, List.length_append]

/-- A computation takes the next identifiers of the source, in order. -/
theorem Issuing.Takes.handed {α : Type} {m : Issuing α} {ids : IdSource} {taken : List String}
    (h : m.Takes ids taken) : ids.Handed (m ids).2 taken := by
  induction h with
  | pure value ids => exact ⟨rfl, rfl⟩
  | issue ids =>
      rw [issueId, IdSource.next_eq]
      exact ⟨rfl, rfl⟩
  | bind first second hfirst hsecond => exact hfirst.append hsecond

/-- A computation that is made of steps that take identifiers. -/
def Issuing.Traced {α : Type} (m : Issuing α) : Prop := ∀ ids, ∃ taken, m.Takes ids taken

namespace Issuing.Traced

variable {α β : Type}

theorem pure (value : α) : (Pure.pure value : Issuing α).Traced := fun ids => ⟨[], .pure value ids⟩

theorem issue : Issuing.Traced issueId := fun ids => ⟨_, .issue ids⟩

theorem bind {m : Issuing α} {next : α → Issuing β} (first : m.Traced)
    (second : ∀ value, (next value).Traced) : (m >>= next).Traced := by
  intro ids
  obtain ⟨taken, htaken⟩ := first ids
  obtain ⟨later, hlater⟩ := second (m ids).1 (m ids).2
  exact ⟨taken ++ later, .bind htaken hlater⟩

theorem mapM {step : α → Issuing β} (h : ∀ x, (step x).Traced) :
    ∀ xs : List α, Issuing.Traced (xs.mapM step)
  | [] => pure []
  | x :: rest => by
      rw [List.mapM_cons]
      exact bind (h x) fun _ => bind (mapM h rest) fun _ => pure _

end Issuing.Traced

/-! ### New nodes and copies -/

theorem Page.traced_create (text : PageText) : (Page.create text).Traced :=
  .bind .issue fun _ => .pure _

theorem Choice.traced_create (text : Option Text) : (Choice.create text).Traced :=
  .bind .issue fun _ => .pure _

theorem Item.traced_create (contents : ItemContents) : (Item.create contents).Traced :=
  .bind .issue fun _ => .pure _

theorem Block.traced_create : Block.create.Traced :=
  .bind .issue fun _ => .pure _

mutual

theorem Feedback.traced_copy : ∀ feedback : Feedback, feedback.copy.Traced
  | .text _ => by
      rw [Feedback.copy]
      exact .pure _
  | .page shown => by
      rw [Feedback.copy]
      exact .bind (Page.traced_copy shown) fun _ => .pure _

theorem Feedback.traced_copyOption : ∀ feedback : Option Feedback,
    (Feedback.copyOption feedback).Traced
  | none => by
      rw [Feedback.copyOption]
      exact .pure _
  | some feedback => by
      rw [Feedback.copyOption]
      exact .bind (Feedback.traced_copy feedback) fun _ => .pure _

theorem Choice.traced_copy : ∀ choice : Choice, choice.copy.Traced
  | ⟨_, _, _, feedback, _, _⟩ => by
      rw [Choice.copy]
      exact .bind .issue fun _ => .bind (Feedback.traced_copyOption feedback) fun _ => .pure _

theorem Choice.traced_copyList : ∀ choices : List Choice, (Choice.copyList choices).Traced
  | [] => by
      rw [Choice.copyList]
      exact .pure _
  | choice :: rest => by
      rw [Choice.copyList]
      exact .bind (Choice.traced_copy choice) fun _ =>
        .bind (Choice.traced_copyList rest) fun _ => .pure _

theorem Page.traced_copy : ∀ page : Page, page.copy.Traced
  | ⟨_, _, choices, feedback, _, _, _, _, _, _, _, _, _⟩ => by
      rw [Page.copy]
      exact .bind .issue fun _ => .bind (Choice.traced_copyList choices) fun _ =>
        .bind (Feedback.traced_copyOption feedback) fun _ => .pure _

end

theorem ItemContents.traced_copy : ∀ contents : ItemContents, contents.copy.Traced
  | .text _ => .pure _
  | .page single => .bind (Page.traced_copy single) fun _ => .pure _
  | .pages several => .bind (.mapM Page.traced_copy several) fun _ => .pure _

theorem Item.traced_copy (item : Item) : item.copy.Traced :=
  .bind .issue fun _ => .bind (ItemContents.traced_copy item.contents) fun _ => .pure _

theorem traced_copyOption {α : Type} {copy : α → Issuing α} (h : ∀ x, (copy x).Traced) :
    ∀ value : Option α, (copyOption copy value).Traced
  | none => .pure _
  | some value => .bind (h value) fun _ => .pure _

mutual

theorem Block.traced_copy : ∀ block : Block, block.copy.Traced
  | ⟨_, pages, items, groups, blocks, _, _, _, _, _, _, _, _, _⟩ => by
      rw [Block.copy]
      exact .bind .issue fun _ => .bind (Block.traced_copyChildren blocks) fun _ =>
        .bind (traced_copyOption (.mapM Page.traced_copy) pages) fun _ =>
        .bind (traced_copyOption (.mapM Item.traced_copy) items) fun _ =>
        .bind (traced_copyOption (.mapM (.mapM Item.traced_copy)) groups) fun _ => .pure _

theorem Block.traced_copyChildren : ∀ blocks : Option (List Block),
    (Block.copyChildren blocks).Traced
  | none => by
      rw [Block.copyChildren]
      exact .pure _
  | some blocks => by
      rw [Block.copyChildren]
      exact .bind (Block.traced_copyList blocks) fun _ => .pure _

theorem Block.traced_copyList : ∀ blocks : List Block, (Block.copyList blocks).Traced
  | [] => by
      rw [Block.copyList]
      exact .pure _
  | block :: rest => by
      rw [Block.copyList]
      exact .bind (Block.traced_copy block) fun _ =>
        .bind (Block.traced_copyList rest) fun _ => .pure _

end

/-! ### Expansion -/

theorem Page.traced_withTextBox (page : Page) : page.withTextBox.Traced := by
  unfold Page.withTextBox
  split
  · exact .bind (Choice.traced_create none) fun _ => .pure _
  · exact .pure _

theorem Feedback.traced_toPage : ∀ feedback : Feedback, feedback.toPage.Traced
  | .text label => Page.traced_create (.single label)
  | .page _ => .pure _

theorem traced_pageFeedback : ∀ feedback : Option Feedback, (pageFeedback feedback).Traced
  | none => .pure _
  | some feedback => .bind (Feedback.traced_toPage feedback) fun _ => .pure _

theorem traced_choiceFeedback (page : String) : ∀ choices : List Choice,
    (choiceFeedback page choices).Traced
  | [] => .pure _
  | choice :: rest => by
      unfold choiceFeedback
      split
      · exact traced_choiceFeedback page rest
      · exact .bind (Feedback.traced_toPage _) fun _ =>
          .bind (traced_choiceFeedback page rest) fun _ => .pure _

theorem Page.traced_spliced (page : Page) : page.spliced.Traced :=
  .bind (traced_pageFeedback page.feedback) fun _ =>
    .bind (traced_choiceFeedback page.id page.choices) fun _ => .pure _

theorem ItemContents.traced_toPages : ∀ contents : ItemContents, contents.toPages.Traced
  | .text label => .bind (Page.traced_create (.single label)) fun _ => .pure _
  | .page _ => .pure _
  | .pages _ => .pure _

theorem Item.traced_expand (item : Item) : item.expand.Traced :=
  .bind (ItemContents.traced_toPages item.contents) fun _ =>
    .bind (.mapM Page.traced_spliced _) fun _ =>
    .bind (.mapM Page.traced_withTextBox _) fun _ => .pure _

theorem traced_expandOption {α : Type} {expand : α → Issuing α} (h : ∀ x, (expand x).Traced) :
    ∀ value : Option α, (expandOption expand value).Traced
  | none => .pure _
  | some value => .bind (h value) fun _ => .pure _

/-- The identifiers that a stretch of expansion takes, whether it is refused on its way or not. -/
inductive Expanding.Takes : {α : Type} → Expanding α → Progress → List String → Prop where
  | pure {α : Type} (value : α) (p : Progress) : Takes (pure value) p []
  | warn (warnings : List Warning) (p : Progress) : Takes (Expanding.warn warnings) p []
  | check (verdict : Verdict) (p : Progress) : Takes (Expanding.check verdict) p []
  | issuing {α : Type} {m : Issuing α} {p : Progress} {taken : List String}
      (within : m.Takes p.ids taken) : Takes (Expanding.issuing m) p taken
  | bind {α β : Type} {m : Expanding α} {next : α → Expanding β} {p p' : Progress} {value : α}
      {taken later : List String} (first : Takes m p taken) (ok : m p = .ok value p')
      (second : Takes (next value) p' later) : Takes (m >>= next) p (taken ++ later)
  | refused {α β : Type} {m : Expanding α} {next : α → Expanding β} {p p' : Progress}
      {failure : Failure} {taken : List String} (first : Takes m p taken)
      (error : m p = .error failure p') : Takes (m >>= next) p taken

/-- Expansion takes the next identifiers of the source, in order, also where it is refused. -/
theorem Expanding.Takes.handed {α : Type} {m : Expanding α} {p : Progress} {taken : List String}
    (h : m.Takes p taken) : p.ids.Handed (Step.left (m p)).ids taken := by
  induction h with
  | pure value p => exact ⟨rfl, rfl⟩
  | warn warnings p => exact ⟨rfl, rfl⟩
  | check verdict p => cases verdict <;> exact ⟨rfl, rfl⟩
  | issuing within => exact within.handed
  | bind first ok second hfirst hsecond =>
      rw [Step.bind_of_ok ok]
      rw [Step.left_of_ok ok] at hfirst
      exact hfirst.append hsecond
  | refused first error hfirst =>
      rw [Step.bind_of_error error, Step.left]
      rwa [Step.left_of_error error] at hfirst

/-- A stretch of expansion that is made of steps that take identifiers. -/
def Expanding.Traced {α : Type} (m : Expanding α) : Prop := ∀ p, ∃ taken, m.Takes p taken

namespace Expanding.Traced

variable {α β : Type}

theorem pure (value : α) : (Pure.pure value : Expanding α).Traced := fun p => ⟨[], .pure value p⟩

theorem warn (warnings : List Warning) : (Expanding.warn warnings).Traced :=
  fun p => ⟨[], .warn warnings p⟩

theorem check (verdict : Verdict) : (Expanding.check verdict).Traced :=
  fun p => ⟨[], .check verdict p⟩

theorem issuing {m : Issuing α} (h : m.Traced) : (Expanding.issuing m).Traced := by
  intro p
  obtain ⟨taken, htaken⟩ := h p.ids
  exact ⟨taken, .issuing htaken⟩

theorem bind {m : Expanding α} {next : α → Expanding β} (first : m.Traced)
    (second : ∀ value, (next value).Traced) : (m >>= next).Traced := by
  intro p
  obtain ⟨taken, htaken⟩ := first p
  cases hm : m p with
  | error failure p' => exact ⟨taken, .refused htaken hm⟩
  | ok value p' =>
      obtain ⟨later, hlater⟩ := second value p'
      exact ⟨taken ++ later, .bind htaken hm hlater⟩

end Expanding.Traced

mutual

theorem Block.traced_expand : ∀ (block : Block) (treatment : Option Nat),
    (block.expand treatment).Traced
  | ⟨_, pages, items, groups, blocks, _, _, treatments, _, _, _, _, _, _⟩, treatment => by
      rw [Block.expand]
      exact .bind (.warn _) fun _ => .bind (.check _) fun _ => .bind (.warn _) fun _ =>
        .bind (.issuing (traced_expandOption (.mapM Page.traced_withTextBox) pages)) fun _ =>
        .bind (.issuing (traced_expandOption (.mapM Item.traced_expand) items)) fun _ =>
        .bind (.issuing (traced_expandOption (.mapM (.mapM Item.traced_expand)) groups)) fun _ =>
        .bind (Block.traced_expandChildren blocks (assignments treatments)) fun _ => .pure _

theorem Block.traced_expandChildren : ∀ (blocks : Option (List Block))
    (given : List (String × Nat)), (Block.expandChildren given blocks).Traced
  | none, given => by
      rw [Block.expandChildren]
      exact .pure _
  | some blocks, given => by
      rw [Block.expandChildren]
      exact .bind (Block.traced_expandList blocks given) fun _ => .pure _

theorem Block.traced_expandList : ∀ (blocks : List Block) (given : List (String × Nat)),
    (Block.expandList given blocks).Traced
  | [], given => by
      rw [Block.expandList]
      exact .pure _
  | block :: rest, given => by
      rw [Block.expandList]
      exact .bind (Block.traced_expand block _) fun _ =>
        .bind (Block.traced_expandList rest given) fun _ => .pure _

end

theorem Experiment.traced_expand (e : Experiment) : e.expand.Traced :=
  .bind (.warn _) fun _ => .bind (.check _) fun _ => .bind (.warn _) fun _ =>
    .bind (Block.traced_expandList e.blocks _) fun _ => .pure _

/-! ### Operations on a session -/

/-- What an author does in a session. -/
inductive Session.Operation where
  | nextId
  | createPage (text : PageText)
  | createChoice (text : Option Text)
  | createItem (contents : ItemContents)
  | createBlock
  | copyPage (page : Page)
  | copyChoice (choice : Choice)
  | copyItem (item : Item)
  | copyBlock (block : Block)
  | sample (bank : String) (request : DrawRequest)
  | compile (e : Experiment)

namespace Session

/-- The session after an operation, whether that succeeds or not. -/
def Operation.run : Operation → Session → Session
  | .nextId, s => Step.left (issuing issueId s)
  | .createPage text, s => Step.left (issuing (Page.create text) s)
  | .createChoice text, s => Step.left (issuing (Choice.create text) s)
  | .createItem contents, s => Step.left (issuing (Item.create contents) s)
  | .createBlock, s => Step.left (issuing Block.create s)
  | .copyPage page, s => Step.left (issuing page.copy s)
  | .copyChoice choice, s => Step.left (issuing choice.copy s)
  | .copyItem item, s => Step.left (issuing item.copy s)
  | .copyBlock block, s => Step.left (issuing block.copy s)
  | .sample bank request, s => Step.left (sampleFrom bank request s)
  | .compile e, s => (e.compile s).session

/-- The identifiers that an operation takes. Making a placeholder takes none. -/
def Operation.Takes : Operation → Session → List String → Prop
  | .nextId, s, taken => Issuing.Takes issueId s.ids taken
  | .createPage text, s, taken => (Page.create text).Takes s.ids taken
  | .createChoice text, s, taken => (Choice.create text).Takes s.ids taken
  | .createItem contents, s, taken => (Item.create contents).Takes s.ids taken
  | .createBlock, s, taken => Block.create.Takes s.ids taken
  | .copyPage page, s, taken => page.copy.Takes s.ids taken
  | .copyChoice choice, s, taken => choice.copy.Takes s.ids taken
  | .copyItem item, s, taken => item.copy.Takes s.ids taken
  | .copyBlock block, s, taken => block.copy.Takes s.ids taken
  | .sample _ _, _, taken => taken = []
  | .compile e, s, taken => e.expand.Takes { ids := s.ids, warnings := [] } taken

/-- The session after several operations. -/
def perform (s : Session) : List Operation → Session
  | [] => s
  | operation :: rest => (operation.run s).perform rest

/-- The identifiers that several operations take. -/
inductive TakesAlong : Session → List Operation → List String → Prop where
  | nil (s : Session) : TakesAlong s [] []
  | cons {s : Session} {operation : Operation} {rest : List Operation} {taken later : List String}
      (first : operation.Takes s taken) (others : TakesAlong (operation.run s) rest later) :
      TakesAlong s (operation :: rest) (taken ++ later)

theorem ids_sampleFrom (bank : String) (request : DrawRequest) (s : Session) :
    (Step.left (sampleFrom bank request s)).ids = s.ids := by
  unfold sampleFrom
  cases request.draw? <;> rfl

/-- An operation takes the next identifiers of the session, in order. -/
theorem Operation.Takes.handed {operation : Operation} {s : Session} {taken : List String}
    (h : operation.Takes s taken) : s.ids.Handed (operation.run s).ids taken := by
  cases operation with
  | sample bank request =>
      subst h
      exact ⟨rfl, ids_sampleFrom bank request s⟩
  | compile e =>
      have hhanded := Expanding.Takes.handed h
      rw [run, e.session_compile]
      exact hhanded
  | _ => exact Issuing.Takes.handed h

/-- Every operation is made of steps that take identifiers, or takes none. -/
theorem Operation.exists_takes (operation : Operation) (s : Session) :
    ∃ taken, operation.Takes s taken := by
  cases operation with
  | nextId => exact Issuing.Traced.issue s.ids
  | createPage text => exact Page.traced_create text s.ids
  | createChoice text => exact Choice.traced_create text s.ids
  | createItem contents => exact Item.traced_create contents s.ids
  | createBlock => exact Block.traced_create s.ids
  | copyPage page => exact Page.traced_copy page s.ids
  | copyChoice choice => exact Choice.traced_copy choice s.ids
  | copyItem item => exact Item.traced_copy item s.ids
  | copyBlock block => exact Block.traced_copy block s.ids
  | sample bank request => exact ⟨[], rfl⟩
  | compile e => exact e.traced_expand _

/-- Several operations take the next identifiers of the session, in order. -/
theorem TakesAlong.handed {s : Session} {operations : List Operation} {taken : List String}
    (h : TakesAlong s operations taken) : s.ids.Handed (s.perform operations).ids taken := by
  induction h with
  | nil s => exact ⟨rfl, rfl⟩
  | cons first others hothers => exact first.handed.append hothers

theorem exists_takesAlong (operations : List Operation) (s : Session) :
    ∃ taken, TakesAlong s operations taken := by
  induction operations generalizing s with
  | nil => exact ⟨[], .nil s⟩
  | cons operation rest ih =>
      obtain ⟨taken, htaken⟩ := operation.exists_takes s
      obtain ⟨later, hlater⟩ := ih (operation.run s)
      exact ⟨taken ++ later, .cons htaken hlater⟩

end Session

/-! ### Growth -/

namespace Registry

/-- Making a bank known adds no token on any bank. -/
theorem tokens_addBank (r : Registry) (bank other : String) :
    (r.addBank bank).tokens other = r.tokens other := by
  rw [tokens, slots_addBank, tokens]

/-- The tokens of a bank stay where they are when another placeholder is made. -/
theorem tokens_note_prefix (r : Registry) (p : Placeholder) (bank : String) :
    r.tokens bank <+: (r.note p).tokens bank := by
  have hreserve : ∀ token, r.tokens bank <+: (r.reserve p.bank token).tokens bank := by
    intro token
    rw [tokens_reserve]
    split
    · rename_i h
      rw [h.1]
      exact List.prefix_append _ _
    · exact List.prefix_refl _
  have hknown : r.tokens bank <+: (r.addBank p.bank).tokens bank :=
    ⟨[], by rw [tokens_addBank, List.append_nil]⟩
  unfold note
  cases p.draw with
  | fresh => exact hknown
  | shared token => exact hreserve token
  | unlike token => exact hreserve token
  | replacing => exact hknown

end Registry

/-- One registry beside a later one: the tokens of every bank are followed by further ones. -/
def Registry.GrownTo (r r' : Registry) : Prop := ∀ bank, r.tokens bank <+: r'.tokens bank

namespace Registry.GrownTo

variable {r r' : Registry}

theorem reserved_le (h : r.GrownTo r') (bank : String) : r.reserved bank ≤ r'.reserved bank :=
  r.reserved_eq_length bank ▸ r'.reserved_eq_length bank ▸ (h bank).length_le

/-- A token keeps its slot. -/
theorem slotOf_eq (h : r.GrownTo r') {bank token : String} {slot : Nat}
    (hslot : r.slotOf bank token = some slot) : r'.slotOf bank token = some slot := by
  rw [slotOf_eq_idxOf?] at hslot ⊢
  obtain ⟨later, hlater⟩ := h bank
  rw [← hlater, List.idxOf?, List.findIdx?_append]
  rw [List.idxOf?] at hslot
  rw [hslot, Option.some_or]

end Registry.GrownTo

/-- A session beside one that was reached from it. -/
structure Session.GrownTo (s s' : Session) : Prop where
  ids : s.ids.last ≤ s'.ids.last
  registry : s.registry.GrownTo s'.registry

namespace Session

theorem GrownTo.refl (s : Session) : s.GrownTo s :=
  ⟨Nat.le_refl _, fun _ => List.prefix_refl _⟩

theorem GrownTo.trans {s s₁ s₂ : Session} (first : s.GrownTo s₁) (second : s₁.GrownTo s₂) :
    s.GrownTo s₂ :=
  ⟨Nat.le_trans first.ids second.ids,
    fun bank => (first.registry bank).trans (second.registry bank)⟩

/-- An operation adds tokens behind those that are there, if any. -/
theorem Operation.registry_run (operation : Operation) (s : Session) :
    s.registry.GrownTo (operation.run s).registry := by
  cases operation with
  | sample bank request =>
      show s.registry.GrownTo (Step.left (sampleFrom bank request s)).registry
      unfold sampleFrom
      cases request.draw? with
      | none => exact fun _ => List.prefix_refl _
      | some draw => exact fun _ => s.registry.tokens_note_prefix _ _
  | compile e =>
      rw [run, e.session_compile]
      exact fun _ => List.prefix_refl _
  | _ => exact fun _ => List.prefix_refl _

theorem Operation.grownTo_run (operation : Operation) (s : Session) :
    s.GrownTo (operation.run s) := by
  obtain ⟨taken, htaken⟩ := operation.exists_takes s
  refine ⟨?_, operation.registry_run s⟩
  rw [htaken.handed.2]
  exact Nat.le_add_right _ _

/-- Whatever is done in a session, it grows. -/
theorem grownTo_perform (operations : List Operation) (s : Session) :
    s.GrownTo (s.perform operations) := by
  induction operations generalizing s with
  | nil => exact .refl s
  | cons operation rest ih => exact (operation.grownTo_run s).trans (ih (operation.run s))

end Session

end Paradigm
