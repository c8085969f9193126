/-
Module: Paradigm.Proofs.Failures
Layer: Proofs
Purpose: Where refusals come from. The rules of nodes and of declarations are the only ones that
  expansion and resolution ask: a failure of theirs is the cause of some rule, found at a node of
  the tree, and a rule of declarations is asked only where a scope closes. The state of resolution
  is followed by the nodes whose placeholders its frames hold.
Imports: Paradigm.Proofs.Expansion.Items
Main exports: Cause.OfRules, Cause.OfUsage, Cause.OfNodes, Failure.FoundAt, FailsAt,
  Block.failsAt_check, Resolving.SoundAt, Page.soundAt_resolve, Item.soundAt_resolve,
  Block.soundAt_resolve, Experiment.foundAt_of_resolve, Experiment.foundAt_of_expand
-/
import Paradigm.Proofs.Expansion.Items

namespace Paradigm

/-! ### Causes of failures -/

/-- Causes that the rules of nodes and declarations find. Repeated identifiers are found by the
index, combined draws when a placeholder is made, and what authors state themselves is never
found. -/
def Cause.OfRules : Cause → Prop
  | .repeatedId _ _ => False
  | .combinedDraws => False
  | .stated _ _ => False
  | _ => True

/-- Causes that the rules of declarations find: a bank does not serve what is bound to it. -/
def Cause.OfUsage : Cause → Prop
  | .tooFewValues _ _ _ | .slotPastEnd _ _ _ => True
  | .mixedReplacement _ => True
  | .noSuchField _ _ | .fieldMissing _ | .fieldOfTexts _ _ => True
  | _ => False

/-- Causes that the rules of nodes find. -/
def Cause.OfNodes : Cause → Prop
  | .repeatedId _ _ | .combinedDraws | .stated _ _ => False
  | .tooFewValues _ _ _ | .slotPastEnd _ _ _ => False
  | .mixedReplacement _ => False
  | .noSuchField _ _ | .fieldMissing _ | .fieldOfTexts _ _ => False
  | _ => True

theorem Cause.OfUsage.ofRules {cause : Cause} (h : cause.OfUsage) : cause.OfRules := by
  cases cause <;> trivial

theorem Cause.OfNodes.ofRules {cause : Cause} (h : cause.OfNodes) : cause.OfRules := by
  cases cause <;> trivial

/-- The rules of nodes break none of the promises that banks keep to those who draw from them. -/
theorem Cause.OfNodes.promise_not_mem {cause : Cause} (h : cause.OfNodes) :
    cause.promise ∉ [.unknownField, .replacementPolicy, .bankSize] := by
  cases cause with
  | stated _ _ => exact h.elim
  | tooFewValues _ _ _ => exact h.elim
  | slotPastEnd _ _ _ => exact h.elim
  | mixedReplacement _ => exact h.elim
  | noSuchField _ _ => exact h.elim
  | fieldMissing _ => exact h.elim
  | fieldOfTexts _ _ => exact h.elim
  | _ => simp [Cause.promise]

/-- A failure with one of the given causes, found at one of the given nodes. -/
inductive Failure.FoundAt (nodes : String → Prop) (causes : Cause → Prop) : Failure → Prop where
  | rule {node : String} {cause : Cause} (at_node : nodes node) (of_rules : causes cause) :
      Failure.FoundAt nodes causes (.rule node cause)

theorem Failure.FoundAt.mono {nodes : String → Prop} {causes causes' : Cause → Prop}
    {failure : Failure} (h : failure.FoundAt nodes causes)
    (hcauses : ∀ {cause}, causes cause → causes' cause) : failure.FoundAt nodes causes' := by
  cases h with
  | rule at_node of_rules => exact .rule at_node (hcauses of_rules)

section Checks

variable {nodes : String → Prop} {causes : Cause → Prop}

/-- A computation that fails at one of the given nodes and with one of the given causes, if it
fails. -/
def FailsAt {α : Type} (nodes : String → Prop) (causes : Cause → Prop)
    (outcome : Except Failure α) : Prop :=
  ∀ failure, outcome = .error failure → failure.FoundAt nodes causes

namespace FailsAt

variable {α β : Type}

theorem ok (value : α) : FailsAt nodes causes (.ok value) := by
  intro failure h
  cases h

theorem refuse {node : String} {cause : Cause} (hnode : nodes node) (hcause : causes cause) :
    FailsAt nodes causes (Paradigm.refuse node cause : Except Failure α) := by
  intro failure h
  cases h
  exact .rule hnode hcause

theorem bind {m : Except Failure α} {next : α → Except Failure β}
    (first : FailsAt nodes causes m) (second : ∀ value, FailsAt nodes causes (next value)) :
    FailsAt nodes causes (m >>= next) := by
  cases m with
  | ok value => exact second value
  | error failure =>
      intro other h
      cases h
      exact first failure rfl

theorem require {condition : Bool} {node : String} {cause : Cause} (hnode : nodes node)
    (hcause : causes cause) : FailsAt nodes causes (Paradigm.require condition node cause) := by
  unfold Paradigm.require
  split
  · exact .ok ()
  · exact .refuse hnode hcause

theorem checkAll {check : α → Verdict} {xs : List α}
    (h : ∀ x ∈ xs, FailsAt nodes causes (check x)) :
    FailsAt nodes causes (Paradigm.checkAll check xs) := by
  induction xs with
  | nil => exact .ok ()
  | cons x rest ih =>
      obtain ⟨hfirst, hrest⟩ := List.forall_mem_cons.mp h
      exact hfirst.bind fun _ => ih hrest

end FailsAt

/-! ### Rules of nodes -/

theorem failsAt_checkPattern {node pattern : String} (h : nodes node) :
    FailsAt nodes Cause.OfNodes (checkPattern node pattern) := .require h trivial

theorem Guard.failsAt_check {g : Guard} {owner : String} (h : nodes owner) :
    FailsAt nodes Cause.OfNodes (g.check owner) := by
  refine .bind (.require h trivial) fun _ => .bind (.require h trivial) fun _ =>
    .bind (.require h trivial) fun _ => ?_
  rcases g.item with _ | item <;> rcases g.regex with _ | regex
  · exact .ok ()
  · exact failsAt_checkPattern h
  · exact .bind (.require h trivial) fun _ => .ok ()
  · exact .bind (.require h trivial) fun _ => failsAt_checkPattern h

theorem Guard.failsAt_checkOption {g : Option Guard} {owner : String} (h : nodes owner) :
    FailsAt nodes Cause.OfNodes (Guard.checkOption g owner) := by
  cases g with
  | none => exact .ok ()
  | some g => exact Guard.failsAt_check h

theorem Feedback.failsAt_check {feedback : Option Feedback} {owner : String} (h : nodes owner) :
    FailsAt nodes Cause.OfNodes (Feedback.check feedback owner) := by
  rcases feedback with _ | (label | shown)
  · exact .ok ()
  · exact .ok ()
  · exact .require h trivial

theorem failsAt_checkTextBoxKey {key : String × Option AnswerKey} (h : nodes key.1) :
    FailsAt nodes Cause.OfNodes (checkTextBoxKey key) := by
  rcases key with ⟨node, _ | value | pattern⟩
  · exact .ok ()
  · exact .refuse h trivial
  · exact failsAt_checkPattern h

theorem failsAt_checkChoiceKey {key : String × Option AnswerKey} (h : nodes key.1) :
    FailsAt nodes Cause.OfNodes (checkChoiceKey key) := by
  rcases key with ⟨node, _ | value | pattern⟩
  · exact .ok ()
  · exact .ok ()
  · exact .refuse h trivial

theorem Page.failsAt_checkKeyboard {page : Page} (h : nodes page.id) :
    FailsAt nodes Cause.OfNodes page.checkKeyboard := by
  unfold Page.checkKeyboard
  split
  · exact .require h trivial
  · exact .require h trivial
  · exact .ok ()

/-- The rules of a page find fault with the page or with one of its options. -/
theorem Page.failsAt_check {page : Page} (hpage : nodes page.id)
    (hchoices : ∀ choice ∈ page.choices, nodes choice.id) :
    FailsAt nodes Cause.OfNodes page.check := by
  have hkeys : ∀ key ∈ page.answerKeys, nodes key.1 := by
    intro key hkey
    rcases List.mem_append.mp hkey with hkey | hkey
    · obtain ⟨choice, hchoice, rfl⟩ := List.mem_map.mp hkey
      exact hchoices choice hchoice
    · rw [List.mem_singleton] at hkey
      exact hkey ▸ hpage
  have hanswers : FailsAt nodes Cause.OfNodes page.checkAnswers := by
    unfold Page.checkAnswers
    split
    · exact .bind (.require hpage trivial) fun _ =>
        .checkAll fun key hkey => failsAt_checkTextBoxKey (hkeys key hkey)
    · exact .checkAll fun key hkey => failsAt_checkChoiceKey (hkeys key hkey)
  exact .bind hanswers fun _ => .bind (Page.failsAt_checkKeyboard hpage) fun _ =>
    .bind (Feedback.failsAt_check hpage) fun _ => Guard.failsAt_checkOption hpage

theorem Item.failsAt_check {item : Item} (h : nodes item.id) :
    FailsAt nodes Cause.OfNodes item.check :=
  .bind (.require h trivial) fun _ => Guard.failsAt_checkOption h

/-! ### Rules of blocks -/

theorem failsAt_checkReferences {owner : String} {children : List Block}
    {refs : List (ReferenceList × String)} (h : nodes owner) :
    FailsAt nodes Cause.OfNodes (checkReferences owner children refs) :=
  .checkAll fun _ _ => .require h trivial

theorem Block.failsAt_literalConditions {block : Block} {members : List (String × Option Text)}
    (h : ∀ member ∈ members, nodes member.1) :
    FailsAt nodes Cause.OfNodes (block.literalConditions members) := by
  induction members with
  | nil => exact .ok []
  | cons member rest ih =>
      obtain ⟨hmember, hrest⟩ := List.forall_mem_cons.mp h
      have hcondition : FailsAt nodes Cause.OfNodes (block.literalCondition member) := by
        rcases member with ⟨node, _ | (value | placeholder)⟩
        · exact .refuse hmember trivial
        · exact .ok value
        · exact .refuse hmember trivial
      exact .bind hcondition fun _ => .bind (ih hrest) fun _ => .ok _

theorem Block.failsAt_checkPseudorandom {block : Block} (hblock : nodes block.id)
    (hpages : ∀ page ∈ block.pages.getD [], nodes page.id)
    (hitems : ∀ item ∈ block.ownItems, nodes item.id) :
    FailsAt nodes Cause.OfNodes block.checkPseudorandom := by
  have hmembers : ∀ items : List Item, (∀ item ∈ items, item ∈ block.ownItems) →
      FailsAt nodes Cause.OfNodes (block.literalConditions (items.map Item.member)) := by
    intro items hown
    apply Block.failsAt_literalConditions
    intro member hmember
    obtain ⟨item, hitem, rfl⟩ := List.mem_map.mp hmember
    exact hitems item (hown item hitem)
  unfold Block.checkPseudorandom
  by_cases hon : (block.pseudorandom == some true) = true
  · rw [if_pos hon]
    cases hgroups : block.groups with
    | some groups =>
        simp only
        split
        · refine .bind (hmembers _ ?_) fun _ => .require hblock trivial
          intro item hitem
          rw [Block.ownItems, hgroups]
          exact List.mem_append_right _ hitem
        · exact .refuse hblock trivial
    | none =>
        cases hofPages : block.pages with
        | some pages =>
            refine .bind (Block.failsAt_literalConditions ?_) fun _ => .ok _
            intro member hmember
            obtain ⟨page, hpage, rfl⟩ := List.mem_map.mp hmember
            apply hpages page
            rwa [hofPages]
        | none =>
            cases hofItems : block.items with
            | some items =>
                refine .bind (hmembers items ?_) fun _ => .ok _
                intro item hitem
                rw [Block.ownItems, hofItems]
                exact List.mem_append_left _ hitem
            | none => exact .refuse hblock trivial
  · rw [if_neg hon]
    exact .ok ()

theorem Block.failsAt_checkRepetition {block : Block} (h : nodes block.id) :
    FailsAt nodes Cause.OfNodes block.checkRepetition := by
  unfold Block.checkRepetition
  split
  · exact .bind (.require h trivial) fun _ => .require h trivial
  · exact .bind (.require h trivial) fun _ => .require h trivial
  · exact .require h trivial

theorem failsAt_checkBank {owner name : String} {bank : Bank} (h : nodes owner) :
    FailsAt nodes Cause.OfNodes (checkBank owner name bank) := by
  rcases bank with _ | ⟨value | record, rest⟩
  · exact .refuse h trivial
  · exact .require h trivial
  · refine .checkAll fun entry _ => ?_
    cases entry with
    | text value => exact .refuse h trivial
    | record other => exact .require h trivial

theorem failsAt_checkBanks {owner : String} {banks : Banks} (h : nodes owner) :
    FailsAt nodes Cause.OfNodes (checkBanks owner banks) :=
  .checkAll fun _ _ => failsAt_checkBank h

/-- The rules of a block find fault with the block or with one of its pages or items. -/
theorem Block.failsAt_check {block : Block} (hblock : nodes block.id)
    (hpages : ∀ page ∈ block.pages.getD [], nodes page.id)
    (hitems : ∀ item ∈ block.ownItems, nodes item.id) :
    FailsAt nodes Cause.OfNodes block.check := by
  have hreferences : FailsAt nodes Cause.OfNodes block.checkReferences := by
    unfold Block.checkReferences
    split
    · split
      · exact .refuse hblock trivial
      · exact failsAt_checkReferences hblock
    · exact .ok ()
  have hsquare : FailsAt nodes Cause.OfNodes block.checkLatinSquare := by
    unfold Block.checkLatinSquare
    split
    · split
      · exact .refuse hblock trivial
      · exact .ok ()
      · exact .require hblock trivial
    · exact .ok ()
  exact .bind (.require hblock trivial) fun _ => .bind hreferences fun _ => .bind hsquare fun _ =>
    .bind (Block.failsAt_checkPseudorandom hblock hpages hitems) fun _ =>
    .bind (Block.failsAt_checkRepetition hblock) fun _ =>
    .bind (failsAt_checkBanks hblock) fun _ => Guard.failsAt_checkOption hblock

/-- The rules of a block find fault with nodes of the block. -/
theorem Block.failsAt_check_of_identities {block : Block}
    (h : ∀ identity ∈ block.identities, nodes identity.2) :
    FailsAt nodes Cause.OfNodes block.check := by
  obtain ⟨id, pages, items, groups, blocks⟩ := block
  simp only [Block.identities, List.cons_append, List.forall_mem_cons, List.forall_mem_append,
    List.forall_mem_flatMap] at h
  obtain ⟨hself, ⟨⟨hpages, hitems⟩, hgroups⟩, _⟩ := h
  apply Block.failsAt_check hself
  · intro page hpage
    exact hpages page hpage _ page.mem_identities_self
  · intro item hitem
    rcases List.mem_append.mp hitem with hitem | hitem
    · exact hitems item hitem _ List.mem_cons_self
    · exact hgroups item hitem _ List.mem_cons_self

theorem Experiment.failsAt_check {e : Experiment} (h : nodes Experiment.node) :
    FailsAt nodes Cause.OfNodes e.check :=
  .bind (failsAt_checkReferences h) fun _ => failsAt_checkBanks h

/-! ### Rules of declarations -/

/-- The rules of a declared bank find fault with the declaration or with a node that draws from
it. -/
theorem failsAt_checkUsage {owner name : String} {bank : Bank} {usage : Usage}
    (howner : nodes owner) (husage : ∀ use ∈ usage, nodes use.node) :
    FailsAt nodes Cause.OfUsage (checkUsage owner name bank usage) := by
  have hfield : ∀ use ∈ usage, FailsAt nodes Cause.OfUsage (checkField name bank.fields? use) := by
    intro use huse
    unfold checkField
    split
    · exact .require (husage use huse) trivial
    · exact .refuse (husage use huse) trivial
    · exact .refuse (husage use huse) trivial
    · exact .ok ()
  refine .bind (.checkAll hfield) fun _ => .bind (.require howner trivial) fun _ =>
    .bind (.require howner trivial) fun _ => ?_
  split
  · exact .require howner trivial
  · exact .ok ()

/-- The declarations of a node, with placeholders of the given nodes bound to them. -/
structure Frame.Within (nodes : String → Prop) (frame : Frame) : Prop where
  owner : nodes frame.owner
  uses : ∀ entry ∈ frame.uses, nodes entry.2.node

theorem Frame.Within.failsAt_check {frame : Frame} (h : frame.Within nodes) :
    FailsAt nodes Cause.OfUsage frame.check := by
  refine .checkAll fun declared _ => ?_
  simp only
  split
  · exact .ok ()
  · apply failsAt_checkUsage h.owner
    intro use huse
    simp only [Frame.usage, List.mem_filterMap, Option.ite_none_right_eq_some,
      Option.some.injEq] at huse
    obtain ⟨entry, hentry, _, rfl⟩ := huse
    exact h.uses entry hentry

theorem Frame.within_of_bind? {bank : String} {use : Use} {frames frames' : List Frame}
    (h : Frame.bind? bank use frames = some frames') (huse : nodes use.node)
    (hframes : ∀ frame ∈ frames, frame.Within nodes) : ∀ frame ∈ frames', frame.Within nodes := by
  induction frames generalizing frames' with
  | nil => simp [Frame.bind?] at h
  | cons frame outer ih =>
      obtain ⟨hframe, houter⟩ := List.forall_mem_cons.mp hframes
      unfold Frame.bind? at h
      split at h
      · cases h
        refine List.forall_mem_cons.mpr ⟨⟨hframe.owner, ?_⟩, houter⟩
        intro entry hentry
        rcases List.mem_append.mp hentry with hentry | hentry
        · exact hframe.uses entry hentry
        · rw [List.mem_singleton] at hentry
          exact hentry ▸ huse
      · obtain ⟨outer', houter', rfl⟩ := Option.map_eq_some_iff.mp h
        exact List.forall_mem_cons.mpr ⟨hframe, ih houter' houter⟩

/-! ### Guards and tokens -/

theorem Index.failsAt_checkWatched {index : Index} {owner id : String} {kind : NodeKind}
    (h : nodes owner) : FailsAt nodes Cause.OfNodes (index.checkWatched owner kind id) :=
  .require h trivial

theorem Index.failsAt_resolveOption {index : Index} {owner : String} {g : Option Guard}
    (h : nodes owner) : FailsAt nodes Cause.OfNodes (index.resolveOption owner g) := by
  cases g with
  | none => exact .ok none
  | some g =>
      have hpage : FailsAt nodes Cause.OfNodes (index.watchedPage owner g) := by
        unfold Index.watchedPage
        split
        · exact .bind (Index.failsAt_checkWatched h) fun _ => .ok _
        · split
          · exact .refuse h trivial
          · exact .bind (.require h trivial) fun _ => .ok _
        · exact .ok none
      have hresolve : FailsAt nodes Cause.OfNodes (index.resolve owner g) := by
        refine .bind hpage fun page => ?_
        cases g.choice with
        | none => exact .ok _
        | some choice => exact .bind (Index.failsAt_checkWatched h) fun _ => .ok _
      exact hresolve.bind fun _ => .ok _

theorem failsAt_tokenSlot {registry : Registry} {node bank token : String} (h : nodes node) :
    FailsAt nodes Cause.OfNodes (tokenSlot registry node bank token) := by
  unfold tokenSlot
  split
  · exact .ok _
  · exact .refuse h trivial

/-! ### Steps of resolution -/

/-- Steps of resolution that fail at one of the given nodes and with one of the given causes, if
they fail, and otherwise leave frames of such nodes when they start from such frames. -/
def Resolving.SoundAt {α : Type} (nodes : String → Prop) (causes : Cause → Prop)
    (m : Resolving α) : Prop :=
  ∀ g, (∀ frame ∈ g.frames, frame.Within nodes) →
    match m g with
    | .ok _ g' => ∀ frame ∈ g'.frames, frame.Within nodes
    | .error failure _ => failure.FoundAt nodes causes

namespace Resolving.SoundAt

variable {α β : Type}

theorem mono {causes' : Cause → Prop} {m : Resolving α} (h : SoundAt nodes causes m)
    (hcauses : ∀ {cause}, causes cause → causes' cause) : SoundAt nodes causes' m := by
  intro g hframes
  have hsound := h g hframes
  cases hm : m g with
  | ok value g' =>
      rw [hm] at hsound
      exact hsound
  | error failure g' =>
      rw [hm] at hsound
      exact hsound.mono hcauses

theorem pure (value : α) : SoundAt nodes causes (Pure.pure value : Resolving α) :=
  fun _ hframes => hframes

theorem bind {m : Resolving α} {next : α → Resolving β} (first : SoundAt nodes causes m)
    (second : ∀ value, SoundAt nodes causes (next value)) : SoundAt nodes causes (m >>= next) := by
  intro g hframes
  have hfirst := first g hframes
  show match EStateM.bind m next g with
    | .ok _ g' => ∀ frame ∈ g'.frames, frame.Within nodes
    | .error failure _ => failure.FoundAt nodes causes
  unfold EStateM.bind
  cases hm : m g with
  | error failure g' =>
      rw [hm] at hfirst
      exact hfirst
  | ok value g' =>
      rw [hm] at hfirst
      exact second value g' hfirst

theorem lift {outcome : Except Failure α} (h : FailsAt nodes causes outcome) :
    SoundAt nodes causes (Resolving.lift outcome) := by
  intro g hframes
  cases outcome with
  | ok value => exact hframes
  | error failure => exact h failure rfl

theorem warn (warnings : List Warning) : SoundAt nodes causes (Resolving.warn warnings) :=
  fun _ hframes => hframes

theorem openScope {owner : String} (h : nodes owner) (banks : Banks) :
    SoundAt nodes causes (Resolving.openScope owner banks) := by
  intro g hframes
  exact List.forall_mem_cons.mpr ⟨⟨h, by simp⟩, hframes⟩

theorem closeScope : SoundAt nodes Cause.OfRules Resolving.closeScope := by
  intro g hframes
  unfold Resolving.closeScope
  cases hg : g.frames with
  | nil =>
      simp only [hg]
      exact fun _ hframe => absurd hframe List.not_mem_nil
  | cons frame outer =>
      rw [hg] at hframes
      obtain ⟨hframe, houter⟩ := List.forall_mem_cons.mp hframes
      cases hcheck : frame.check with
      | ok _ =>
          simp only [hcheck]
          exact houter
      | error failure =>
          simp only [hcheck]
          exact (hframe.failsAt_check failure hcheck).mono Cause.OfUsage.ofRules

theorem freshSlot (bank : String) :
    SoundAt nodes causes (Resolving.freshSlot bank) := fun _ hframes => hframes

theorem bindUse {bank : String} {use : Use} (h : nodes use.node) :
    SoundAt nodes Cause.OfNodes (Resolving.bind bank use) := by
  intro g hframes
  unfold Resolving.bind
  cases hbind : Frame.bind? bank use g.frames with
  | none =>
      exact .rule h trivial
  | some frames =>
      exact Frame.within_of_bind? hbind h hframes

theorem mapM {step : α → Resolving β} {xs : List α} (h : ∀ x ∈ xs, SoundAt nodes causes (step x)) :
    SoundAt nodes causes (xs.mapM step) := by
  induction xs with
  | nil =>
      rw [List.mapM_nil]
      exact .pure []
  | cons x rest ih =>
      obtain ⟨hfirst, hrest⟩ := List.forall_mem_cons.mp h
      rw [List.mapM_cons]
      exact hfirst.bind fun _ => (ih hrest).bind fun _ => .pure _

theorem option {step : α → Resolving β} {value : Option α}
    (h : ∀ x, value = some x → SoundAt nodes causes (step x)) :
    SoundAt nodes causes (resolveOption step value) := by
  cases value with
  | none => exact .pure none
  | some x => exact (h x rfl).bind fun _ => .pure _

end Resolving.SoundAt

/-! ### Texts and pages -/

variable {env : Surroundings}

theorem Placeholder.soundAt_resolve {node : String} (h : nodes node) (p : Placeholder) :
    Resolving.SoundAt nodes Cause.OfNodes (p.resolve env node) := by
  have hslot : Resolving.SoundAt nodes Cause.OfNodes (p.slot env node) := by
    unfold Placeholder.slot
    cases p.draw with
    | fresh => exact .bind (.freshSlot _) fun _ => .pure _
    | shared token => exact .bind (.lift (failsAt_tokenSlot h)) fun _ => .pure _
    | unlike token => exact .bind (.lift (failsAt_tokenSlot h)) fun _ => .pure _
    | replacing => exact .pure _
  exact hslot.bind fun _ => .bind (.bindUse h) fun _ => .pure _

theorem Text.soundAt_resolve {node : String} (h : nodes node) (text : Text) :
    Resolving.SoundAt nodes Cause.OfNodes (text.resolve env node) := by
  cases text with
  | literal value => exact .pure _
  | sample p => exact .bind (p.soundAt_resolve h) fun _ => .pure _

theorem Text.soundAt_resolveOption {node : String} (h : nodes node) (text : Option Text) :
    Resolving.SoundAt nodes Cause.OfNodes (Text.resolveOption env node text) := by
  cases text with
  | none => exact .pure _
  | some text => exact .bind (text.soundAt_resolve h) fun _ => .pure _

theorem PageText.soundAt_resolve {node : String} (h : nodes node) (text : PageText) :
    Resolving.SoundAt nodes Cause.OfNodes (text.resolve env node) := by
  cases text with
  | single text => exact .bind (text.soundAt_resolve h) fun _ => .pure _
  | lines texts => exact .bind (.mapM fun text _ => text.soundAt_resolve h) fun _ => .pure _

theorem ResourceEntry.soundAt_resolve {node : String} (h : nodes node) (entry : ResourceEntry) :
    Resolving.SoundAt nodes Cause.OfNodes (entry.resolve env node) := by
  cases entry with
  | file name => exact .pure _
  | full resource => exact .bind (resource.source.soundAt_resolve h) fun _ => .pure _
  | sample p => exact .bind (p.soundAt_resolve h) fun _ => .pure _

theorem Guard.soundAt_resolveOption {node : String} (h : nodes node) (g : Option Guard) :
    Resolving.SoundAt nodes Cause.OfNodes (Guard.resolveOption env node g) :=
  .lift (Index.failsAt_resolveOption h)

theorem Choice.nodes_of_identitiesList : ∀ {choices : List Choice},
    (∀ identity ∈ Choice.identitiesList choices, nodes identity.2) →
      ∀ choice ∈ choices, nodes choice.id
  | [], _, _, hchoice => absurd hchoice List.not_mem_nil
  | ⟨_, _, _, _, _, _⟩ :: rest, h, choice, hchoice => by
      simp only [Choice.identitiesList, Choice.identities, List.forall_mem_append,
        List.forall_mem_cons] at h
      rcases List.mem_cons.mp hchoice with rfl | hchoice
      · exact h.1.1
      · exact Choice.nodes_of_identitiesList h.2 choice hchoice

mutual

theorem Feedback.soundAt_resolve : ∀ {node : String} {feedback : Feedback}, nodes node →
    (∀ identity ∈ feedback.identities, nodes identity.2) →
      Resolving.SoundAt nodes Cause.OfNodes (feedback.resolve env node)
  | _, .text label, hnode, _ => by
      rw [Feedback.resolve]
      exact .bind (label.soundAt_resolve hnode) fun _ => .pure _
  | _, .page shown, _, h => by
      rw [Feedback.resolve]
      exact .bind (Page.soundAt_resolve h) fun _ => .pure _

theorem Feedback.soundAt_resolveOption : ∀ {node : String} {feedback : Option Feedback},
    nodes node → (∀ identity ∈ Feedback.identitiesOption feedback, nodes identity.2) →
      Resolving.SoundAt nodes Cause.OfNodes (Feedback.resolveOption env node feedback)
  | _, none, _, _ => by
      rw [Feedback.resolveOption]
      exact .pure _
  | _, some _, hnode, h => by
      rw [Feedback.resolveOption]
      exact .bind (Feedback.soundAt_resolve hnode h) fun _ => .pure _

theorem Choice.soundAt_resolve : ∀ {choice : Choice},
    (∀ identity ∈ choice.identities, nodes identity.2) →
      Resolving.SoundAt nodes Cause.OfNodes (choice.resolve env)
  | ⟨_, text, _, _, _, _⟩, h => by
      simp only [Choice.identities, List.forall_mem_cons] at h
      obtain ⟨hself, hfeedback⟩ := h
      rw [Choice.resolve]
      exact .bind (.lift (Feedback.failsAt_check hself)) fun _ =>
        .bind (Text.soundAt_resolveOption hself text) fun _ =>
        .bind (Feedback.soundAt_resolveOption hself hfeedback) fun _ =>
        .bind (.mapM fun entry _ => entry.soundAt_resolve hself) fun _ => .pure _

theorem Choice.soundAt_resolveList : ∀ {choices : List Choice},
    (∀ identity ∈ Choice.identitiesList choices, nodes identity.2) →
      Resolving.SoundAt nodes Cause.OfNodes (Choice.resolveList env choices)
  | [], _ => by
      rw [Choice.resolveList]
      exact .pure _
  | _ :: _, h => by
      rw [Choice.identitiesList, List.forall_mem_append] at h
      rw [Choice.resolveList]
      exact .bind (Choice.soundAt_resolve h.1) fun _ =>
        .bind (Choice.soundAt_resolveList h.2) fun _ => .pure _

/-- Resolving a page fails at the page, at one of its options or in its feedback. -/
theorem Page.soundAt_resolve : ∀ {page : Page},
    (∀ identity ∈ page.identities, nodes identity.2) →
      Resolving.SoundAt nodes Cause.OfNodes (page.resolve env)
  | ⟨_, text, _, _, _, _, condition, _, _, _, _, _, guard⟩, h => by
      simp only [Page.identities, List.cons_append, List.forall_mem_cons,
        List.forall_mem_append] at h
      obtain ⟨hself, hfeedback, hchoices⟩ := h
      rw [Page.resolve]
      exact .bind (.lift (Page.failsAt_check hself (Choice.nodes_of_identitiesList hchoices)))
        fun _ => .bind (text.soundAt_resolve hself) fun _ =>
        .bind (Choice.soundAt_resolveList hchoices) fun _ =>
        .bind (Feedback.soundAt_resolveOption hself hfeedback) fun _ =>
        .bind (.mapM fun entry _ => entry.soundAt_resolve hself) fun _ =>
        .bind (Text.soundAt_resolveOption hself condition) fun _ =>
        .bind (Guard.soundAt_resolveOption hself guard) fun _ => .pure _

end

/-! ### Items and blocks -/

theorem Item.soundAt_resolve {item : Item}
    (h : ∀ identity ∈ item.identities, nodes identity.2) :
    Resolving.SoundAt nodes Cause.OfNodes (item.resolve env) := by
  obtain ⟨hself, hpages⟩ := List.forall_mem_cons.mp h
  rw [List.forall_mem_flatMap] at hpages
  exact .bind (.lift (Item.failsAt_check hself)) fun _ =>
    .bind (.mapM fun page hpage => Page.soundAt_resolve (hpages page hpage)) fun _ =>
    .bind (Text.soundAt_resolveOption hself item.condition) fun _ =>
    .bind (Guard.soundAt_resolveOption hself item.guard) fun _ => .pure _

mutual

/-- Resolving a block fails at the block or at a node in it. -/
theorem Block.soundAt_resolve : ∀ {block : Block},
    (∀ identity ∈ block.identities, nodes identity.2) →
      Resolving.SoundAt nodes Cause.OfRules (block.resolve env)
  | ⟨id, pages, items, groups, blocks, exchangeable, counterbalance, treatments, latinSquare,
      pseudorandom, criterion, cutoff, guard, banks⟩, h => by
      have hcheck := Block.failsAt_check_of_identities h
      simp only [Block.identities, List.cons_append, List.forall_mem_cons, List.forall_mem_append,
        List.forall_mem_flatMap] at h
      obtain ⟨hself, ⟨⟨hpages, hitems⟩, hgroups⟩, hchildren⟩ := h
      rw [Block.resolve]
      have hguard : Resolving.SoundAt nodes Cause.OfNodes (Guard.resolveOption env id guard) :=
        Guard.soundAt_resolveOption hself guard
      refine .bind (.warn _) fun _ => .bind (.mono (.lift hcheck) Cause.OfNodes.ofRules) fun _ =>
        .bind (.openScope hself banks) fun _ =>
        .bind (.mono (.option ?_) Cause.OfNodes.ofRules) fun _ =>
        .bind (.mono (.option ?_) Cause.OfNodes.ofRules) fun _ =>
        .bind (.mono (.option ?_) Cause.OfNodes.ofRules) fun _ =>
        .bind (Block.soundAt_resolveChildren hchildren) fun _ =>
        .bind (.mono hguard Cause.OfNodes.ofRules) fun _ => .bind .closeScope fun _ => .pure _
      · rintro list rfl
        exact .mapM fun page hpage => Page.soundAt_resolve (hpages page hpage)
      · rintro list rfl
        exact .mapM fun item hitem => Item.soundAt_resolve (hitems item hitem)
      · rintro list rfl
        refine .mapM fun group hgroup => .mapM fun item hitem => Item.soundAt_resolve ?_
        exact hgroups item (List.mem_flatten_of_mem hgroup hitem)

theorem Block.soundAt_resolveChildren : ∀ {blocks : Option (List Block)},
    (∀ identity ∈ Block.identitiesOption blocks, nodes identity.2) →
      Resolving.SoundAt nodes Cause.OfRules (Block.resolveChildren env blocks)
  | none, _ => by
      rw [Block.resolveChildren]
      exact .pure _
  | some _, h => by
      rw [Block.resolveChildren]
      exact .bind (Block.soundAt_resolveList h) fun _ => .pure _

theorem Block.soundAt_resolveList : ∀ {blocks : List Block},
    (∀ identity ∈ Block.identitiesList blocks, nodes identity.2) →
      Resolving.SoundAt nodes Cause.OfRules (Block.resolveList env blocks)
  | [], _ => by
      rw [Block.resolveList]
      exact .pure _
  | _ :: _, h => by
      rw [Block.identitiesList, List.forall_mem_append] at h
      rw [Block.resolveList]
      exact .bind (Block.soundAt_resolve h.1) fun _ =>
        .bind (Block.soundAt_resolveList h.2) fun _ => .pure _

end

/-- A failure of resolution is the cause of a rule, found at the root or at a node of the expanded
tree. -/
theorem Experiment.foundAt_of_resolve {e : Experiment} {failure : Failure} {g : Gathered}
    (hroot : nodes Experiment.node) (h : ∀ identity ∈ e.identities, nodes identity.2)
    (hfails : e.resolve env (.start env.registry) = .error failure g) :
    failure.FoundAt nodes Cause.OfRules := by
  have hsound : Resolving.SoundAt nodes Cause.OfRules (e.resolve env) :=
    .bind (.openScope hroot e.banks) fun _ => .bind (Block.soundAt_resolveList h) fun _ =>
      .bind .closeScope fun _ => .pure _
  have hfound := hsound (.start env.registry) (by simp [Gathered.start])
  rwa [hfails] at hfound

/-! ### Expansion -/

/-- Steps of expansion that fail at one of the given nodes, if they do. -/
def Expanding.SoundAt {α : Type} (nodes : String → Prop) (m : Expanding α) : Prop :=
  ∀ p failure p', m p = .error failure p' → failure.FoundAt nodes Cause.OfNodes

namespace Expanding.SoundAt

variable {α β : Type}

theorem pure (value : α) : SoundAt nodes (Pure.pure value : Expanding α) := by
  intro p failure p' h
  cases h

theorem bind {m : Expanding α} {next : α → Expanding β} (first : SoundAt nodes m)
    (second : ∀ value, SoundAt nodes (next value)) : SoundAt nodes (m >>= next) := by
  intro p failure p' h
  change EStateM.bind m next p = _ at h
  unfold EStateM.bind at h
  cases hm : m p with
  | error failure' p₁ =>
      rw [hm] at h
      cases h
      exact first p _ _ hm
  | ok value p₁ =>
      rw [hm] at h
      exact second value _ _ _ h

theorem warn (warnings : List Warning) : SoundAt nodes (Expanding.warn warnings) := by
  intro p failure p' h
  cases h

theorem issuing (m : Issuing α) : SoundAt nodes (Expanding.issuing m) := by
  intro p failure p' h
  cases h

theorem check {verdict : Verdict} (h : FailsAt nodes Cause.OfNodes verdict) :
    SoundAt nodes (Expanding.check verdict) := by
  intro p failure p' hfails
  cases verdict with
  | ok _ => cases hfails
  | error failure' =>
      cases hfails
      exact h _ rfl

end Expanding.SoundAt

/-- A treatment changes no identity. -/
theorem Block.identities_treated (block : Block) (treatment : Option Nat) :
    (block.treated treatment).identities = block.identities := by
  obtain ⟨guard, htreated⟩ := block.treated_eq treatment
  rw [htreated]
  cases block
  rfl

mutual

/-- Expanding a block fails at the block, at a node that it holds or in a block in it. -/
theorem Block.soundAt_expand : ∀ {block : Block} {treatment : Option Nat},
    (∀ identity ∈ block.identities, nodes identity.2) →
      Expanding.SoundAt nodes (block.expand treatment)
  | ⟨id, pages, items, groups, blocks, exchangeable, counterbalance, treatments, latinSquare,
      pseudorandom, criterion, cutoff, guard, banks⟩, treatment, h => by
      have hcheck := Block.failsAt_check_of_identities
        ((Block.identities_treated _ treatment).symm ▸ h)
      simp only [Block.identities, List.forall_mem_append] at h
      rw [Block.expand]
      exact .bind (.warn _) fun _ => .bind (.check hcheck) fun _ => .bind (.warn _) fun _ =>
        .bind (.issuing _) fun _ => .bind (.issuing _) fun _ => .bind (.issuing _) fun _ =>
        .bind (Block.soundAt_expandChildren h.2) fun _ => .pure _

theorem Block.soundAt_expandChildren : ∀ {blocks : Option (List Block)}
    {given : List (String × Nat)}, (∀ identity ∈ Block.identitiesOption blocks, nodes identity.2) →
      Expanding.SoundAt nodes (Block.expandChildren given blocks)
  | none, _, _ => by
      rw [Block.expandChildren]
      exact .pure _
  | some _, _, h => by
      rw [Block.expandChildren]
      exact .bind (Block.soundAt_expandList h) fun _ => .pure _

theorem Block.soundAt_expandList : ∀ {blocks : List Block} {given : List (String × Nat)},
    (∀ identity ∈ Block.identitiesList blocks, nodes identity.2) →
      Expanding.SoundAt nodes (Block.expandList given blocks)
  | [], _, _ => by
      rw [Block.expandList]
      exact .pure _
  | _ :: _, _, h => by
      rw [Block.identitiesList, List.forall_mem_append] at h
      rw [Block.expandList]
      exact .bind (Block.soundAt_expand h.1) fun _ =>
        .bind (Block.soundAt_expandList h.2) fun _ => .pure _

end

/-- A failure of expansion is the cause of a rule of nodes, found at the root or at a node of the
tree. -/
theorem Experiment.foundAt_of_expand {e : Experiment} {failure : Failure} {p p' : Progress}
    (hroot : nodes Experiment.node) (h : ∀ identity ∈ e.identities, nodes identity.2)
    (hfails : e.expand p = .error failure p') : failure.FoundAt nodes Cause.OfNodes := by
  have hsound : Expanding.SoundAt nodes e.expand :=
    .bind (.warn _) fun _ => .bind (.check (Experiment.failsAt_check hroot)) fun _ =>
      .bind (.warn _) fun _ => .bind (Block.soundAt_expandList h) fun _ => .pure _
  exact hsound p failure p' hfails

end Checks

end Paradigm
