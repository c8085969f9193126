/-
Module: Paradigm.Proofs.Relabelling.Expansion
Layer: Proofs
Purpose: Expansion compares identifiers and issues new ones, and does nothing else with them. A tree
  and the relabelled tree expand side by side, each in its session, as long as the relabelling takes
  what the one session issues to what the other issues in its place: both issue equally many
  identifiers, give warnings that correspond, and are refused for the same cause or not at all.
Imports: Mathlib.Order.Monotone.Basic, Paradigm.Proofs.Expansion,
  Paradigm.Proofs.Expansion.Minting, Paradigm.Proofs.Relabelling.Rules, Paradigm.Proofs.SideBySide
Main exports: Correspondence, Correspondence.Abreast, Correspondence.Issues,
  Correspondence.ofNames, Item.expand_relabel, treatmentWarnings_relabel, Block.expand_relabel,
  Experiment.expand_relabel
-/
import Mathlib.Order.Monotone.Basic
import Paradigm.Proofs.Expansion
import Paradigm.Proofs.Expansion.Minting
import Paradigm.Proofs.Relabelling.Rules
import Paradigm.Proofs.SideBySide

namespace Paradigm

/-- Two sessions, and what nodes and slots of the one are called in the other. Different identifiers
of a kind stay different. What the first session issues for new nodes, as far as `count`
identifiers, is taken to what the second one issues in its place. Tokens keep their slots and free
slots are taken to free slots in order. -/
structure Correspondence where
  r : Relabelling
  source : Session
  target : Session
  count : Nat
  injective : ∀ kind, Function.Injective (r.name kind)
  issued : ∀ kind ∈ [NodeKind.page, .choice], ∀ i, 0 < i → i ≤ count →
    r.name kind (identifier (source.ids.last + i)) = identifier (target.ids.last + i)
  increasing : ∀ bank, StrictMono (r.slot bank)
  tokens : ∀ {bank token slot}, source.registry.slotOf bank token = some slot →
    target.registry.slotOf bank token = some (r.slot bank slot)
  free : ∀ bank n,
    r.slot bank (source.registry.reserved bank + n) = target.registry.reserved bank + n

namespace Correspondence

/-- Two sessions that agree on their tokens, and names that differ. No slot is moved. -/
def ofNames {name : NodeKind → String → String} {source target : Session} {count : Nat}
    (stray : String → String) (hinjective : ∀ kind, Function.Injective (name kind))
    (hissued : ∀ kind i, 0 < i → i ≤ count →
      name kind (identifier (source.ids.last + i)) = identifier (target.ids.last + i))
    (hregistry : target.registry = source.registry) : Correspondence where
  r := { name := name, stray := stray }
  source := source
  target := target
  count := count
  injective := hinjective
  issued := fun kind _ => hissued kind
  increasing := fun _ => strictMono_id
  tokens := by
    intro bank token slot hslot
    rwa [hregistry]
  free := by
    intro bank n
    rw [hregistry]

variable (c : Correspondence)

/-- Two sources that have issued equally many identifiers. -/
def Abreast (ids ids' : IdSource) : Prop :=
  ∃ n, ids = c.source.ids.after n ∧ ids' = c.target.ids.after n

/-- A source that has not issued more identifiers than are compared. -/
def Within (ids : IdSource) : Prop := ids.last ≤ c.source.ids.last + c.count

/-- Two computations that take equally many identifiers, and whose results differ in them only, as
far as identifiers are compared. -/
structure Issues {α β : Type} (change : α → β) (m : Issuing α) (m' : Issuing β) : Prop where
  onward : ∀ ids, ids.last ≤ (m ids).2.last
  results : ∀ ids ids', c.Abreast ids ids' → c.Within (m ids).2 →
    (m' ids').1 = change (m ids).1 ∧ c.Abreast (m ids).2 (m' ids').2

end Correspondence

/-! ### Steps that issue identifiers -/

section Issuing

variable {c : Correspondence} {α β γ δ : Type}

theorem Correspondence.abreast_start : c.Abreast c.source.ids c.target.ids := ⟨0, rfl, rfl⟩

namespace Correspondence.Issues

theorem pure {change : α → β} {value : α} {value' : β} (h : value' = change value) :
    c.Issues change (pure value) (pure value') where
  onward := fun _ => Nat.le_refl _
  results := fun _ _ hsources _ => ⟨h, hsources⟩

theorem bind {change : α → β} {next : γ → δ} {m : Issuing α} {m' : Issuing β}
    {k : α → Issuing γ} {k' : β → Issuing δ} (first : c.Issues change m m')
    (rest : ∀ value, c.Issues next (k value) (k' (change value))) :
    c.Issues next (m >>= k) (m' >>= k') where
  onward := fun ids => Nat.le_trans (first.onward ids) ((rest (m ids).1).onward (m ids).2)
  results := by
    intro ids ids' hsources hwithin
    have hfirst : c.Within (m ids).2 := Nat.le_trans ((rest (m ids).1).onward (m ids).2) hwithin
    obtain ⟨hvalue, hsources⟩ := first.results ids ids' hsources hfirst
    show (k' (m' ids').1 (m' ids').2).1 = _ ∧
      c.Abreast (k (m ids).1 (m ids).2).2 (k' (m' ids').1 (m' ids').2).2
    rw [hvalue]
    exact (rest (m ids).1).results _ _ hsources hwithin

theorem mapM {given : γ → δ} {change : α → β} {step : γ → Issuing α} {step' : δ → Issuing β}
    (h : ∀ x, c.Issues change (step x) (step' (given x))) (xs : List γ) :
    c.Issues (List.map change) (xs.mapM step) ((xs.map given).mapM step') := by
  induction xs with
  | nil => exact .pure rfl
  | cons x rest ih =>
      rw [List.map_cons, List.mapM_cons, List.mapM_cons]
      apply bind (h x)
      intro value
      apply bind ih
      intro others
      exact .pure rfl

theorem option {change : α → α} {step : α → Issuing α}
    (h : ∀ x, c.Issues change (step x) (step (change x))) (x : Option α) :
    c.Issues (Option.map change) (expandOption step x) (expandOption step (x.map change)) := by
  cases x with
  | none => exact .pure rfl
  | some value =>
      apply bind (h value)
      intro expanded
      exact .pure rfl

end Correspondence.Issues

/-- The next identifiers of two sources correspond to each other, be they for pages or for
options. -/
theorem issueId_relabel (c : Correspondence) (kind : NodeKind)
    (hkind : kind ∈ [NodeKind.page, .choice]) : c.Issues (c.r.name kind) issueId issueId where
  onward := by
    intro ids
    rw [issueId, IdSource.next_eq]
    exact Nat.le_add_right _ _
  results := by
    intro ids ids' hsources hwithin
    obtain ⟨n, rfl, rfl⟩ := hsources
    rw [issueId, IdSource.next_eq] at hwithin
    rw [issueId, issueId, IdSource.next_eq, IdSource.next_eq]
    have hcompared : n + 1 ≤ c.count := by
      have hlast : c.source.ids.last + n + 1 ≤ c.source.ids.last + c.count := hwithin
      omega
    refine ⟨(c.issued kind hkind (n + 1) (Nat.succ_pos n) hcompared).symm, n + 1, ?_, ?_⟩
    · rw [IdSource.after_after]
    · rw [IdSource.after_after]

end Issuing

section Expansion

variable {c : Correspondence}

/-! ### Pages and items -/

theorem Choice.create_relabel (text : Option Text) :
    c.Issues (Choice.relabel c.r) (Choice.create text) (Choice.create text) := by
  apply Correspondence.Issues.bind (issueId_relabel c .choice (by simp))
  intro id
  apply Correspondence.Issues.pure
  rw [Choice.relabel_eq]
  rfl

theorem Page.withTextBox_relabel (page : Page) :
    c.Issues (Page.relabel c.r) page.withTextBox (page.relabel c.r).withTextBox := by
  have hwithout : ((page.relabel c.r).isFreetext && (page.relabel c.r).choices.isEmpty)
      = (page.isFreetext && page.choices.isEmpty) := by
    simp [Page.relabel_eq, Page.isFreetext]
  unfold Page.withTextBox
  rw [hwithout]
  split
  · apply Correspondence.Issues.bind (Choice.create_relabel none)
    intro box
    apply Correspondence.Issues.pure
    simp [Page.relabel_eq]
  · exact .pure rfl

theorem Feedback.toPage_relabel (feedback : Feedback) :
    c.Issues (Page.relabel c.r) feedback.toPage (feedback.relabel c.r).toPage := by
  cases feedback with
  | text label =>
      apply Correspondence.Issues.bind (issueId_relabel c .page (by simp))
      intro id
      apply Correspondence.Issues.pure
      rw [Page.relabel_eq]
      rfl
  | page shown =>
      rw [Feedback.relabel]
      exact .pure rfl

/-- The guards of feedback on options name the relabelled page and option. -/
theorem choiceFeedback_relabel (page : String) (choices : List Choice) :
    c.Issues (List.map (Page.relabel c.r)) (choiceFeedback page choices)
      (choiceFeedback (c.r.name .page page) (choices.map (Choice.relabel c.r))) := by
  induction choices with
  | nil => exact .pure rfl
  | cons choice rest ih =>
      rw [List.map_cons, choiceFeedback, choiceFeedback, Choice.relabel_eq]
      cases choice.feedback with
      | none => exact ih
      | some feedback =>
          apply Correspondence.Issues.bind (Feedback.toPage_relabel feedback)
          intro shown
          apply Correspondence.Issues.bind ih
          intro others
          apply Correspondence.Issues.pure
          simp [Page.relabel_eq, choiceGuard, Guard.relabel, Guard.watches]

theorem pageFeedback_relabel (feedback : Option Feedback) :
    c.Issues (List.map (Page.relabel c.r)) (pageFeedback feedback)
      (pageFeedback (feedback.map (Feedback.relabel c.r))) := by
  cases feedback with
  | none => exact .pure rfl
  | some feedback =>
      apply Correspondence.Issues.bind (Feedback.toPage_relabel feedback)
      intro shown
      exact .pure rfl

theorem Page.spliced_relabel (page : Page) :
    c.Issues (List.map (Page.relabel c.r)) page.spliced (page.relabel c.r).spliced := by
  have hfeedback := pageFeedback_relabel (c := c) page.feedback
  have hchoices := choiceFeedback_relabel (c := c) page.id page.choices
  have hplain : (page.relabel c.r).plain = page.plain.relabel c.r := by
    simp [Page.plain, Page.relabel_eq, Choice.relabel_eq]
  unfold Page.spliced
  rw [hplain]
  rw [Page.relabel_eq]
  apply Correspondence.Issues.bind hfeedback
  intro own
  apply Correspondence.Issues.bind hchoices
  intro ofChoices
  apply Correspondence.Issues.pure
  simp

theorem ItemContents.toPages_relabel (contents : ItemContents) :
    c.Issues (List.map (Page.relabel c.r)) contents.toPages (contents.relabel c.r).toPages := by
  cases contents with
  | text label =>
      apply Correspondence.Issues.bind (Feedback.toPage_relabel (.text label))
      intro page
      exact .pure rfl
  | page single => exact .pure rfl
  | pages several => exact .pure rfl

/-- An item and the relabelled item expand side by side. -/
theorem Item.expand_relabel (item : Item) :
    c.Issues (Item.relabel c.r) item.expand (item.relabel c.r).expand := by
  apply Correspondence.Issues.bind (ItemContents.toPages_relabel item.contents)
  intro given
  apply Correspondence.Issues.bind (.mapM Page.spliced_relabel given)
  intro spliced
  rw [← List.map_flatten]
  apply Correspondence.Issues.bind (.mapM Page.withTextBox_relabel spliced.flatten)
  intro pages
  exact .pure rfl

/-! ### Treatments -/

/-- Looking up a relabelled name in a list of relabelled names finds what the name has in the
list. -/
theorem lookup_map_of_injective {α : Type} {f : String → String} (hf : Function.Injective f)
    (name : String) (entries : List (String × α)) :
    (entries.map fun entry => (f entry.1, entry.2)).lookup (f name) = entries.lookup name := by
  induction entries with
  | nil => rfl
  | cons entry rest ih =>
      have hsame : (f name == f entry.1) = (name == entry.1) := by
        rw [Bool.eq_iff_iff, beq_iff_eq, beq_iff_eq, hf.eq_iff]
      rw [List.map_cons, List.lookup_cons, List.lookup_cons, hsame, ih]

theorem assignments_map (f : String → String) (treatments : List (List String)) :
    assignments (treatments.map (List.map f))
      = (assignments treatments).map fun entry => (f entry.1, entry.2) := by
  simp [assignments, List.zipIdx_map, List.map_flatMap, List.flatMap_map, Function.comp_def]

theorem finalIndex_map {f : String → String} (hf : Function.Injective f)
    (given : List (String × Nat)) (id : String) :
    finalIndex (given.map fun entry => (f entry.1, entry.2)) (f id) = finalIndex given id := by
  rw [finalIndex, finalIndex, ← List.map_reverse, lookup_map_of_injective hf]

section Treatments

variable {r : Relabelling} {owner owner' : String} (hr : Function.Injective (r.name .block))
include hr

/-- Blocks are named in treatments again where the relabelled ones are. -/
theorem reassignments_relabel (hnode : r.Takes owner owner') (seen given : List (String × Nat)) :
    Warnings.Relabelled r (reassignments owner seen given)
      (reassignments owner' (seen.map fun entry => (r.name .block entry.1, entry.2))
        (given.map fun entry => (r.name .block entry.1, entry.2))) := by
  induction given generalizing seen with
  | nil => exact .nil
  | cons entry rest ih =>
      have hrest := ih (entry :: seen)
      rw [List.map_cons] at hrest
      simp only [List.map_cons, reassignments, lookup_map_of_injective hr]
      apply List.rel_append _ hrest
      cases seen.lookup entry.1 with
      | none => exact .nil
      | some previous =>
          simp only
          split
          · exact .nil
          · exact .cons (.reassigned hnode entry.1 previous entry.2) .nil

theorem Block.replacement_relabel (given : List (String × Nat)) (block : Block) :
    Warnings.Relabelled r (block.replacement given)
      ((block.relabel r).replacement
        (given.map fun entry => (r.name .block entry.1, entry.2))) := by
  unfold Block.replacement
  rw [Block.relabel_eq, finalIndex_map hr]
  cases finalIndex given block.id with
  | none => exact .nil
  | some index =>
      cases block.guard with
      | none => exact .nil
      | some guard =>
          simp only [Option.map_some, Guard.relabel]
          split
          · exact .cons (.guardReplaced block.id index) .nil
          · exact .nil

/-- The warnings about treatments name the relabelled nodes. -/
theorem treatmentWarnings_relabel (hnode : r.Takes owner owner') (treatments : List (List String))
    (children : List Block) :
    Warnings.Relabelled r (treatmentWarnings owner treatments children)
      (treatmentWarnings owner' (treatments.map (List.map (r.name .block)))
        (children.map (Block.relabel r))) := by
  have hreassigned := reassignments_relabel hr hnode [] (assignments treatments)
  have hreplaced : Warnings.Relabelled r
      (children.flatMap (Block.replacement (assignments treatments)))
      ((children.map (Block.relabel r)).flatMap (Block.replacement
        ((assignments treatments).map fun entry => (r.name .block entry.1, entry.2)))) := by
    induction children with
    | nil => exact .nil
    | cons child rest ih =>
        rw [List.map_cons, List.flatMap_cons, List.flatMap_cons]
        exact List.rel_append (Block.replacement_relabel hr _ child) ih
  rw [treatmentWarnings, treatmentWarnings, assignments_map]
  exact List.rel_append hreassigned hreplaced

end Treatments

theorem Block.treated_relabel (r : Relabelling) (block : Block) (treatment : Option Nat) :
    (block.relabel r).treated treatment = (block.treated treatment).relabel r := by
  cases treatment with
  | none => rfl
  | some index =>
      rw [Block.treated, Block.treated, Block.relabel_eq, Block.relabel_eq]
      rfl

/-! ### Blocks -/

/-- What two expansions leave: equally many identifiers are issued, and the warnings correspond. -/
structure Progress.Relabelled (c : Correspondence) (p p' : Progress) : Prop where
  ids : c.Abreast p.ids p'.ids
  warnings : Warnings.Relabelled c.r p.warnings p'.warnings

/-- Expansion side by side, as far as identifiers are compared. -/
def Correspondence.expansion (c : Correspondence) : Comparison Progress where
  alike := Progress.Relabelled c
  reports := Failure.Relabelled c.r
  past p := ¬ c.Within p.ids

theorem Expanding.issuing_relabel {α β : Type} {change : α → β} {m : Issuing α} {m' : Issuing β}
    (h : c.Issues change m m') :
    Runs c.expansion change (Expanding.issuing m) (Expanding.issuing m') where
  onward := fun p hpast hwithin => hpast (Nat.le_trans (h.onward p.ids) hwithin)
  results := by
    intro p p' hstates
    by_cases hwithin : c.Within (m p.ids).2
    · obtain ⟨hvalue, hids⟩ := h.results p.ids p'.ids hstates.ids hwithin
      have hok : Results c.expansion change (.ok (m p.ids).1 { p with ids := (m p.ids).2 })
          (.ok (change (m p.ids).1) { p' with ids := (m' p'.ids).2 }) :=
        .ok ⟨hids, hstates.warnings⟩
      rwa [← hvalue] at hok
    · exact .past hwithin

theorem Expanding.warn_relabel {warnings warnings' : List Warning}
    (h : Warnings.Relabelled c.r warnings warnings') :
    Runs c.expansion (fun u => u) (Expanding.warn warnings) (Expanding.warn warnings') where
  onward := fun _ hpast => hpast
  results := fun _ _ hstates => .same ⟨hstates.ids, List.rel_append hstates.warnings h⟩

theorem Expanding.check_relabel {verdict verdict' : Verdict}
    (h : Verdict.Relabelled c.r verdict verdict') :
    Runs c.expansion (fun u => u) (Expanding.check verdict) (Expanding.check verdict') where
  onward := by
    intro p hpast
    cases verdict <;> exact hpast
  results := by
    intro p p' hstates
    cases h with
    | ok u => exact .same hstates
    | error report => exact .error report hstates

/-- A block expands beside the relabelled one where its children do. -/
theorem Block.expand_relabel_of_children (treatment : Option Nat) (block : Block)
    (children : Runs c.expansion (Option.map (List.map (Block.relabel c.r)))
      (Block.expandChildren (assignments block.treatments) block.blocks)
      (Block.expandChildren (assignments (block.relabel c.r).treatments)
        (block.relabel c.r).blocks)) :
    Runs c.expansion (Block.relabel c.r) (block.expand treatment)
      ((block.relabel c.r).expand treatment) := by
  have hwarnings : Warnings.Relabelled c.r
      (treatmentWarnings block.id block.treatments (block.blocks.getD []))
      (treatmentWarnings (block.relabel c.r).id (block.relabel c.r).treatments
        ((block.relabel c.r).blocks.getD [])) := by
    have hall := treatmentWarnings_relabel (c.injective .block) (.node .block block.id)
      block.treatments (block.blocks.getD [])
    rw [Block.relabel_eq]
    cases hblocks : block.blocks with
    | none => simpa [hblocks] using hall
    | some blocks => simpa [hblocks] using hall
  have hpages : (block.relabel c.r).pages = block.pages.map (List.map (Page.relabel c.r)) := by
    rw [Block.relabel_eq]
  have hitems : (block.relabel c.r).items = block.items.map (List.map (Item.relabel c.r)) := by
    rw [Block.relabel_eq]
  have hgroups : (block.relabel c.r).groups
      = block.groups.map (List.map (List.map (Item.relabel c.r))) := by rw [Block.relabel_eq]
  -- Both runs are taken apart step by step; each pair of steps leaves the sources abreast.
  rw [Block.expand_eq, Block.expand_eq, hpages, hitems, hgroups, Block.treated_relabel]
  apply Runs.bind (Expanding.warn_relabel (Block.notices_relabel (c.injective .block) _))
  intro _
  apply Runs.bind (Expanding.check_relabel (Block.check_relabel (c.injective .block) _))
  intro _
  apply Runs.bind (Expanding.warn_relabel hwarnings)
  intro _
  apply Runs.bind (Expanding.issuing_relabel (.option (.mapM Page.withTextBox_relabel) _))
  intro pages
  apply Runs.bind (Expanding.issuing_relabel (.option (.mapM Item.expand_relabel) _))
  intro items
  apply Runs.bind (Expanding.issuing_relabel (.option (.mapM (.mapM Item.expand_relabel)) _))
  intro groups
  apply Runs.bind children
  intro blocks
  apply Runs.pure
  rw [Block.relabel_eq, Block.relabel_eq]
  rfl

mutual

/-- A block and the relabelled block expand side by side, each under its treatment. -/
theorem Block.expand_relabel (c : Correspondence) (treatment : Option Nat) : ∀ block : Block,
    Runs c.expansion (Block.relabel c.r) (block.expand treatment)
      ((block.relabel c.r).expand treatment)
  | ⟨_, _, _, _, blocks, _, _, treatments, _, _, _, _, _, _⟩ => by
      apply Block.expand_relabel_of_children
      rw [Block.relabel_eq, assignments_map]
      exact Block.expandChildren_relabel c (assignments treatments) blocks

theorem Block.expandChildren_relabel (c : Correspondence) (given : List (String × Nat)) :
    ∀ blocks : Option (List Block),
    Runs c.expansion (Option.map (List.map (Block.relabel c.r))) (Block.expandChildren given blocks)
      (Block.expandChildren (given.map fun entry => (c.r.name .block entry.1, entry.2))
        (blocks.map (List.map (Block.relabel c.r))))
  | none => by
      rw [Option.map_none, Block.expandChildren, Block.expandChildren]
      exact Runs.pure rfl
  | some blocks => by
      rw [Option.map_some, Block.expandChildren, Block.expandChildren]
      apply Runs.bind (Block.expandList_relabel c given blocks)
      intro expanded
      exact Runs.pure rfl

theorem Block.expandList_relabel (c : Correspondence) (given : List (String × Nat)) :
    ∀ blocks : List Block,
    Runs c.expansion (List.map (Block.relabel c.r)) (Block.expandList given blocks)
      (Block.expandList (given.map fun entry => (c.r.name .block entry.1, entry.2))
        (blocks.map (Block.relabel c.r)))
  | [] => by
      rw [List.map_nil, Block.expandList, Block.expandList]
      exact Runs.pure rfl
  | block :: rest => by
      have hindex : finalIndex (given.map fun entry => (c.r.name .block entry.1, entry.2))
          (block.relabel c.r).id = finalIndex given block.id := by
        rw [Block.relabel_eq, finalIndex_map (c.injective .block)]
      rw [List.map_cons, Block.expandList, Block.expandList, hindex]
      apply Runs.bind (Block.expand_relabel c _ block)
      intro expanded
      apply Runs.bind (Block.expandList_relabel c given rest)
      intro others
      exact Runs.pure rfl

end

/-- A tree and the relabelled tree expand side by side. -/
theorem Experiment.expand_relabel (c : Correspondence) (e : Experiment) :
    Runs c.expansion (Experiment.relabel c.r) e.expand (e.relabel c.r).expand := by
  have hwarnings := treatmentWarnings_relabel (c.injective .block) .root e.treatments e.blocks
  have hblocks := Block.expandList_relabel c (assignments e.treatments) e.blocks
  rw [← assignments_map] at hblocks
  apply Runs.bind (Expanding.warn_relabel (e.notices_relabel (c.injective .block)))
  intro _
  apply Runs.bind (Expanding.check_relabel (e.check_relabel (c.injective .block)))
  intro _
  apply Runs.bind (Expanding.warn_relabel hwarnings)
  intro _
  apply Runs.bind hblocks
  intro blocks
  exact Runs.pure rfl

end Expansion

end Paradigm
