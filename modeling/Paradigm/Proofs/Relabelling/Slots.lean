/-
Module: Paradigm.Proofs.Relabelling.Slots
Layer: Proofs
Purpose: Banks and their placeholders where slots are moved. Moving slots up without changing their
  order changes neither how many there are nor who asks for which field. So a bank serves its
  placeholders with moved slots as it did before, or refuses them for the same cause, unless a slot
  has come to lie past its end.
Imports: Paradigm.Proofs.Relabelling.Expansion, Paradigm.Proofs.Resolution.Scopes,
  Mathlib.Order.WellFounded
Main exports: Relabelling.MovesSlots, Relabelling.Overruns, Correspondence.Learnt, Use.Relabelled,
  checkUsage_relabel, Frame.Relabelled, Frame.check_relabel, Frame.bind?_relabel
-/
import Mathlib.Order.WellFounded
import Paradigm.Proofs.Relabelling.Expansion
import Paradigm.Proofs.Resolution.Scopes

namespace Paradigm

variable {r : Relabelling}

/-! ### Moved slots -/

/-- Counters for new slots that a relabelling takes to others, with all slots that they will
give. -/
def Relabelling.MovesSlots (r : Relabelling) (slots slots' : SlotAllocator) : Prop :=
  ∀ bank n, r.slot bank (slots.upcoming bank + n) = slots'.upcoming bank + n

/-- At the start of resolution the free slots are those of the registries. -/
theorem Correspondence.movesSlots (c : Correspondence) :
    c.r.MovesSlots (.ofRegistry c.source.registry) (.ofRegistry c.target.registry) := by
  intro bank n
  rw [SlotAllocator.upcoming_ofRegistry, SlotAllocator.upcoming_ofRegistry]
  exact c.free bank n

/-- Taking a slot of a bank moves both counters on. -/
theorem Relabelling.MovesSlots.fresh {slots slots' : SlotAllocator}
    (h : r.MovesSlots slots slots') (bank : String) :
    r.MovesSlots (slots.fresh bank).2 (slots'.fresh bank).2 := by
  intro other n
  rw [SlotAllocator.upcoming_fresh, SlotAllocator.upcoming_fresh, Nat.add_assoc, Nat.add_assoc]
  exact h other _

/-- A refusal for a slot past the end of a bank that lay in the bank before it was moved. -/
def Relabelling.Overruns (r : Relabelling) (failure : Failure) : Prop :=
  ∃ owner bank size slot, failure = .rule owner (.slotPastEnd bank size (r.slot bank slot)) ∧
    slot < size ∧ size ≤ r.slot bank slot

/-- A refusal for a token that the second of two sessions knows and the first does not. -/
def Correspondence.Learnt (c : Correspondence) (failure : Failure) : Prop :=
  ∃ node token bank, failure = .rule node (.unregisteredToken token bank) ∧
    c.source.registry.slotOf bank token = none ∧ c.target.registry.slotOf bank token ≠ none

/-! ### Uses of a bank -/

def Slot.move (f : Nat → Nat) : Slot → Slot
  | .holds slot => .holds (f slot)
  | .avoids slot => .avoids (f slot)
  | .any => .any

/-- A placeholder of a bank beside the one on the relabelled node, whose slot is moved. -/
structure Use.Relabelled (r : Relabelling) (bank : String) (use use' : Use) : Prop where
  node : r.Takes use.node use'.node
  field : use'.field = use.field
  slot : use'.slot = use.slot.move (r.slot bank)

/-- The placeholders of a bank beside those with moved slots. -/
abbrev Usage.Relabelled (r : Relabelling) (bank : String) (usage usage' : Usage) : Prop :=
  List.Forall₂ (Use.Relabelled r bank) usage usage'

theorem eraseDups_map {f : Nat → Nat} (hf : Function.Injective f) (slots : List Nat) :
    (slots.map f).eraseDups = slots.eraseDups.map f := by
  match slots with
  | [] => rfl
  | slot :: rest =>
      have hfilter : (rest.map f).filter (fun other => !other == f slot)
          = (rest.filter fun other => !other == slot).map f := by
        rw [List.filter_map]
        congr 2
        funext other
        simp [hf.beq_eq]
      have hshorter : (rest.filter fun other => !other == slot).length < (slot :: rest).length :=
        Nat.lt_succ_of_le (List.length_filter_le _ _)
      rw [List.map_cons, List.eraseDups_cons, List.eraseDups_cons, hfilter, List.map_cons,
        eraseDups_map hf (rest.filter fun other => !other == slot)]
termination_by slots.length
decreasing_by exact hshorter

theorem checkField_relabel {bank : String} {use use' : Use} (h : use.Relabelled r bank use')
    (name : String) (fields : Option (List String)) :
    Verdict.Relabelled r (checkField name fields use) (checkField name fields use') := by
  unfold checkField
  rw [h.field]
  cases fields with
  | some known =>
      cases use.field with
      | some field => exact .require _ h.node (.noSuchField name field)
      | none => exact .refuse h.node (.fieldMissing name)
  | none =>
      cases use.field with
      | some field => exact .refuse h.node (.fieldOfTexts name field)
      | none => exact .ok

section Usages

variable {bank : String} {usage usage' : Usage} (hslots : StrictMono (r.slot bank))
  (h : usage.Relabelled r bank usage')
include h

theorem Usage.replacing_relabel : usage'.replacing = usage.replacing := by
  unfold Usage.replacing
  induction h with
  | nil => rfl
  | @cons use use' rest rest' head tail ih =>
      rw [List.countP_cons, List.countP_cons, head.slot, ih]
      cases use.slot <;> rfl

include hslots

theorem Usage.slots_relabel : usage'.slots = usage.slots.map (r.slot bank) := by
  have hnamed : usage'.filterMap (·.slot.named?)
      = (usage.filterMap (·.slot.named?)).map (r.slot bank) := by
    induction h with
    | nil => rfl
    | @cons use use' rest rest' head tail ih =>
        rw [List.filterMap_cons, List.filterMap_cons, head.slot, ih]
        cases use.slot <;> rfl
  rw [Usage.slots, Usage.slots, hnamed, eraseDups_map hslots.injective]

theorem Usage.needed_relabel : usage'.needed = usage.needed := by
  have havoiding : usage'.any (·.slot.isAvoiding) = usage.any (·.slot.isAvoiding) := by
    induction h with
    | nil => rfl
    | @cons use use' rest rest' head tail ih =>
        rw [List.any_cons, List.any_cons, head.slot, ih]
        cases use.slot <;> rfl
  rw [Usage.needed, Usage.needed, Usage.slots_relabel hslots h, List.length_map, havoiding]

/-- The highest slot stays the highest. -/
theorem Usage.highest_relabel : usage'.highest = usage.highest.map (r.slot bank) := by
  rw [Usage.highest, Usage.highest, Usage.slots_relabel hslots h]
  cases htop : usage.slots.max? with
  | none =>
      rw [List.max?_eq_none_iff] at htop
      rw [htop]
      rfl
  | some top =>
      obtain ⟨hmem, hmax⟩ := List.max?_eq_some_iff.mp htop
      rw [Option.map_some, List.max?_eq_some_iff, List.forall_mem_map]
      exact ⟨List.mem_map_of_mem hmem, fun slot hslot => hslots.monotone (hmax slot hslot)⟩

end Usages

/-- Checks correspond, or the second is refused as a slot has come to lie past the end of a bank. -/
def Relabelling.Checks (r : Relabelling) (verdict verdict' : Verdict) : Prop :=
  Verdict.Relabelled r verdict verdict' ∨ ∃ failure, verdict' = .error failure ∧ r.Overruns failure

theorem Relabelling.Checks.seq {first first' rest rest' : Verdict}
    (hfirst : r.Checks first first') (hrest : r.Checks rest rest') :
    r.Checks (first >>= fun _ => rest) (first' >>= fun _ => rest') := by
  rcases hfirst with hfirst | ⟨failure, rfl, hoverruns⟩
  · cases hfirst with
    | ok u => exact hrest
    | error report => exact .inl (.error report)
  · exact .inr ⟨failure, rfl, hoverruns⟩

theorem Relabelling.Checks.checkAll {α : Type} {check check' : α → Verdict}
    (h : ∀ x, r.Checks (check x) (check' x)) (xs : List α) :
    r.Checks (Paradigm.checkAll check xs) (Paradigm.checkAll check' xs) := by
  induction xs with
  | nil => exact .inl .ok
  | cons x rest ih => exact .seq (h x) ih

/-- A bank serves its placeholders with moved slots as before, or a slot lies past its end. -/
theorem checkUsage_relabel {owner owner' name : String} {usage usage' : Usage}
    (hnode : r.Takes owner owner') (hslots : StrictMono (r.slot name))
    (h : usage.Relabelled r name usage') (bank : Bank) :
    r.Checks (checkUsage owner name bank usage) (checkUsage owner' name bank usage') := by
  have hfields : Verdict.Relabelled r (checkAll (checkField name bank.fields?) usage)
      (checkAll (checkField name bank.fields?) usage') :=
    .checkAll (h.imp fun _ _ huse => checkField_relabel huse name bank.fields?)
  unfold checkUsage
  rw [Usage.replacing_relabel h, Usage.needed_relabel hslots h, Usage.highest_relabel hslots h,
    h.length_eq]
  apply Relabelling.Checks.seq (.inl hfields)
  apply Relabelling.Checks.seq (.inl (.require _ hnode (.mixedReplacement name)))
  apply Relabelling.Checks.seq (.inl (.require _ hnode (.tooFewValues name bank.length _)))
  cases usage.highest with
  | none => exact .inl .ok
  | some top =>
      have hforward : top ≤ r.slot name top := hslots.le_apply
      show r.Checks (require (top < bank.length) owner (.slotPastEnd name bank.length top))
        (require (r.slot name top < bank.length) owner'
          (.slotPastEnd name bank.length (r.slot name top)))
      by_cases hinside : top < bank.length
      · by_cases hstays : r.slot name top < bank.length
        · rw [decide_eq_true hinside, decide_eq_true hstays]
          exact .inl .ok
        · rw [decide_eq_false hstays]
          exact .inr ⟨_, rfl, owner', name, bank.length, top, rfl, hinside, Nat.le_of_not_lt hstays⟩
      · have hpast : ¬ r.slot name top < bank.length := fun hlt =>
          hinside (Nat.lt_of_le_of_lt hforward hlt)
        rw [decide_eq_false hinside, decide_eq_false hpast]
        exact .inl (.refuse hnode (.slotPastEnd name bank.length top))

/-! ### Declarations around a node -/

/-- A declaration of banks beside that of the relabelled node, with moved slots. -/
structure Frame.Relabelled (r : Relabelling) (frame frame' : Frame) : Prop where
  owner : r.Takes frame.owner frame'.owner
  banks : frame'.banks = frame.banks
  uses : List.Forall₂ (fun entry entry' => entry'.1 = entry.1 ∧
    entry.2.Relabelled r entry.1 entry'.2) frame.uses frame'.uses

theorem Frame.usage_relabel {frame frame' : Frame} (h : frame.Relabelled r frame')
    (name : String) : Usage.Relabelled r name (frame.usage name) (frame'.usage name) := by
  have huses := h.uses
  unfold Frame.usage
  generalize frame.uses = uses at huses ⊢
  generalize frame'.uses = uses' at huses ⊢
  induction huses with
  | nil => exact .nil
  | @cons entry entry' rest rest' head tail ih =>
      obtain ⟨hname, hmoved⟩ := head
      rw [List.filterMap_cons, List.filterMap_cons, hname]
      by_cases hhere : entry.1 = name
      · subst hhere
        simp only [if_true]
        exact .cons hmoved ih
      · simp only [hhere, if_false]
        exact ih

/-- The banks of a declaration are checked with moved slots as before, or a slot lies past the end
of one. -/
theorem Frame.check_relabel {frame frame' : Frame} (hslots : ∀ bank, StrictMono (r.slot bank))
    (h : frame.Relabelled r frame') : r.Checks frame.check frame'.check := by
  unfold Frame.check
  rw [h.banks]
  apply Relabelling.Checks.checkAll
  intro declared
  have husage := Frame.usage_relabel h declared.1
  have hempty : (frame'.usage declared.1).isEmpty = (frame.usage declared.1).isEmpty := by
    rw [Bool.eq_iff_iff, List.isEmpty_iff_length_eq_zero, List.isEmpty_iff_length_eq_zero,
      husage.length_eq]
  simp only [hempty]
  split
  · exact .inl .ok
  · exact checkUsage_relabel h.owner (hslots declared.1) husage declared.2

/-- A placeholder is bound to the declaration in the same place, or to none in both cases. -/
theorem Frame.bind?_relabel {bank : String} {use use' : Use} {frames frames' : List Frame}
    (hframes : List.Forall₂ (Frame.Relabelled r) frames frames')
    (huse : use.Relabelled r bank use') :
    (Frame.bind? bank use frames = none ∧ Frame.bind? bank use' frames' = none) ∨
      ∃ bound bound', Frame.bind? bank use frames = some bound ∧
        Frame.bind? bank use' frames' = some bound' ∧
        List.Forall₂ (Frame.Relabelled r) bound bound' := by
  induction hframes with
  | nil => exact .inl ⟨rfl, rfl⟩
  | @cons frame frame' outer outer' head tail ih =>
      rw [Frame.bind?, Frame.bind?, head.banks]
      by_cases hhere : frame.banks.contains bank
      · rw [if_pos hhere, if_pos hhere]
        refine .inr ⟨_, _, rfl, rfl, .cons ⟨head.owner, rfl, ?_⟩ tail⟩
        exact List.rel_append head.uses (.cons ⟨rfl, huse⟩ .nil)
      · rw [if_neg hhere, if_neg hhere]
        rcases ih with ⟨hnone, hnone'⟩ | ⟨bound, bound', hbound, hbound', hrelabelled⟩
        · rw [hnone, hnone']
          exact .inl ⟨rfl, rfl⟩
        · rw [hbound, hbound']
          exact .inr ⟨_, _, rfl, rfl, .cons head hrelabelled⟩

end Paradigm
