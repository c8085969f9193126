/-
Module: Paradigm.Proofs.Resolution.Slots
Layer: Proofs
Purpose: How placeholders get their slots. A run over a list of placeholders is related to the
  samples that it gives, with the counters for new slots before and after. A token has the slot that
  the registry keeps for it; fresh placeholders take the slots that the counters give, bank by bank.
  Where the counters start after the reserved slots, two placeholders share a slot through a token
  and in no other way.
Imports: Paradigm.Proofs.Document.Contents, Paradigm.Proofs.Step, Mathlib.Data.List.Forall2
Main exports: Placeholder.slotAmong, Settles, Settles.append, Placeholder.slot_eq_ok,
  Placeholder.SettledAs, Settles.settledAs, Settles.fresh_slots, Settles.pairwise_shared
-/
import Mathlib.Data.List.Forall2
import Paradigm.Proofs.Document.Contents
import Paradigm.Proofs.Step

namespace Paradigm

/-! ### The registry -/

/-- A token has a slot below the number of slots reserved on its bank. -/
theorem Registry.slotOf_lt {r : Registry} {bank token : String} {slot : Nat}
    (h : r.slotOf bank token = some slot) : slot < r.reserved bank := by
  rw [slotOf_eq_idxOf?] at h
  obtain ⟨hlt, _⟩ := List.idxOf?_eq_some_iff.mp h
  exact r.reserved_eq_length bank ▸ hlt

/-- Two tokens of one bank have the same slot exactly where they are the same token. -/
theorem Registry.slotOf_eq_iff {r : Registry} {bank token other : String} {slot slot' : Nat}
    (h : r.slotOf bank token = some slot) (hother : r.slotOf bank other = some slot') :
    slot = slot' ↔ token = other := by
  rw [slotOf_eq_idxOf?] at h hother
  obtain ⟨_, htoken, _⟩ := List.idxOf?_eq_some_iff.mp h
  obtain ⟨_, hother', _⟩ := List.idxOf?_eq_some_iff.mp hother
  constructor
  · intro heq
    subst heq
    exact htoken.symm.trans hother'
  · intro heq
    subst heq
    exact Option.some.inj (h.symm.trans hother)

/-! ### One placeholder -/

/-- The slot of a placeholder where new slots are counted on from given ones. An unregistered token
has none. -/
def Placeholder.slotAmong (registry : Registry) (slots : SlotAllocator) (p : Placeholder) :
    Option Slot :=
  match p.draw with
  | .shared token => (registry.slotOf p.bank token).map .holds
  | .unlike token => (registry.slotOf p.bank token).map .avoids
  | .fresh => some (.holds (slots.upcoming p.bank))
  | .replacing => some .any

/-- The counters after a placeholder got its slot. -/
def Placeholder.takeFrom (slots : SlotAllocator) (p : Placeholder) : SlotAllocator :=
  match p.draw with
  | .fresh => (slots.fresh p.bank).2
  | _ => slots

/-- The token by which a placeholder refers to a slot, to hold or to avoid it. -/
def Placeholder.token? (p : Placeholder) : Option String :=
  match p.draw with
  | .shared token => some token
  | .unlike token => some token
  | _ => none

/-- Whether a placeholder takes a slot of its own from a bank. -/
def Placeholder.isFreshOn (bank : String) (p : Placeholder) : Bool :=
  p.bank == bank && p.draw == .fresh

theorem Placeholder.slots_document (p : Placeholder) (slot : Slot) :
    (p.document slot).slots = slot.named?.toList := by
  cases slot <;> rfl

theorem tokenSlot_eq_ok_iff {registry : Registry} {node bank token : String} {slot : Nat} :
    tokenSlot registry node bank token = .ok slot ↔ registry.slotOf bank token = some slot := by
  unfold tokenSlot
  cases registry.slotOf bank token <;> simp [refuse]

/-- A placeholder that gets a slot gets the one that is due, and leaves the rest as it is. -/
theorem Placeholder.slot_eq_ok {env : Surroundings} {node : String} {p : Placeholder}
    {slot : Slot} {g g' : Gathered} (h : p.slot env node g = .ok slot g') :
    p.slotAmong env.registry g.slots = some slot ∧ g' = { g with slots := p.takeFrom g.slots } := by
  unfold Placeholder.slot at h
  unfold slotAmong takeFrom
  cases hd : p.draw with
  | fresh =>
      simp only [hd, Resolving.freshSlot, Step.bind_eq_ok_iff, Step.pure_eq_ok_iff] at h
      obtain ⟨n, _, hn, rfl, rfl⟩ := h
      cases hn
      exact ⟨rfl, rfl⟩
  | shared token =>
      simp only [hd, Step.bind_eq_ok_iff, Step.pure_eq_ok_iff, Resolving.lift_eq_ok_iff,
        tokenSlot_eq_ok_iff] at h
      obtain ⟨n, _, ⟨hn, rfl⟩, rfl, rfl⟩ := h
      exact ⟨by simp [hn], rfl⟩
  | unlike token =>
      simp only [hd, Step.bind_eq_ok_iff, Step.pure_eq_ok_iff, Resolving.lift_eq_ok_iff,
        tokenSlot_eq_ok_iff] at h
      obtain ⟨n, _, ⟨hn, rfl⟩, rfl, rfl⟩ := h
      exact ⟨by simp [hn], rfl⟩
  | replacing =>
      simp only [hd, Step.pure_eq_ok_iff] at h
      obtain ⟨rfl, rfl⟩ := h
      exact ⟨rfl, rfl⟩

/-! ### Runs over placeholders -/

/-- A run over placeholders from the left gives samples. Before and after stand the counters for new
slots. -/
inductive Settles (registry : Registry) :
    SlotAllocator → List Placeholder → List Document.Sample → SlotAllocator → Prop where
  | nil (slots : SlotAllocator) : Settles registry slots [] [] slots
  | cons {p : Placeholder} {ps : List Placeholder} {ss : List Document.Sample} {slot : Slot}
      {slots slots' : SlotAllocator} (head : p.slotAmong registry slots = some slot)
      (rest : Settles registry (p.takeFrom slots) ps ss slots') :
      Settles registry slots (p :: ps) (p.document slot :: ss) slots'

theorem Settles.append {registry : Registry} {slots slots₁ slots₂ : SlotAllocator}
    {ps qs : List Placeholder} {ss ts : List Document.Sample}
    (first : Settles registry slots ps ss slots₁) (second : Settles registry slots₁ qs ts slots₂) :
    Settles registry slots (ps ++ qs) (ss ++ ts) slots₂ := by
  induction first with
  | nil => exact second
  | cons head _ ih => exact .cons head (ih second)

/-- A sample names what its placeholder asks for: the bank and the field, and the slot that the
registry keeps for its token, or a slot of its own, or none. -/
def Placeholder.SettledAs (registry : Registry) (p : Placeholder) (s : Document.Sample) : Prop :=
  s.bank = p.bank ∧ s.field = p.field ∧
    match p.draw with
    | .fresh => s.slot.isSome ∧ s.avoids = none ∧ s.replacing = false
    | .shared token =>
        ∃ slot, registry.slotOf p.bank token = some slot ∧ slot < registry.reserved p.bank ∧
          s.slot = some slot ∧ s.avoids = none ∧ s.replacing = false
    | .unlike token =>
        ∃ slot, registry.slotOf p.bank token = some slot ∧ slot < registry.reserved p.bank ∧
          s.slot = none ∧ s.avoids = some slot ∧ s.replacing = false
    | .replacing => s.slot = none ∧ s.avoids = none ∧ s.replacing = true

theorem Placeholder.settledAs_document {registry : Registry} {slots : SlotAllocator}
    {p : Placeholder} {slot : Slot} (h : p.slotAmong registry slots = some slot) :
    p.SettledAs registry (p.document slot) := by
  unfold slotAmong at h
  refine ⟨rfl, rfl, ?_⟩
  cases hd : p.draw with
  | fresh =>
      simp only [hd, Option.some.injEq] at h
      subst h
      exact ⟨rfl, rfl, rfl⟩
  | shared token =>
      simp only [hd, Option.map_eq_some_iff] at h
      obtain ⟨n, hn, rfl⟩ := h
      exact ⟨n, hn, Registry.slotOf_lt hn, rfl, rfl, rfl⟩
  | unlike token =>
      simp only [hd, Option.map_eq_some_iff] at h
      obtain ⟨n, hn, rfl⟩ := h
      exact ⟨n, hn, Registry.slotOf_lt hn, rfl, rfl, rfl⟩
  | replacing =>
      simp only [hd, Option.some.injEq] at h
      subst h
      exact ⟨rfl, rfl, rfl⟩

/-- A run gives one sample for each placeholder, in order. -/
theorem Settles.settledAs {registry : Registry} {slots slots' : SlotAllocator}
    {ps : List Placeholder} {ss : List Document.Sample}
    (h : Settles registry slots ps ss slots') :
    List.Forall₂ (Placeholder.SettledAs registry) ps ss := by
  induction h with
  | nil => exact .nil
  | cons head _ ih => exact .cons (Placeholder.settledAs_document head) ih

/-! ### Fresh slots -/

theorem Placeholder.upcoming_takeFrom (slots : SlotAllocator) (bank : String) (p : Placeholder) :
    (p.takeFrom slots).upcoming bank
      = slots.upcoming bank + if p.isFreshOn bank then 1 else 0 := by
  unfold takeFrom isFreshOn
  cases hd : p.draw with
  | fresh => rw [SlotAllocator.upcoming_fresh]; simp [eq_comm (a := bank)]
  | shared | unlike | replacing => simp

theorem Placeholder.upcoming_le_takeFrom (slots : SlotAllocator) (bank : String) (p : Placeholder) :
    slots.upcoming bank ≤ (p.takeFrom slots).upcoming bank := by
  rw [upcoming_takeFrom]
  exact Nat.le_add_right _ _

/-- The fresh placeholders of a bank get consecutive slots, the first one where the counter of the
bank stands. -/
theorem Settles.fresh_slots {registry : Registry} {slots slots' : SlotAllocator}
    {ps : List Placeholder} {ss : List Document.Sample} (bank : String)
    (h : Settles registry slots ps ss slots') :
    ((ps.zip ss).filter (·.1.isFreshOn bank)).map (·.2.slot)
      = (List.range' (slots.upcoming bank) (ps.countP (·.isFreshOn bank))).map some := by
  induction h with
  | nil => rfl
  | @cons p ps ss slot slots slots' head _ ih =>
      rw [Placeholder.upcoming_takeFrom] at ih
      by_cases hp : p.isFreshOn bank = true
      · have hfresh : p.bank = bank ∧ p.draw = .fresh := by
          simpa [Placeholder.isFreshOn] using hp
        have hslot : (p.document slot).slot = some (slots.upcoming bank) := by
          simp only [Placeholder.slotAmong, hfresh.2, hfresh.1, Option.some.injEq] at head
          subst head
          rfl
        simp only [hp, if_true] at ih
        simp [hp, hslot, List.range'_succ, ih]
      · simp only [Bool.not_eq_true] at hp
        simp only [hp, Bool.false_eq_true, if_false, Nat.add_zero] at ih
        simpa [hp] using ih

/-- Samples of a run are settled with the counters where they were at first, or further on. -/
theorem Settles.mem_zip {registry : Registry} {slots slots' : SlotAllocator}
    {ps : List Placeholder} {ss : List Document.Sample}
    (h : Settles registry slots ps ss slots') :
    ∀ pair ∈ ps.zip ss, ∃ slots₁ slot, pair.1.slotAmong registry slots₁ = some slot ∧
      pair.2 = pair.1.document slot ∧ ∀ bank, slots.upcoming bank ≤ slots₁.upcoming bank := by
  induction h with
  | nil => simp
  | @cons p ps ss slot slots slots' head _ ih =>
      intro pair hpair
      rw [List.zip_cons_cons, List.mem_cons] at hpair
      rcases hpair with rfl | hpair
      · exact ⟨slots, slot, head, rfl, fun _ => Nat.le_refl _⟩
      · obtain ⟨slots₁, slot₁, hslot, hdoc, hle⟩ := ih pair hpair
        refine ⟨slots₁, slot₁, hslot, hdoc, fun bank => ?_⟩
        exact Nat.le_trans (p.upcoming_le_takeFrom slots bank) (hle bank)

/-- What a settled placeholder names: the slot of its token, or the next new slot. -/
theorem Placeholder.named_of_slotAmong {registry : Registry} {slots : SlotAllocator}
    {p : Placeholder} {slot : Slot} {n : Nat} (h : p.slotAmong registry slots = some slot)
    (hn : slot.named? = some n) :
    (∃ token, p.token? = some token ∧ registry.slotOf p.bank token = some n) ∨
      (p.token? = none ∧ p.draw = .fresh ∧ n = slots.upcoming p.bank) := by
  unfold slotAmong at h
  unfold token?
  cases hd : p.draw with
  | fresh =>
      simp only [hd, Option.some.injEq] at h
      subst h
      cases hn
      exact .inr ⟨rfl, rfl, rfl⟩
  | shared token =>
      simp only [hd, Option.map_eq_some_iff] at h
      obtain ⟨m, hm, rfl⟩ := h
      cases hn
      exact .inl ⟨token, rfl, hm⟩
  | unlike token =>
      simp only [hd, Option.map_eq_some_iff] at h
      obtain ⟨m, hm, rfl⟩ := h
      cases hn
      exact .inl ⟨token, rfl, hm⟩
  | replacing =>
      simp only [hd, Option.some.injEq] at h
      subst h
      cases hn

/-- Two placeholders of a bank name the same slot exactly where they carry the same token. -/
def SharedByToken (bank : String) (x y : Placeholder × Document.Sample) : Prop :=
  x.1.bank = bank → y.1.bank = bank → ∀ m ∈ x.2.slots, ∀ n ∈ y.2.slots,
    (m = n ↔ ∃ token, x.1.token? = some token ∧ y.1.token? = some token)

/-- Counters that do not give out a reserved slot. -/
def SlotAllocator.Clears (slots : SlotAllocator) (registry : Registry) : Prop :=
  ∀ bank, registry.reserved bank ≤ slots.upcoming bank

theorem SlotAllocator.clears_ofRegistry (registry : Registry) :
    (ofRegistry registry).Clears registry :=
  fun bank => Nat.le_of_eq (upcoming_ofRegistry registry bank).symm

/-- Counters that have only moved on still give out no reserved slot. -/
theorem SlotAllocator.Clears.mono {slots slots' : SlotAllocator} {registry : Registry}
    (h : slots.Clears registry) (hle : ∀ bank, slots.upcoming bank ≤ slots'.upcoming bank) :
    slots'.Clears registry :=
  fun bank => Nat.le_trans (h bank) (hle bank)

/-- A placeholder and a later one share a slot through a token or not at all: the slots of tokens
lie below those of fresh placeholders, and these never come twice. -/
theorem sharedByToken_of_later {registry : Registry} {slots slots₁ : SlotAllocator}
    {p q : Placeholder} {slot slot₁ : Slot} {bank : String} (hclears : slots.Clears registry)
    (hp : p.slotAmong registry slots = some slot)
    (hq : q.slotAmong registry slots₁ = some slot₁)
    (hle : ∀ bank, (p.takeFrom slots).upcoming bank ≤ slots₁.upcoming bank) :
    SharedByToken bank (p, p.document slot) (q, q.document slot₁) := by
  intro hpbank hqbank m hm n hn
  simp only [Placeholder.slots_document, Option.mem_toList] at hpbank hqbank hm hn
  subst hpbank
  have hmoved := hle p.bank
  rw [Placeholder.upcoming_takeFrom] at hmoved
  have hreserved := hclears p.bank
  rcases Placeholder.named_of_slotAmong hp hm with ⟨t, ht, hslot⟩ | ⟨ht, hfresh, hown⟩
  · have hbelow := Registry.slotOf_lt hslot
    rcases Placeholder.named_of_slotAmong hq hn with ⟨u, hu, hslot₁⟩ | ⟨hu, _, hown₁⟩
    · rw [hqbank] at hslot₁
      rw [Registry.slotOf_eq_iff hslot hslot₁]
      simp [ht, hu, eq_comm]
    · rw [hqbank] at hown₁
      have hne : m ≠ n := by omega
      simp [hu, hne]
  · rcases Placeholder.named_of_slotAmong hq hn with ⟨u, hu, hslot₁⟩ | ⟨hu, _, hown₁⟩
    · rw [hqbank] at hslot₁
      have hbelow := Registry.slotOf_lt hslot₁
      have hne : m ≠ n := by omega
      simp [ht, hne]
    · -- The first of the two has moved the counter on before the second takes its slot.
      rw [hqbank] at hown₁
      have hone : p.isFreshOn p.bank = true := by simp [Placeholder.isFreshOn, hfresh]
      rw [if_pos hone] at hmoved
      have hne : m ≠ n := by omega
      simp [ht, hne]

/-- In a run that starts after the reserved slots, any two placeholders of a bank share a slot
exactly where they carry the same token. -/
theorem Settles.pairwise_shared {registry : Registry} {slots slots' : SlotAllocator}
    {ps : List Placeholder} {ss : List Document.Sample} (bank : String)
    (h : Settles registry slots ps ss slots') (hclears : slots.Clears registry) :
    (ps.zip ss).Pairwise (SharedByToken bank) := by
  induction h with
  | nil => exact .nil
  | @cons p ps ss slot slots slots' head rest ih =>
      refine .cons ?_ (ih (hclears.mono fun bank => p.upcoming_le_takeFrom slots bank))
      intro pair hpair
      obtain ⟨slots₁, slot₁, hslot, hdoc, hle⟩ := rest.mem_zip pair hpair
      obtain ⟨q, t⟩ := pair
      simp only at hslot hdoc
      subst hdoc
      exact sharedByToken_of_later hclears head hslot hle

end Paradigm
