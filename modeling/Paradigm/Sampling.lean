/-
Module: Paradigm.Sampling
Layer: Authoring
Purpose: How draws from banks are numbered. The registry of a session keeps, for each bank, a
  counter and the slot of every token that was seen on it; a token that comes again keeps its slot.
  A compilation counts on from there, bank by bank, for the placeholders without a token. Whatever
  is reserved, the tokens of a bank hold the slots below its counter, in the order in which they
  came, so a slot is the place of its token among them.
Imports: Paradigm.Assoc, Paradigm.Tree
Main exports: BankSlots, BankSlots.reserve, BankSlots.Numbered.reserve, Registry, Registry.note,
  Registry.slotOf_eq_idxOf?, Registry.reserved_eq_length, Registry.tokens_reserve, SlotAllocator,
  SlotAllocator.upcoming_ofRegistry, SlotAllocator.upcoming_fresh,
  SlotAllocator.fresh_after_ofRegistry
-/
import Paradigm.Assoc
import Paradigm.Tree

namespace Paradigm

/-! ### The slots of a bank -/

/-- The slots of a bank: the next one to be reserved, and the slot of each token. -/
structure BankSlots where
  next : Nat := 0
  named : Assoc Nat := .empty
deriving DecidableEq, Inhabited

namespace BankSlots

/-- Reserves the next slot for a token. A token that has a slot keeps it. -/
def reserve (slots : BankSlots) (token : String) : BankSlots :=
  match slots.named.get? token with
  | some _ => slots
  | none => { next := slots.next + 1, named := slots.named.insert token slots.next }

/-- The counter is in step with the tokens: they hold the slots below it, each one, in order. -/
def Numbered (slots : BankSlots) : Prop := slots.named.values = List.range slots.next

theorem numbered_empty : Numbered {} := rfl

/-- A reservation leaves the counter in step with the tokens. -/
theorem Numbered.reserve {slots : BankSlots} (h : slots.Numbered) (token : String) :
    (slots.reserve token).Numbered := by
  unfold BankSlots.reserve
  cases hslot : slots.named.get? token with
  | some slot => exact h
  | none =>
      have hnew : token ∉ slots.named.keys := Assoc.get?_eq_none_iff.mp hslot
      show (slots.named.insert token slots.next).values = List.range (slots.next + 1)
      rw [Assoc.values, Assoc.entries_insert_of_not_mem hnew, List.map_append, List.range_succ]
      exact congrArg (· ++ [slots.next]) h

/-- The tokens after a reservation: a new one comes last. -/
theorem keys_reserve (slots : BankSlots) (token : String) :
    (slots.reserve token).named.keys =
      if token ∈ slots.named.keys then slots.named.keys
      else slots.named.keys ++ [token] := by
  unfold reserve
  cases hslot : slots.named.get? token with
  | some slot =>
      have hknown : token ∈ slots.named.keys :=
        List.mem_map.mpr ⟨_, Assoc.mem_of_get? hslot, rfl⟩
      rw [if_pos hknown]
  | none => exact Assoc.keys_insert _ _ _

/-- Where values count on from a number, a name has the value that its place gives it. -/
theorem lookup_eq_idxOf? {entries : List (String × Nat)} {start count : Nat}
    (h : entries.map Prod.snd = List.range' start count) (token : String) :
    entries.lookup token = ((entries.map Prod.fst).idxOf? token).map (start + ·) := by
  induction entries generalizing start count with
  | nil => rfl
  | cons entry rest ih =>
      cases count with
      | zero => cases h
      | succ count =>
          obtain ⟨name, slot⟩ := entry
          rw [List.map_cons, List.range'_succ, List.cons.injEq] at h
          obtain ⟨rfl, hrest⟩ := h
          rw [List.lookup_cons, List.map_cons, List.idxOf?_cons, ih hrest, Bool.beq_comm]
          by_cases hname : name = token
          · simp [hname]
          · simp [beq_eq_false_iff_ne.mpr hname, Function.comp_def, Nat.add_assoc, Nat.add_comm 1]

/-- The slot of a token is its place among the tokens. -/
theorem Numbered.get?_eq {slots : BankSlots} (h : slots.Numbered) (token : String) :
    slots.named.get? token = slots.named.keys.idxOf? token := by
  have hvalues : slots.named.entries.map Prod.snd = List.range' 0 slots.next := by
    rw [← List.range_eq_range']
    exact h
  rw [Assoc.get?, lookup_eq_idxOf? hvalues, Assoc.keys]
  simp

/-- The counter is the number of tokens. -/
theorem Numbered.next_eq {slots : BankSlots} (h : slots.Numbered) :
    slots.next = slots.named.keys.length := by
  have hlength := congrArg List.length h
  rw [List.length_range, Assoc.values, List.length_map] at hlength
  rw [← hlength, Assoc.keys, List.length_map]

end BankSlots

/-! ### The registry -/

/-- The slots reserved on each bank while a tree is built. Banks are listed in the order of their
first appearance. -/
structure Registry where
  banks : Assoc BankSlots := .empty
  /-- The counter of every bank is in step with its tokens. -/
  numbered : ∀ slots ∈ banks.values, slots.Numbered := by exact List.forall_mem_nil _
deriving DecidableEq

instance : Inhabited Registry := ⟨{}⟩

namespace Registry

/-- The slots of a bank, none for a bank that is not known. -/
def slots (r : Registry) (bank : String) : BankSlots := (r.banks.get? bank).getD {}

theorem numbered_slots (r : Registry) (bank : String) : (r.slots bank).Numbered := by
  unfold slots
  cases hslots : r.banks.get? bank with
  | none => exact BankSlots.numbered_empty
  | some slots => exact r.numbered slots (List.mem_map.mpr ⟨_, Assoc.mem_of_get? hslots, rfl⟩)

/-- The registry with other slots on a bank. -/
def setSlots (r : Registry) (bank : String) (slots : BankSlots) (h : slots.Numbered) :
    Registry where
  banks := r.banks.insert bank slots
  numbered := by
    intro found hfound
    rcases Assoc.mem_values_insert hfound with rfl | hold
    · exact h
    · exact r.numbered found hold

/-- Makes a bank known without reserving a slot on it. -/
def addBank (r : Registry) (bank : String) : Registry :=
  if r.banks.contains bank then r else r.setSlots bank {} BankSlots.numbered_empty

/-- Reserves the next slot of a bank for a token that has none yet. -/
def reserve (r : Registry) (bank token : String) : Registry :=
  r.setSlots bank ((r.slots bank).reserve token) ((r.numbered_slots bank).reserve token)

/-- The registry after a placeholder was made. -/
def note (r : Registry) (p : Placeholder) : Registry :=
  match p.draw with
  | .shared token => r.reserve p.bank token
  | .unlike token => r.reserve p.bank token
  | .fresh => r.addBank p.bank
  | .replacing => r.addBank p.bank

/-- The slot of a token. -/
def slotOf (r : Registry) (bank token : String) : Option Nat :=
  (r.slots bank).named.get? token

/-- How many slots are reserved on a bank. -/
def reserved (r : Registry) (bank : String) : Nat := (r.slots bank).next

/-- The names of the known banks. -/
def bankNames (r : Registry) : List String := r.banks.keys

/-- The tokens of a bank, in the order in which they came. -/
def tokens (r : Registry) (bank : String) : List String := (r.slots bank).named.keys

/-- A token has the slot of its place among the tokens of its bank. -/
theorem slotOf_eq_idxOf? (r : Registry) (bank token : String) :
    r.slotOf bank token = (r.tokens bank).idxOf? token :=
  (r.numbered_slots bank).get?_eq token

/-- As many slots are reserved on a bank as it has tokens. -/
theorem reserved_eq_length (r : Registry) (bank : String) :
    r.reserved bank = (r.tokens bank).length :=
  (r.numbered_slots bank).next_eq

theorem slots_setSlots (r : Registry) (bank other : String) {slots : BankSlots}
    (h : slots.Numbered) :
    (r.setSlots bank slots h).slots other = if other = bank then slots else r.slots other := by
  unfold Registry.slots setSlots
  rw [Assoc.get?_insert]
  split <;> rfl

/-- The tokens of a bank after a reservation on any bank. -/
theorem tokens_reserve (r : Registry) (bank token other : String) :
    (r.reserve bank token).tokens other =
      if other = bank ∧ token ∉ r.tokens bank then r.tokens bank ++ [token]
      else r.tokens other := by
  unfold tokens reserve
  rw [slots_setSlots]
  by_cases hother : other = bank
  · subst hother
    rw [if_pos rfl, BankSlots.keys_reserve]
    by_cases hknown : token ∈ (r.slots other).named.keys <;> simp [hknown]
  · simp [hother]

/-- Making a bank known reserves nothing on any bank. -/
theorem slots_addBank (r : Registry) (bank other : String) :
    (r.addBank bank).slots other = r.slots other := by
  unfold addBank
  split
  · rfl
  · rename_i hnew
    rw [slots_setSlots]
    by_cases hother : other = bank
    · subst hother
      have hnone : r.banks.get? other = none := by
        rw [Assoc.get?_eq_none_iff, ← List.contains_iff_mem]
        exact hnew
      rw [if_pos rfl, slots, hnone, Option.getD_none]
    · rw [if_neg hother]

end Registry

/-! ### Slots of a compilation -/

/-- Counters for the slots that no token holds, one for each bank. -/
structure SlotAllocator where
  next : Assoc Nat := .empty
deriving DecidableEq, Inhabited

namespace SlotAllocator

/-- Counters that start where the registry leaves off. -/
def ofRegistry (r : Registry) : SlotAllocator := { next := r.banks.map (·.next) }

/-- The next slot of a bank, the first one for a bank that is not known. -/
def upcoming (a : SlotAllocator) (bank : String) : Nat := (a.next.get? bank).getD 0

/-- Takes the next slot of a bank. -/
def fresh (a : SlotAllocator) (bank : String) : Nat × SlotAllocator :=
  (a.upcoming bank, { next := a.next.insert bank (a.upcoming bank + 1) })

/-- The first slot of a bank is the one after the reserved ones. -/
@[simp] theorem upcoming_ofRegistry (r : Registry) (bank : String) :
    (ofRegistry r).upcoming bank = r.reserved bank := by
  unfold upcoming ofRegistry Registry.reserved Registry.slots
  rw [Assoc.get?_map]
  cases r.banks.get? bank <;> rfl

/-- Taking a slot of a bank moves the counter of that bank by one, and no other. -/
theorem upcoming_fresh (a : SlotAllocator) (bank other : String) :
    (a.fresh bank).2.upcoming other = a.upcoming other + if other = bank then 1 else 0 := by
  unfold fresh upcoming
  rw [Assoc.get?_insert]
  by_cases hother : other = bank <;> simp [hother]

/-- The counters after slots were taken from some banks. -/
def after (a : SlotAllocator) (taken : List String) : SlotAllocator :=
  taken.foldl (fun a bank => (a.fresh bank).2) a

theorem upcoming_after (a : SlotAllocator) (taken : List String) (bank : String) :
    (a.after taken).upcoming bank = a.upcoming bank + taken.count bank := by
  induction taken generalizing a with
  | nil => rfl
  | cons other rest ih =>
      show ((a.fresh other).2.after rest).upcoming bank = _
      rw [ih, upcoming_fresh, List.count_cons, Nat.add_assoc, Nat.add_comm (rest.count bank)]
      simp [eq_comm (a := other)]

/-- A slot that is taken comes after the reserved slots of its bank and those taken before. -/
theorem fresh_after_ofRegistry (r : Registry) (taken : List String) (bank : String) :
    (((ofRegistry r).after taken).fresh bank).1 = r.reserved bank + taken.count bank := by
  rw [← upcoming_ofRegistry, ← upcoming_after]
  rfl

end SlotAllocator

end Paradigm
