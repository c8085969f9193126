/-
Module: Paradigm.Proofs.Resolution.Scopes
Layer: Proofs
Purpose: Which declaration takes a sample, and what a declaration that passes its check can do for
  the samples it has taken. A run over samples adds each of them to the nearest frame that declares
  its bank; a frame passes its check exactly where its banks suffice for their samples. Banks in
  order then serve them: no slot lies past the end, fields are asked for where records are, and
  there are values enough.
Imports: Paradigm.Proofs.Document.Contents, Paradigm.Proofs.Step
Main exports: Bank.Serves, Bank.Suffices, Frame.check_eq_ok_iff, Frame.serves_of_check,
  Document.Scope.Served, Binds, Binds.append, Binds.of_bind?
-/
import Paradigm.Proofs.Document.Contents
import Paradigm.Proofs.Step

namespace Paradigm

open Document (Sample)

/-! ### Banks that serve samples -/

/-- Whether a bank holds records. -/
def Bank.HoldsRecords (bank : Bank) : Prop := ∃ record, BankEntry.record record ∈ bank

/-- What a bank does for the samples bound to it: every slot that is named lies in the bank; a field
is asked for exactly where the bank holds records, and all of them have it; the samples draw all
with replacement or all without, and in the latter case the bank has a value for each distinct slot
and one more where a slot has to be avoided. -/
structure Bank.Serves (bank : Bank) (samples : List Sample) : Prop where
  inside : ∀ s ∈ samples, ∀ slot ∈ s.slots, slot < bank.length
  asked : ∀ s ∈ samples, s.field.isSome = true ↔ bank.HoldsRecords
  known : ∀ s ∈ samples, ∀ field, s.field = some field →
    ∀ entry ∈ bank, ∃ record, entry = .record record ∧ field ∈ record.keys
  uniform : ∀ s ∈ samples, ∀ t ∈ samples, s.replacing = t.replacing
  enough : (∀ s ∈ samples, s.replacing = false) →
    (samples.flatMap Sample.slots).eraseDups.length
      + (if samples.any (·.avoids.isSome) then 1 else 0) ≤ bank.length

/-- What the samples bound to a bank have to keep to: they name a field exactly where the first
value of the bank is a record, and one that this record has; they draw all with replacement or all
without, and in the latter case the bank has a value for each distinct slot and one more where a
slot has to be avoided, and no slot lies past the end. -/
structure Bank.Suffices (bank : Bank) (samples : List Sample) : Prop where
  asked : ∀ s ∈ samples, s.field.isSome = true ↔ bank.fields?.isSome = true
  known : ∀ s ∈ samples, ∀ fields ∈ bank.fields?, ∀ field ∈ s.field, field ∈ fields
  uniform : (∀ s ∈ samples, s.replacing = true) ∨ ∀ s ∈ samples, s.replacing = false
  enough : (∀ s ∈ samples, s.replacing = false) →
    (samples.flatMap Sample.slots).eraseDups.length
      + (if samples.any (·.avoids.isSome) then 1 else 0) ≤ bank.length
  inside : (∀ s ∈ samples, s.replacing = false) → ∀ s ∈ samples, ∀ slot ∈ s.slots,
    slot < bank.length

instance (bank : Bank) (samples : List Sample) : Decidable (bank.Suffices samples) :=
  decidable_of_iff
    ((∀ s ∈ samples, s.field.isSome = true ↔ bank.fields?.isSome = true) ∧
      (∀ s ∈ samples, ∀ fields ∈ bank.fields?, ∀ field ∈ s.field, field ∈ fields) ∧
      ((∀ s ∈ samples, s.replacing = true) ∨ ∀ s ∈ samples, s.replacing = false) ∧
      ((∀ s ∈ samples, s.replacing = false) →
        (samples.flatMap Sample.slots).eraseDups.length
          + (if samples.any (·.avoids.isSome) then 1 else 0) ≤ bank.length) ∧
      ((∀ s ∈ samples, s.replacing = false) → ∀ s ∈ samples, ∀ slot ∈ s.slots,
        slot < bank.length))
    ⟨fun ⟨asked, known, uniform, enough, inside⟩ => ⟨asked, known, uniform, enough, inside⟩,
      fun h => ⟨h.asked, h.known, h.uniform, h.enough, h.inside⟩⟩

/-! ### Rules of a bank -/

/-- The records of a bank in order all have the fields of the first one. -/
theorem checkRecord_eq_ok {owner name : String} {fields : List String} {entry : BankEntry}
    (h : checkRecord owner name fields entry = .ok ()) :
    ∃ record, entry = .record record ∧ ∀ field ∈ fields, field ∈ record.keys := by
  cases entry with
  | text value => simp [checkRecord, refuse] at h
  | record record =>
      refine ⟨record, rfl, fun field hfield => ?_⟩
      simp only [checkRecord, require_eq_ok_iff, sameNames, Bool.and_eq_true, List.all_eq_true]
        at h
      exact List.contains_iff_mem.mp (h.2 field hfield)

/-- A bank in order has fields exactly where it holds records. -/
theorem isSome_fields?_iff {owner name : String} {bank : Bank}
    (h : checkBank owner name bank = .ok ()) : bank.fields?.isSome = true ↔ bank.HoldsRecords := by
  cases bank with
  | nil => simp [checkBank, refuse] at h
  | cons entry rest =>
      cases entry with
      | record first => simp [Bank.fields?, Bank.HoldsRecords]
      | text value =>
          simp only [checkBank, require_eq_ok_iff, List.all_eq_true] at h
          simp only [Bank.fields?, Bank.HoldsRecords, List.head?_cons, Option.isSome_none,
            Bool.false_eq_true, List.mem_cons, reduceCtorEq, false_or, false_iff]
          intro hholds
          rcases hholds with ⟨record, hrecord⟩
          have := h _ hrecord
          simp at this

/-- Where a bank in order has fields, it holds nothing but records that have them. -/
theorem record_of_fields? {owner name : String} {bank : Bank} {fields : List String}
    (h : checkBank owner name bank = .ok ()) (hfields : bank.fields? = some fields) :
    ∀ entry ∈ bank, ∃ record, entry = .record record ∧ ∀ field ∈ fields, field ∈ record.keys := by
  cases bank with
  | nil => simp [checkBank, refuse] at h
  | cons entry rest =>
      cases entry with
      | text value => simp [Bank.fields?] at hfields
      | record first =>
          simp only [Bank.fields?, List.head?_cons, Option.some.injEq] at hfields
          subst hfields
          simp only [checkBank, checkAll_eq_ok_iff] at h
          exact fun entry hentry => checkRecord_eq_ok (h entry hentry)

/-! ### Usages as samples -/

/-- A use of a bank as the sample that the document has for it. -/
def Use.document (bank : String) (use : Use) : Sample :=
  Placeholder.document { bank := bank, draw := .fresh, field := use.field } use.slot

theorem Use.slots_document (bank : String) (use : Use) :
    (use.document bank).slots = use.slot.named?.toList := by
  unfold document
  cases use.slot <;> rfl

theorem Use.avoids_document (bank : String) (use : Use) :
    (use.document bank).avoids.isSome = use.slot.isAvoiding := by
  unfold document
  cases use.slot <;> rfl

/-- What is drawn with replacement names no slot. -/
theorem Use.slots_eq_nil {bank : String} {use : Use}
    (h : (use.document bank).replacing = true) : (use.document bank).slots = [] := by
  have hany : (use.slot == .any) = true := h
  rw [Use.slots_document, eq_of_beq hany]
  rfl

/-- The samples of a usage. -/
def Usage.documents (bank : String) (usage : Usage) : List Sample := usage.map (Use.document bank)

theorem Usage.slots_eq (bank : String) (usage : Usage) :
    usage.slots = ((usage.documents bank).flatMap Sample.slots).eraseDups := by
  unfold slots documents
  congr 1
  induction usage with
  | nil => rfl
  | cons use rest ih =>
      rw [List.map_cons, List.flatMap_cons, ← ih, Use.slots_document, List.filterMap_cons]
      cases use.slot.named? <;> rfl

theorem Usage.any_avoiding (bank : String) (usage : Usage) :
    usage.any (·.slot.isAvoiding) = (usage.documents bank).any (·.avoids.isSome) := by
  unfold documents
  rw [List.any_map]
  congr 1
  funext use
  exact (Use.avoids_document bank use).symm

/-! ### Checked usages -/

/-- A field is asked for exactly where the bank has fields, and it is one of them. -/
theorem checkField_eq_ok_iff {name : String} {fields : Option (List String)} {use : Use} :
    checkField name fields use = .ok () ↔
      (use.field.isSome = true ↔ fields.isSome = true) ∧
        ∀ known field, fields = some known → use.field = some field → field ∈ known := by
  unfold checkField
  cases fields with
  | none =>
      cases use.field with
      | none => simp
      | some field => simp [refuse]
  | some known =>
      cases use.field with
      | none => simp [refuse]
      | some field => simp

theorem Usage.slots_eq_nil {usage : Usage} (h : usage.highest = none) : usage.slots = [] :=
  List.max?_eq_none_iff.mp h

/-- The slots of a usage lie below a bound where the highest one does. -/
theorem Usage.highest_lt_iff {usage : Usage} {top bound : Nat} (h : usage.highest = some top) :
    top < bound ↔ ∀ slot ∈ usage.slots, slot < bound := by
  obtain ⟨hmem, hle⟩ := List.max?_eq_some_iff.mp h
  constructor
  · intro htop slot hslot
    exact Nat.lt_of_le_of_lt (hle slot hslot) htop
  · intro hall
    exact hall top hmem

/-- What the check of a usage comes to. -/
theorem checkUsage_eq_ok_iff {owner name : String} {bank : Bank} {usage : Usage} :
    checkUsage owner name bank usage = .ok () ↔
      (∀ use ∈ usage, checkField name bank.fields? use = .ok ()) ∧
        (usage.replacing = 0 ∨ usage.replacing = usage.length) ∧
        (usage.replacing ≠ 0 ∨ usage.needed ≤ bank.length) ∧
        ∀ slot ∈ usage.slots, slot < bank.length := by
  unfold checkUsage
  simp only [Verdict.seq_eq_ok_iff, checkAll_eq_ok_iff, require_eq_ok_iff]
  refine and_congr Iff.rfl (and_congr ?_ (and_congr ?_ ?_))
  · simp
  · simp
  · cases hhighest : usage.highest with
    | none => simp [Usage.slots_eq_nil hhighest, Outcome.pure_eq_ok_iff]
    | some top =>
        rw [require_eq_ok_iff, decide_eq_true_eq]
        exact Usage.highest_lt_iff hhighest

/-- A bank passes the check of a usage exactly where it suffices for its samples. -/
theorem checkUsage_eq_ok_iff_suffices {owner name : String} {bank : Bank} {usage : Usage} :
    checkUsage owner name bank usage = .ok () ↔ bank.Suffices (usage.documents name) := by
  have hmem : ∀ use ∈ usage, use.document name ∈ usage.documents name :=
    fun use huse => List.mem_map_of_mem huse
  have hslots : ∀ slot, slot ∈ usage.slots ↔ ∃ s ∈ usage.documents name, slot ∈ s.slots := by
    intro slot
    rw [Usage.slots_eq name, List.mem_eraseDups, List.mem_flatMap]
  have hneeded : usage.needed = ((usage.documents name).flatMap Sample.slots).eraseDups.length
      + (if (usage.documents name).any (·.avoids.isSome) then 1 else 0) := by
    rw [Usage.needed, Usage.slots_eq name, Usage.any_avoiding name]
  have hnone : usage.replacing = 0 ↔ ∀ s ∈ usage.documents name, s.replacing = false := by
    rw [Usage.replacing, List.countP_eq_zero, Usage.documents, List.forall_mem_map]
    simp only [Bool.not_eq_true]
    rfl
  have hall : usage.replacing = usage.length ↔
      ∀ s ∈ usage.documents name, s.replacing = true := by
    rw [Usage.replacing, List.countP_eq_length, Usage.documents, List.forall_mem_map]
    rfl
  rw [checkUsage_eq_ok_iff]
  constructor
  · rintro ⟨hfields, hsame, henough, hinside⟩
    constructor
    · intro s hs
      obtain ⟨use, huse, rfl⟩ := List.mem_map.mp hs
      exact (checkField_eq_ok_iff.mp (hfields use huse)).1
    · intro s hs fields hknown field hfield
      obtain ⟨use, huse, rfl⟩ := List.mem_map.mp hs
      exact (checkField_eq_ok_iff.mp (hfields use huse)).2 fields field hknown hfield
    · exact hsame.symm.imp hall.mp hnone.mp
    · intro hdraws
      exact hneeded ▸ henough.resolve_left (· (hnone.mpr hdraws))
    · intro _ s hs slot hslot
      exact hinside slot ((hslots slot).mpr ⟨s, hs, hslot⟩)
  · intro h
    refine ⟨fun use huse => checkField_eq_ok_iff.mpr ⟨h.asked _ (hmem use huse), ?_⟩,
      h.uniform.symm.imp hnone.mpr hall.mpr, ?_, fun slot hslot => ?_⟩
    · intro known field hknown hfield
      exact h.known _ (hmem use huse) known hknown field hfield
    · rw [hneeded]
      exact (Decidable.em (usage.replacing = 0)).symm.imp_right fun hzero =>
        h.enough (hnone.mp hzero)
    · obtain ⟨s, hs, hslot⟩ := (hslots slot).mp hslot
      rcases h.uniform with hreplacing | hdraws
      · obtain ⟨use, huse, rfl⟩ := List.mem_map.mp hs
        rw [Use.slots_eq_nil (hreplacing _ hs)] at hslot
        cases hslot
      · exact h.inside hdraws s hs slot hslot

/-- Any bank suffices for no samples. -/
theorem Bank.suffices_nil (bank : Bank) : bank.Suffices [] where
  asked := by simp
  known := by simp
  uniform := by simp
  enough := by simp
  inside := by simp

/-- A bank in order that suffices for samples serves them, where those that draw with replacement
name no slot. -/
theorem Bank.Suffices.serves {owner name : String} {bank : Bank} {samples : List Sample}
    (h : bank.Suffices samples) (hbank : checkBank owner name bank = .ok ())
    (hfree : ∀ s ∈ samples, s.replacing = true → s.slots = []) : bank.Serves samples where
  inside := by
    intro s hs slot hslot
    rcases h.uniform with hall | hnone
    · rw [hfree s hs (hall s hs)] at hslot
      cases hslot
    · exact h.inside hnone s hs slot hslot
  asked := fun s hs => (h.asked s hs).trans (isSome_fields?_iff hbank)
  known := by
    intro s hs field hfield entry hentry
    obtain ⟨fields, hfields⟩ :=
      Option.isSome_iff_exists.mp ((h.asked s hs).mp (by simp [hfield]))
    obtain ⟨record, rfl, hrecord⟩ := record_of_fields? hbank hfields entry hentry
    exact ⟨record, rfl, hrecord field (h.known s hs fields hfields field hfield)⟩
  uniform := by
    intro s hs t ht
    rcases h.uniform with hall | hnone
    · rw [hall s hs, hall t ht]
    · rw [hnone s hs, hnone t ht]
  enough := h.enough

/-! ### Frames -/

/-- The samples bound to a frame. -/
def Frame.documents (frame : Frame) : List Sample :=
  frame.uses.map fun entry => entry.2.document entry.1

/-- The samples bound to one bank of a frame are those of the bank among all of its samples. -/
theorem Frame.documents_usage (frame : Frame) (name : String) :
    (frame.usage name).documents name = frame.documents.filter (·.bank = name) := by
  unfold usage documents Usage.documents
  induction frame.uses with
  | nil => rfl
  | cons entry rest ih =>
      obtain ⟨bank, use⟩ := entry
      have hbank : (use.document bank).bank = bank := rfl
      by_cases h : bank = name
      · subst h
        simpa [hbank] using ih
      · simpa [h, hbank] using ih

/-- A frame passes its check exactly where each of its banks suffices for the samples bound to
it. -/
theorem Frame.check_eq_ok_iff {frame : Frame} :
    frame.check = .ok () ↔ ∀ declared ∈ frame.banks.entries,
      declared.2.Suffices (frame.documents.filter (·.bank = declared.1)) := by
  unfold Frame.check
  rw [checkAll_eq_ok_iff]
  refine forall₂_congr fun declared _ => ?_
  rw [← Frame.documents_usage]
  simp only
  split
  case isTrue hempty =>
    rw [List.isEmpty_iff.mp hempty]
    exact iff_of_true rfl declared.2.suffices_nil
  case isFalse => exact checkUsage_eq_ok_iff_suffices

/-- The banks of a node serve samples, each those that are its own. -/
def Document.Scope.Served (scope : Document.Scope) : Prop :=
  ∀ declared ∈ scope.banks.entries, Bank.Serves declared.2 (scope.bound declared.1)

/-- The banks of a frame that passes its check serve the samples bound to the frame. -/
theorem Frame.serves_of_check {owner : String} {frame : Frame}
    (hbanks : checkBanks owner frame.banks = .ok ()) (h : frame.check = .ok ()) :
    Document.Scope.Served { banks := frame.banks, reaching := frame.documents } := by
  intro declared hdeclared
  unfold checkBanks at hbanks
  rw [checkAll_eq_ok_iff] at hbanks
  have hsuffices := Frame.check_eq_ok_iff.mp h declared hdeclared
  refine hsuffices.serves (hbanks declared hdeclared) ?_
  intro s hs hreplacing
  obtain ⟨entry, _, rfl⟩ := List.mem_map.mp (List.mem_filter.mp hs).1
  exact Use.slots_eq_nil hreplacing

/-- What a scope binds to the banks that it declares are samples declared in it. -/
theorem Document.Scope.served_of_filter {banks : Banks} {samples : List Sample}
    (h : Document.Scope.Served
      { banks := banks, reaching := samples.filter (Sample.declaredIn banks) }) :
    Document.Scope.Served { banks := banks, reaching := samples } := by
  intro declared hdeclared
  have hserves : Bank.Serves declared.2
      ((samples.filter (Sample.declaredIn banks)).filter (·.bank = declared.1)) :=
    h declared hdeclared
  have hbound : (samples.filter (Sample.declaredIn banks)).filter (·.bank = declared.1)
      = samples.filter (·.bank = declared.1) := by
    rw [List.filter_filter]
    apply List.filter_congr
    intro s _
    by_cases hs : s.bank = declared.1
    · have hmem : s.bank ∈ banks.keys := hs ▸ List.mem_map_of_mem hdeclared
      simp [hs ▸ hmem, hs, Sample.declaredIn, Assoc.contains]
    · simp [hs]
  rw [hbound] at hserves
  exact hserves

/-! ### Binding to frames -/

/-- A run over samples adds each one to the nearest frame that declares its bank: a frame takes the
samples of its banks and the frames around it take the others. -/
inductive Binds : List Frame → List Sample → List Frame → Prop where
  | nil : Binds [] [] []
  | cons {frame frame' : Frame} {outer outer' : List Frame} {ss : List Sample}
      (banks : frame'.banks = frame.banks)
      (taken : frame'.documents = frame.documents ++ ss.filter (Sample.declaredIn frame.banks))
      (rest : Binds outer (ss.filter (!Sample.declaredIn frame.banks ·)) outer') :
      Binds (frame :: outer) ss (frame' :: outer')

theorem Binds.refl (frames : List Frame) : Binds frames [] frames := by
  induction frames with
  | nil => exact .nil
  | cons frame outer ih => exact .cons rfl (by simp) ih

theorem Binds.append {frames frames₁ frames₂ : List Frame} {ss ts : List Sample}
    (first : Binds frames ss frames₁) (second : Binds frames₁ ts frames₂) :
    Binds frames (ss ++ ts) frames₂ := by
  induction first generalizing ts frames₂ with
  | nil =>
      cases second
      exact .nil
  | cons banks taken _ ih =>
      cases second with
      | cons banks' taken' rest' =>
          rw [banks] at taken' rest'
          refine .cons (banks'.trans banks) ?_ ?_
          · rw [taken', taken, List.filter_append, List.append_assoc]
          · rw [List.filter_append]
            exact ih rest'

/-- Binding one use adds its sample. -/
theorem Binds.of_bind? {bank : String} {use : Use} {frames frames' : List Frame}
    (h : Frame.bind? bank use frames = some frames') :
    Binds frames [use.document bank] frames' := by
  induction frames generalizing frames' with
  | nil => simp [Frame.bind?] at h
  | cons frame outer ih =>
      have hdeclared : Sample.declaredIn frame.banks (use.document bank)
          = frame.banks.contains bank := rfl
      unfold Frame.bind? at h
      by_cases hb : frame.banks.contains bank
      · simp only [hb, if_true, Option.some.injEq] at h
        subst h
        refine .cons rfl ?_ ?_
        · simp [Frame.documents, hdeclared, hb]
        · simpa [hdeclared, hb] using Binds.refl outer
      · simp only [hb, Bool.false_eq_true, if_false, Option.map_eq_some_iff] at h
        obtain ⟨outer', houter, rfl⟩ := h
        refine .cons rfl ?_ ?_
        · simp [hdeclared, hb]
        · simpa [hdeclared, hb] using ih houter

/-- Where there is no frame, nothing can be bound. -/
theorem Binds.eq_nil {ss : List Sample} {frames : List Frame} (h : Binds [] ss frames) :
    ss = [] := by
  cases h
  rfl

end Paradigm
