/-
Module: Paradigm.Proofs.Wire.Reading
Layer: Proofs
Purpose: What the readers make of values. A value has no mistakes, so lists and maps are read where
  their elements are, a shape decides where the ones before it do not fit, and a record is read from
  its members in whatever order they come. The record that has been read up to some member is
  given as a function of the names seen so far; a field has to bring it from one to the next.
Imports: Paradigm.Json.Reading, Paradigm.Proofs.Step
Main exports: Json.Draft.variants_first, Json.Draft.asOption_ofJson, Json.Draft.asList_ofJson,
  Json.Draft.assoc_ofJson, Json.Draft.record_ofJson, Json.Draft.record_ne_ok_of_missing
-/
import Mathlib.Data.List.Forall2
import Paradigm.Json.Reading
import Paradigm.Proofs.Step

namespace Paradigm.Json.Draft

variable {α β γ σ : Type}

/-! ### Shapes -/

theorem variants_ofJson (v : Json) (readings : Unit → List (Except Refusal α)) :
    (ofJson v).variants readings = firstOk (readings ()) := by
  unfold variants
  rw [toJson_ofJson]
  rfl

/-- The first shape decides where it fits. -/
theorem variants_first {v : Json} {first : Except Refusal α} {wrap : α → γ} {a : α}
    {others : List (Except Refusal γ)} (h : first = .ok a) :
    ((ofJson v).variants fun _ => (wrap <$> first) :: others) = .ok (wrap a) := by
  rw [variants_ofJson, h]
  rfl

/-- The second shape decides where it fits and the first does not. -/
theorem variants_second {v : Json} {first : Except Refusal α} {second : Except Refusal β}
    {wrap : α → γ} {wrap' : β → γ} {b : β} (hfirst : ∀ a, first ≠ .ok a) (h : second = .ok b) :
    ((ofJson v).variants fun _ => [wrap <$> first, wrap' <$> second]) = .ok (wrap' b) := by
  rw [variants_ofJson, h]
  cases hread : first with
  | error r => rfl
  | ok a => exact absurd hread (hfirst a)

/-- No shape fits where neither of two does. -/
theorem variants_ne_ok {d : Draft} {first : Except Refusal α} {second : Except Refusal β}
    {wrap : α → γ} {wrap' : β → γ} (hfirst : ∀ a, first ≠ .ok a) (hsecond : ∀ b, second ≠ .ok b)
    (c : γ) : (d.variants fun _ => [wrap <$> first, wrap' <$> second]) ≠ .ok c := by
  unfold variants
  rw [ne_eq, Outcome.bind_eq_ok_iff, not_exists]
  intro value
  cases hread : first with
  | ok a => exact absurd hread (hfirst a)
  | error r =>
      cases hread' : second with
      | ok b => exact absurd hread' (hsecond b)
      | error r' => simp [firstOk, Functor.map, Except.map]

theorem asOption_of_ne_null {read : Draft → Except Refusal α} {d : Draft} (h : d ≠ .null) :
    d.asOption read = some <$> read d := by
  cases d with
  | null => exact absurd rfl h
  | _ => rfl

/-- What a reader that refuses null makes of a value is there. -/
theorem asOption_ofJson {read : Draft → Except Refusal α} {x : Json} {a : α}
    (hnull : ∀ b, read .null ≠ .ok b) (h : read (ofJson x) = .ok a) :
    (ofJson x).asOption read = .ok (some a) := by
  have hthere : ofJson x ≠ .null := by
    intro heq
    exact hnull a (heq ▸ h)
  rw [asOption_of_ne_null hthere, h]
  rfl

/-! ### Lists -/

theorem readItems_ofItems {bound : Nat} {read : Draft → Except Refusal α} {items : List Json}
    {values : List α} (h : List.Forall₂ (fun x a => read (ofJson x) = .ok a) items values)
    (hbound : sizeOf (ofItems items) ≤ bound) :
    readItems bound (fun x _ => read x) (ofItems items) hbound = .ok values := by
  induction h with
  | nil => rfl
  | cons hread hrest ih =>
      simp only [ofItems] at hbound ⊢
      simp only [readItems, Outcome.bind_eq_ok_iff, Outcome.pure_eq_ok_iff]
      exact ⟨_, hread, _, ih _, rfl⟩

/-- A list is read where each of its elements is. -/
theorem asList_ofJson {read : Draft → Except Refusal α} {items : List Json} {values : List α}
    (h : List.Forall₂ (fun x a => read (ofJson x) = .ok a) items values) :
    asList read (ofJson (.arr items)) = .ok values := by
  simp only [asList, ofJson, list, Outcome.bind_eq_ok_iff]
  exact ⟨values, readItems_ofItems h _, rfl⟩

/-! ### Maps -/

theorem insert_new {m r : Assoc α} {name : String} {value : α} {rest : List (String × α)}
    (h : r.entries = m.entries ++ (name, value) :: rest) :
    (m.insert name value).entries = m.entries ++ [(name, value)] := by
  have hnew : name ∉ m.keys := by
    intro hname
    have hnodup := r.nodup
    rw [h, List.map_append, List.nodup_append] at hnodup
    exact hnodup.2.2 name hname name (by simp) rfl
  unfold Assoc.insert
  rw [dif_neg hnew]

theorem readEntries_ofMembers {read : Draft → Except Refusal α} {members : List (String × Json)}
    {entries : List (String × α)} {m r : Assoc α}
    (h : List.Forall₂ (fun x e => x.1 = e.1 ∧ read (ofJson x.2) = .ok e.2) members entries)
    (hr : r.entries = m.entries ++ entries) : readEntries read m (ofMembers members) = .ok r := by
  induction h generalizing m with
  | nil =>
      obtain ⟨given, _⟩ := m
      obtain ⟨reached, _⟩ := r
      simp only [List.append_nil] at hr
      subst hr
      rfl
  | @cons member entry members entries hboth hrest ih =>
      obtain ⟨name, x⟩ := member
      obtain ⟨_, value⟩ := entry
      obtain ⟨rfl, hread⟩ := hboth
      simp only [ofMembers, readEntries, Outcome.bind_eq_ok_iff]
      refine ⟨value, hread, ih ?_⟩
      rw [insert_new hr, hr, List.append_assoc, List.singleton_append]

/-- A map is read where each of its values is. -/
theorem assoc_ofJson {read : Draft → Except Refusal α} {members : List (String × Json)}
    {m : Assoc α}
    (h : List.Forall₂ (fun x e => x.1 = e.1 ∧ read (ofJson x.2) = .ok e.2) members m.entries) :
    assoc read (ofJson (.obj members)) = .ok m := by
  simp only [ofJson, assoc, Outcome.bind_eq_ok_iff]
  exact ⟨m, readEntries_ofMembers h rfl, rfl⟩

/-! ### Records -/

section Records

variable {fields : List (String × Presence)} {put : σ → String → Draft → Except Refusal σ}
  {members : List (String × Json)}

theorem readMembers_ofMembers {bound : Nat} {partly : List String → σ} {seen : List String}
    (hdistinct : (members.map Prod.fst).Nodup) (hnew : ∀ name ∈ members.map Prod.fst, name ∉ seen)
    (hknown : ∀ name ∈ members.map Prod.fst, (fields.lookup name).isSome = true)
    (hput : ∀ member ∈ members, ∀ seen,
      put (partly seen) member.1 (ofJson member.2) = .ok (partly (member.1 :: seen)))
    (hbound : sizeOf (ofMembers members) ≤ bound) :
    readMembers fields bound (fun s name x _ => put s name x) (partly seen) seen
        (ofMembers members) hbound
      = .ok (partly ((members.map Prod.fst).reverse ++ seen),
          (members.map Prod.fst).reverse ++ seen) := by
  -- The record read so far depends on the names that have been seen and on nothing else.
  induction members generalizing seen with
  | nil => rfl
  | cons member rest ih =>
      obtain ⟨name, x⟩ := member
      rw [List.map_cons, List.nodup_cons] at hdistinct
      rw [List.map_cons, List.forall_mem_cons] at hnew hknown
      rw [List.forall_mem_cons] at hput
      have hunseen : seen.contains name = false := by
        simpa using hnew.1
      simp only [ofMembers] at hbound ⊢
      simp only [readMembers, hknown.1, hunseen, if_true, Bool.false_eq_true, if_false,
        Outcome.bind_eq_ok_iff]
      refine ⟨_, hput.1 seen, ?_⟩
      rw [ih hdistinct.2 ?_ hknown.2 hput.2]
      · simp
      · intro other hother
        rw [List.mem_cons, not_or]
        exact ⟨fun heq => hdistinct.1 (heq ▸ hother), hnew.2 other hother⟩

/-- A record is read from an object with distinct known names where each member brings the record
read so far to the next one, and no required field is missing. -/
theorem record_ofJson {partly : List String → σ} (hdistinct : (members.map Prod.fst).Nodup)
    (hknown : ∀ name ∈ members.map Prod.fst, (fields.lookup name).isSome = true)
    (hput : ∀ member ∈ members, ∀ seen,
      put (partly seen) member.1 (ofJson member.2) = .ok (partly (member.1 :: seen)))
    (hrequired : ∀ field ∈ fields, field.2 = .required → field.1 ∈ members.map Prod.fst) :
    (ofJson (.obj members)).record fields (partly []) (fun s name x _ => put s name x)
      = .ok (partly (members.map Prod.fst).reverse) := by
  have hcomplete : complete fields ((members.map Prod.fst).reverse ++ []) = true := by
    unfold complete
    rw [List.all_eq_true]
    intro field hfield
    by_cases hneeded : field.2 = .required
    · simpa [hneeded] using hrequired field hfield hneeded
    · simp [hneeded]
  simp only [ofJson, record, Outcome.bind_eq_ok_iff]
  refine ⟨_, readMembers_ofMembers hdistinct (by simp) hknown hput _, (), rfl, ?_⟩
  rw [if_pos hcomplete, List.append_nil]
  rfl

/-- Only names of members are seen. -/
theorem mem_of_readMembers {bound : Nat} {put : σ → String → (x : Draft) → sizeOf x < bound →
      Except Refusal σ} {state : σ} {seen : List String} {outcome : σ × List String}
    {hbound : sizeOf (ofMembers members) ≤ bound}
    (h : readMembers fields bound put state seen (ofMembers members) hbound = .ok outcome) :
    ∀ name ∈ outcome.2, name ∈ members.map Prod.fst ∨ name ∈ seen := by
  induction members generalizing state seen with
  | nil =>
      cases h
      simp
  | cons member rest ih =>
      obtain ⟨first, x⟩ := member
      simp only [ofMembers, readMembers] at h
      intro name hname
      rw [List.map_cons, List.mem_cons]
      split at h
      · split at h
        · simp at h
        · rw [Outcome.bind_eq_ok_iff] at h
          obtain ⟨_, _, hrest⟩ := h
          have hmem := ih hrest name hname
          rw [List.mem_cons] at hmem
          tauto
      · split at h
        · simp at h
        · have hmem := ih h name hname
          tauto

/-- A record is not read from an object that lacks a required field. -/
theorem record_ne_ok_of_missing {name : String} {blank : σ}
    {put : σ → String → (x : Draft) → sizeOf x < sizeOf (ofJson (.obj members)) →
      Except Refusal σ} (hrequired : (name, .required) ∈ fields)
    (hmissing : name ∉ members.map Prod.fst) (s : σ) :
    (ofJson (.obj members)).record fields blank put ≠ .ok s := by
  intro h
  simp only [ofJson, record, Outcome.bind_eq_ok_iff] at h
  obtain ⟨outcome, hread, _, _, hcomplete⟩ := h
  split at hcomplete
  · rename_i hall
    rw [complete, List.all_eq_true] at hall
    have hseen : name ∈ outcome.2 := by simpa using hall _ hrequired
    rcases mem_of_readMembers hread name hseen with hmem | hmem
    · exact hmissing hmem
    · simp at hmem
  · simp [throw, throwThe, MonadExceptOf.throw] at hcomplete

end Records

end Paradigm.Json.Draft
