/-
Module: Paradigm.Proofs.Wire.Record
Layer: Proofs
Purpose: Readers and writers side by side. A type of values has a codec; a field of a record has
  one too, and says what stands for it when it is missing. A record is the list of its fields with
  their values: it is written as the members of those that are not left out, and it is read back
  from any object whose members give these values, in any order.
Imports: Paradigm.Document.Encoding, Paradigm.Proofs.Schema.Acceptance,
  Paradigm.Proofs.Wire.Reading
Main exports: Wire.Codec, Wire.Field, Wire.Entry, Wire.Record, Wire.Record.read_eq,
  Wire.Codec.Lossless, Wire.Record.lossless
-/
import Paradigm.Document.Encoding
import Paradigm.Proofs.Schema.Acceptance
import Paradigm.Proofs.Wire.Reading

namespace Paradigm.Wire

open Json (Draft Presence Refusal)

variable {α σ : Type}

/-! ### Codecs -/

/-- A type of values with its reader and its writer. Null is none of its values. -/
structure Codec (α : Type) where
  read : Draft → Except Refusal α
  write : α → Json
  refusesNull : ∀ a, read .null ≠ .ok a

namespace Codec

/-- Reading gives back what was written. -/
def Lossless (c : Codec α) (a : α) : Prop := c.read (.ofJson (c.write a)) = .ok a

/-- Texts. -/
def text : Codec String := ⟨Draft.asString, .str, by simp [Draft.asString]⟩

/-- Truth values. -/
def flag : Codec Bool := ⟨Draft.asBool, .bool, by simp [Draft.asBool]⟩

/-- Natural numbers. -/
def natural : Codec Nat := ⟨Draft.asNat, .nat, by simp [Draft.asNat]⟩

/-- Integers of 32 bits. -/
def word : Codec UInt32 :=
  ⟨Draft.asUInt32, fun n => .nat n.toNat, by simp [Draft.asUInt32, Draft.asNat, bind, Except.bind]⟩

/-- Lists of values. -/
def list (c : Codec α) : Codec (List α) :=
  ⟨Draft.asList c.read, fun xs => .arr (xs.map c.write), by simp [Draft.asList, Draft.list]⟩

@[simp] theorem list_read (c : Codec α) : c.list.read = Draft.asList c.read := rfl

@[simp] theorem list_write (c : Codec α) : c.list.write = fun xs => .arr (xs.map c.write) := rfl

/-- Maps to values. -/
def map (c : Codec α) : Codec (Assoc α) :=
  ⟨Draft.assoc c.read, Assoc.toJson c.write, by simp [Draft.assoc]⟩

theorem text_lossless (s : String) : text.Lossless s := rfl

theorem flag_lossless (b : Bool) : flag.Lossless b := rfl

theorem natural_lossless (n : Nat) : natural.Lossless n := by
  show (if (0 : Int) ≤ (n : Int) then Except.ok (n : Int).toNat else .error .misshapen) = .ok n
  rw [if_pos (Int.natCast_nonneg n)]
  rfl

theorem word_lossless (n : UInt32) : word.Lossless n := by
  have hread : Draft.asNat (.ofJson (.nat n.toNat)) = .ok n.toNat := natural_lossless n.toNat
  have hbound : n.toNat < UInt32.size := n.toNat_lt
  simp only [Lossless, word, Draft.asUInt32, Outcome.bind_eq_ok_iff]
  refine ⟨n.toNat, hread, ?_⟩
  rw [if_pos hbound, Outcome.pure_eq_ok_iff]
  simp

theorem list_lossless {c : Codec α} {xs : List α} (h : ∀ a ∈ xs, c.Lossless a) :
    c.list.Lossless xs := by
  apply Draft.asList_ofJson
  rw [List.forall₂_map_left_iff, List.forall₂_same]
  exact h

theorem map_lossless {c : Codec α} {m : Assoc α} (h : ∀ entry ∈ m.entries, c.Lossless entry.2) :
    c.map.Lossless m := by
  apply Draft.assoc_ofJson
  rw [List.forall₂_map_left_iff, List.forall₂_same]
  intro entry hentry
  exact ⟨rfl, h entry hentry⟩

end Codec

/-! ### Fields -/

/-- A field of a record: how it is read, what it is where it is missing if it may be, and what is
written for it, if anything is. -/
structure Field (α : Type) where
  name : String
  read : Draft → Except Refusal α
  missing : Option α
  write : α → Option Json

/-- Whether what stands in the place of a field is read as a value. -/
def Field.Gives (f : Field α) (a : α) : Option Json → Prop
  | none => f.missing = some a
  | some x => f.read (.ofJson x) = .ok a

namespace Codec

/-- A field that is always there. -/
def field (c : Codec α) (name : String) : Field α :=
  { name := name, read := c.read, missing := none, write := fun a => some (c.write a) }

/-- A field that may be unset. It is missing or null then, and is left out. -/
def optional (c : Codec α) (name : String) : Field (Option α) :=
  { name := name
    read := fun d => d.asOption c.read
    missing := some none
    write := fun value => value.map c.write }

/-- A field that has a default, with which it is left out. -/
def defaulted (c : Codec α) (name : String) (default : α) (isDefault : α → Bool) : Field α :=
  { name := name
    read := c.read
    missing := some default
    write := fun a => if isDefault a then none else some (c.write a) }

variable {c : Codec α} {name : String}

theorem gives_field {a : α} (h : c.Lossless a) :
    (c.field name).Gives a ((c.field name).write a) := h

theorem gives_optional {value : Option α} (h : ∀ a, value = some a → c.Lossless a) :
    (c.optional name).Gives value ((c.optional name).write value) := by
  cases value with
  | none => rfl
  | some a => exact Draft.asOption_ofJson c.refusesNull (h a rfl)

theorem gives_defaulted {default a : α} {isDefault : α → Bool} (h : c.Lossless a)
    (hdefault : isDefault a = true → a = default) :
    (c.defaulted name default isDefault).Gives a
      ((c.defaulted name default isDefault).write a) := by
  cases hkind : isDefault a with
  | true =>
      simp only [defaulted, hkind, if_true, Field.Gives]
      rw [hdefault hkind]
  | false =>
      simp only [defaulted, hkind]
      exact h

end Codec

/-! ### Fields with values -/

/-- A field together with its value in some record. -/
structure Entry : Type 1 where
  {type : Type}
  field : Field type
  value : type

namespace Entry

/-- The name of the field. -/
def name (e : Entry) : String := e.field.name

/-- Whether what stands in the place of the field is read as its value. -/
def Gives (e : Entry) (place : Option Json) : Prop := e.field.Gives e.value place

/-- What is written for the value, if anything is. -/
def written (e : Entry) : Option Json := e.field.write e.value

/-- Reading gives back what was written. -/
def Lossless (e : Entry) : Prop := e.Gives e.written

/-- The member that is written, if any is. -/
def members (e : Entry) : Members := e.written.toList.map fun x => (e.name, x)

/-- The members that are written for several fields, in order. -/
def allMembers (entries : List Entry) : Members := entries.flatMap members

@[simp] theorem allMembers_nil : allMembers [] = [] := rfl

@[simp] theorem allMembers_cons (e : Entry) (rest : List Entry) :
    allMembers (e :: rest) = e.members ++ allMembers rest := List.flatMap_cons

@[simp] theorem members_field (c : Codec α) (name : String) (a : α) :
    members ⟨c.field name, a⟩ = Members.one name (c.write a) := rfl

@[simp] theorem members_optional (c : Codec α) (name : String) (value : Option α) :
    members ⟨c.optional name, value⟩ = Members.some? name c.write value := by
  cases value <;> rfl

@[simp] theorem members_list (c : Codec α) (name : String) (xs : List α) :
    members ⟨c.list.defaulted name [] List.isEmpty, xs⟩ = Members.list? name c.write xs := by
  cases xs <;> rfl

@[simp] theorem members_map (c : Codec (Assoc α)) (name : String) (m : Assoc α) :
    members ⟨c.defaulted name .empty Assoc.isEmpty, m⟩ = Members.assoc? name c.write m := by
  simp only [members, written, Codec.defaulted, Members.assoc?]
  cases m.isEmpty <;> rfl

theorem names_members (e : Entry) : (e.members.map Prod.fst).Sublist [e.name] := by
  unfold members
  cases e.written with
  | none => exact List.nil_sublist _
  | some x => exact .refl _

theorem names_allMembers (entries : List Entry) :
    ((allMembers entries).map Prod.fst).Sublist (entries.map name) := by
  induction entries with
  | nil => exact .refl _
  | cons e rest ih =>
      rw [allMembers_cons, List.map_append]
      exact e.names_members.append ih

theorem lookup_members_self (e : Entry) : e.members.lookup e.name = e.written := by
  unfold members
  cases e.written <;> simp

/-- Under the name of a field stands what was written for it. -/
theorem lookup_allMembers {entries : List Entry} (hdistinct : (entries.map name).Nodup) {e : Entry}
    (h : e ∈ entries) : (allMembers entries).lookup e.name = e.written := by
  induction entries with
  | nil => simp at h
  | cons first rest ih =>
      rw [List.map_cons, List.nodup_cons] at hdistinct
      rw [allMembers_cons, List.lookup_append]
      rcases List.mem_cons.mp h with rfl | hrest
      · have hlater : (allMembers rest).lookup e.name = none := by
          apply Json.lookup_eq_none_of_not_mem
          intro hname
          exact hdistinct.1 ((names_allMembers rest).subset hname)
        rw [lookup_members_self, hlater, Option.or_none]
      · have hearlier : first.members.lookup e.name = none := by
          apply Json.lookup_eq_none_of_not_mem
          intro hname
          have heq := List.mem_singleton.mp ((names_members first).subset hname)
          exact hdistinct.1 (heq ▸ List.mem_map_of_mem hrest)
        rw [hearlier, Option.none_or, ih hdistinct.2 hrest]

end Entry

/-! ### Records -/

/-- A value where its name has been seen, and what stands for it before. -/
def whenSeen (seen : List String) (name : String) (a blank : α) : α :=
  if name ∈ seen then a else blank

@[simp] theorem whenSeen_nil {name : String} {a blank : α} : whenSeen [] name a blank = blank :=
  if_neg List.not_mem_nil

@[simp] theorem whenSeen_cons_self {seen : List String} {name : String} {a blank : α} :
    whenSeen (name :: seen) name a blank = a :=
  if_pos List.mem_cons_self

@[simp] theorem whenSeen_cons_of_ne {seen : List String} {name other : String} {a blank : α}
    (h : name ≠ other) : whenSeen (other :: seen) name a blank = whenSeen seen name a blank := by
  simp [whenSeen, h]

theorem whenSeen_eq {seen : List String} {name : String} {a blank : α}
    (h : name ∈ seen ∨ blank = a) : whenSeen seen name a blank = a := by
  rcases h with hseen | rfl
  · exact if_pos hseen
  · exact ite_self _

/-- A record type: its fields, its reader as it puts them in one by one, and the record that has
been read when some names have been seen. -/
structure Record (σ : Type) where
  fields : List (String × Presence)
  put : σ → String → Draft → Except Refusal σ
  entries : σ → List Entry
  partly : σ → List String → σ
  blank : σ
  names : ∀ s, (entries s).map Entry.name = fields.map Prod.fst
  distinct : (fields.map Prod.fst).Nodup
  needed : ∀ s, ∀ e ∈ entries s, (e.name, .required) ∈ fields → e.field.missing = none
  partly_nil : ∀ s, partly s [] = blank
  put_partly : ∀ s, ∀ e ∈ entries s, ∀ d, e.field.read d = .ok e.value → ∀ seen,
    put (partly s seen) e.name d = .ok (partly s (e.name :: seen))
  partly_eq : ∀ s seen, (∀ e ∈ entries s, e.name ∈ seen ∨ e.field.missing = some e.value) →
    partly s seen = s

namespace Record

variable (r : Record σ)

/-- Reads a record from a draft. -/
def read (d : Draft) : Except Refusal σ :=
  d.record r.fields r.blank fun s name x _ => r.put s name x

/-- Writes the fields of a record in order. -/
def write (s : σ) : Json := .obj (Entry.allMembers (r.entries s))

theorem read_null (s : σ) : r.read .null ≠ .ok s := by
  simp [read, Draft.record]

variable {r}

theorem exists_entry {name : String} (s : σ) (h : name ∈ r.fields.map Prod.fst) :
    ∃ e ∈ r.entries s, e.name = name := by
  rw [← r.names s] at h
  obtain ⟨e, he, hname⟩ := List.mem_map.mp h
  exact ⟨e, he, hname⟩

section Given

variable {members : Members} {s : σ}

/-- One step of reading: a member puts in the value of its field. -/
theorem put_given (hdistinct : (members.map Prod.fst).Nodup)
    (hknown : ∀ name ∈ members.map Prod.fst, name ∈ r.fields.map Prod.fst)
    (h : ∀ e ∈ r.entries s, e.Gives (members.lookup e.name)) {member : String × Json}
    (hmember : member ∈ members) (seen : List String) :
    r.put (r.partly s seen) member.1 (.ofJson member.2) = .ok (r.partly s (member.1 :: seen)) := by
  obtain ⟨e, he, hname⟩ := exists_entry s (hknown _ (List.mem_map_of_mem hmember))
  have hgives := h e he
  rw [hname, (Json.lookup_eq_some_iff_mem hdistinct).mpr hmember] at hgives
  rw [← hname]
  exact r.put_partly s e he _ hgives seen

/-- An object that gives all fields has the members that are required. -/
theorem mem_of_required (h : ∀ e ∈ r.entries s, e.Gives (members.lookup e.name))
    {field : String × Presence} (hfield : field ∈ r.fields) (hneeded : field.2 = .required) :
    field.1 ∈ members.map Prod.fst := by
  obtain ⟨name, presence⟩ := field
  subst hneeded
  obtain ⟨e, he, rfl⟩ := exists_entry s (List.mem_map_of_mem hfield)
  by_contra hmissing
  have hgives := h e he
  rw [Json.lookup_eq_none_of_not_mem hmissing] at hgives
  simp [Entry.Gives, Field.Gives, r.needed s e he hfield] at hgives

/-- A record is read from every object with distinct known names that gives its fields. -/
theorem read_eq (hdistinct : (members.map Prod.fst).Nodup)
    (hknown : ∀ name ∈ members.map Prod.fst, name ∈ r.fields.map Prod.fst)
    (h : ∀ e ∈ r.entries s, e.Gives (members.lookup e.name)) :
    r.read (.ofJson (.obj members)) = .ok s := by
  have hread := Draft.record_ofJson hdistinct
    (fun name hname => Json.isSome_lookup_iff.mpr (hknown name hname))
    (fun _ hmember => put_given hdistinct hknown h hmember)
    (fun _ hfield => mem_of_required h hfield)
  rw [r.partly_nil] at hread
  unfold read
  rw [hread, r.partly_eq]
  intro e he
  have hgives := h e he
  by_cases hmem : e.name ∈ members.map Prod.fst
  · exact .inl (List.mem_reverse.mpr hmem)
  · rw [Json.lookup_eq_none_of_not_mem hmem] at hgives
    exact .inr hgives

end Given

/-- A record is read back from what is written for it where each of its fields is. -/
theorem read_write {s : σ} (h : ∀ e ∈ r.entries s, e.Lossless) :
    r.read (.ofJson (r.write s)) = .ok s := by
  have hnames := Entry.names_allMembers (r.entries s)
  have hdistinct : ((r.entries s).map Entry.name).Nodup := by
    rw [r.names]
    exact r.distinct
  apply read_eq (hnames.nodup hdistinct)
  · intro name hname
    rw [← r.names s]
    exact hnames.subset hname
  · intro e he
    rw [Entry.lookup_allMembers hdistinct he]
    exact h e he

/-- A codec is lossless where it is that of a record whose fields are. -/
theorem lossless {c : Codec σ} {s : σ} (hread : ∀ d, r.read d = c.read d)
    (hwrite : r.write s = c.write s) (h : ∀ e ∈ r.entries s, e.Lossless) : c.Lossless s := by
  unfold Codec.Lossless
  rw [← hread, ← hwrite]
  exact read_write h

end Record

end Paradigm.Wire
