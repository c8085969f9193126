/-
Module: Paradigm.Proofs.Wire.Keeping
Layer: Proofs
Purpose: When a value comes through reading and writing: it is read, what is written again is the
  value up to the order of members and apart from void ones, and the schema accepts what is written.
  Lists, maps and records come through where their elements, values and fields do.
Imports: Paradigm.Proofs.Wire.Pruning, Paradigm.Proofs.Wire.Record
Main exports: Wire.Codec.Keeps, Wire.Codec.exists_list, Wire.Codec.exists_map, Wire.Entry.Keeps,
  Wire.Fitting, Wire.Record.keeps, Wire.Record.keeps_closedObject
-/
import Paradigm.Proofs.Wire.Pruning
import Paradigm.Proofs.Wire.Record

namespace Paradigm.Wire

open Json (Draft isVoid kept)
open Schema (MemberFits MembersFit)

variable {α σ : Type}

/-! ### Values -/

/-- A value is read as given, and is written again up to the order of members and without the void
ones, so that a schema accepts it. -/
structure Codec.Keeps (c : Codec α) (schema : Schema) (x : Json) (a : α) : Prop where
  read : c.read (.ofJson x) = .ok a
  written : (c.write a).sorted = x.pruned.sorted
  accepted : schema.Accepts (c.write a)

namespace Codec

variable {c : Codec α} {schema : Schema}

/-- What is written is kept where it is read back and has no void members. -/
theorem keeps_write {a : α} (hlossless : c.Lossless a) (hpruned : (c.write a).pruned = c.write a)
    (h : schema.Accepts (c.write a)) : c.Keeps schema (c.write a) a := by
  refine ⟨hlossless, ?_, h⟩
  rw [hpruned]

theorem exists_text {x : Json} (hkind : Schema.Kind.string.holds x = true)
    (h : schema.Accepts x) : ∃ s, text.Keeps schema x s := by
  cases x with
  | str s => exact ⟨s, keeps_write (text_lossless s) rfl h⟩
  | _ => simp [Schema.Kind.holds] at hkind

theorem exists_flag {x : Json} (hkind : Schema.Kind.boolean.holds x = true)
    (h : schema.Accepts x) : ∃ b, flag.Keeps schema x b := by
  cases x with
  | bool b => exact ⟨b, keeps_write (flag_lossless b) rfl h⟩
  | _ => simp [Schema.Kind.holds] at hkind

theorem exists_natural {i : Int} (hpos : 0 ≤ i) (h : schema.Accepts (.num (.int i))) :
    ∃ n, natural.Keeps schema (.num (.int i)) n := by
  obtain ⟨n, rfl⟩ := Int.eq_ofNat_of_zero_le hpos
  exact ⟨n, keeps_write (natural_lossless n) rfl h⟩

theorem exists_word {i : Int} (hpos : 0 ≤ i) (hsize : i.toNat < UInt32.size)
    (h : schema.Accepts (.num (.int i))) : ∃ n, word.Keeps schema (.num (.int i)) n := by
  obtain ⟨n, rfl⟩ := Int.eq_ofNat_of_zero_le hpos
  rw [Int.toNat_natCast] at hsize
  have hwritten : word.write (UInt32.ofNat n) = .num (.int n) :=
    congrArg Json.nat (UInt32.toNat_ofNat_of_lt' hsize)
  refine ⟨UInt32.ofNat n, ?_⟩
  show word.Keeps schema (.num (.int n)) (UInt32.ofNat n)
  rw [← hwritten]
  exact keeps_write (word_lossless _) rfl (hwritten ▸ h)

/-! ### Lists and maps -/

theorem exists_pairs {β γ : Type} {R : β → γ → Prop} {xs : List β} (h : ∀ x ∈ xs, ∃ y, R x y) :
    ∃ pairs : List (β × γ), pairs.map Prod.fst = xs ∧ ∀ pair ∈ pairs, R pair.1 pair.2 := by
  induction xs with
  | nil => exact ⟨[], rfl, by simp⟩
  | cons x rest ih =>
      rw [List.forall_mem_cons] at h
      obtain ⟨y, hy⟩ := h.1
      obtain ⟨pairs, rfl, hpairs⟩ := ih h.2
      refine ⟨(x, y) :: pairs, rfl, ?_⟩
      rw [List.forall_mem_cons]
      exact ⟨hy, hpairs⟩

/-- A list is kept where its elements are and the schema accepts lists of accepted elements. -/
theorem exists_list {each : Schema} {items : List Json} (h : ∀ x ∈ items, ∃ a, c.Keeps each x a)
    (haccepts : ∀ ys : List Json, ys.length = items.length → (∀ y ∈ ys, each.Accepts y) →
      schema.Accepts (.arr ys)) :
    ∃ xs, c.list.Keeps schema (.arr items) xs ∧ xs.isEmpty = items.isEmpty := by
  obtain ⟨pairs, rfl, hpairs⟩ := exists_pairs h
  refine ⟨pairs.map Prod.snd, ⟨?_, ?_, ?_⟩, by simp⟩
  · apply Draft.asList_ofJson
    rw [List.forall₂_map_left_iff, List.forall₂_map_right_iff, List.forall₂_same]
    intro pair hpair
    exact (hpairs pair hpair).read
  · simp only [list_write, Json.sorted, Json.pruned, Json.prunedItems_eq, Json.sortedItems_eq,
      List.map_map, Json.arr.injEq, List.map_inj_left]
    intro pair hpair
    exact (hpairs pair hpair).written
  · apply haccepts
    · simp
    · simp only [List.forall_mem_map]
      intro pair hpair
      exact (hpairs pair hpair).accepted

theorem sortedMembers_map_congr {β : Type} {name : β → String} {f g : β → Json} {xs : List β}
    (h : ∀ x ∈ xs, (f x).sorted = (g x).sorted) :
    Json.sortedMembers (xs.map fun x => (name x, f x))
      = Json.sortedMembers (xs.map fun x => (name x, g x)) := by
  induction xs with
  | nil => rfl
  | cons x rest ih =>
      rw [List.forall_mem_cons] at h
      simp only [List.map_cons, Json.sortedMembers, h.1, ih h.2]

/-- A map is kept where its values are, none of them void, and the schema accepts maps to accepted
values. -/
theorem exists_map {each : Schema} {members : Members} (hdistinct : (members.map Prod.fst).Nodup)
    (h : ∀ member ∈ members, isVoid member.1 member.2 = false ∧ ∃ a, c.Keeps each member.2 a)
    (haccepts : ∀ m : Assoc α, (∀ entry ∈ m.entries, each.Accepts (c.write entry.2)) →
      schema.Accepts (c.map.write m)) :
    ∃ m, c.map.Keeps schema (.obj members) m ∧ m.isEmpty = members.isEmpty := by
  have hvalues : ∀ member ∈ members, ∃ a, c.Keeps each member.2 a := fun member hmember =>
    (h member hmember).2
  have hpruned := Json.prunedMembers_of_not_void fun member hmember => (h member hmember).1
  obtain ⟨pairs, rfl, hpairs⟩ := exists_pairs hvalues
  have hnames : (pairs.map fun pair => (pair.1.1, pair.2)).map Prod.fst
      = (pairs.map Prod.fst).map Prod.fst := by simp
  let m : Assoc α := ⟨pairs.map fun pair => (pair.1.1, pair.2), hnames ▸ hdistinct⟩
  have hempty : m.isEmpty = (pairs.map Prod.fst).isEmpty := by simp [m, Assoc.isEmpty]
  refine ⟨m, ⟨?_, ?_, haccepts m ?_⟩, hempty⟩
  · apply Draft.assoc_ofJson
    rw [List.forall₂_map_left_iff, List.forall₂_map_right_iff, List.forall₂_same]
    intro pair hpair
    exact ⟨rfl, (hpairs pair hpair).read⟩
  · rw [Json.pruned, hpruned]
    simp only [map, Assoc.toJson, Json.sorted, m, List.map_map, Json.obj.injEq]
    apply sortedMembers_map_congr
    intro pair hpair
    exact (hpairs pair hpair).written
  · simp only [m, List.forall_mem_map]
    intro pair hpair
    exact (hpairs pair hpair).accepted

end Codec

/-! ### Fields -/

/-- A field is kept in an object: what stands in its place is read as its value, and what is written
is what is left of it, accepted under its name. -/
structure Entry.Keeps (void : String → Json → Bool) (known : List (String × Schema))
    (members : Members) (e : Entry) : Prop where
  gives : e.Gives (members.lookup e.name)
  written : e.written.map Json.sorted = (kept void e.name (members.lookup e.name)).map Json.sorted
  accepted : ∀ y, e.written = some y → MemberFits known e.name y

namespace Entry

variable {void : String → Json → Bool} {known : List (String × Schema)} {members : Members}
  {e : Entry}

/-- A field is kept where what stands in its place is read and written again. -/
theorem keeps_of_written {x y : Json} (hplace : members.lookup e.name = some x)
    (hread : e.field.read (.ofJson x) = .ok e.value) (hwritten : e.written = some y)
    (hsame : y.sorted = x.pruned.sorted) (hvoid : void e.name x = false)
    (hfits : MemberFits known e.name y) : e.Keeps void known members := by
  refine ⟨hplace ▸ hread, ?_, ?_⟩
  · rw [hwritten, hplace, Json.kept_of_not_void hvoid, Option.map_some, Option.map_some, hsame]
  · intro z hz
    rw [hwritten, Option.some.injEq] at hz
    exact hz ▸ hfits

/-- A field is kept where nothing is left of what stands in its place and nothing is written. -/
theorem keeps_of_left_out (hplace : kept void e.name (members.lookup e.name) = none)
    (hgives : e.Gives (members.lookup e.name)) (hwritten : e.written = none) :
    e.Keeps void known members := by
  refine ⟨hgives, ?_, ?_⟩
  · rw [hwritten, hplace]
  · simp [hwritten]

end Entry

/-- An object with distinct known names, each accepted under its name. -/
structure Fitting (known : List (String × Schema)) (members : Members) : Prop where
  distinct : (members.map Prod.fst).Nodup
  fits : MembersFit known members

namespace Fitting

variable {known : List (String × Schema)} {members : Members} {schema : Schema}
  {void : String → Json → Bool}

theorem of_closedObject {required : List String} (hx : (Json.obj members).WellFormed)
    (h : (Schema.closedObject required known).Accepts (.obj members)) :
    Fitting known members ∧ ∀ name ∈ required, name ∈ members.map Prod.fst := by
  obtain ⟨hfits, hthere⟩ := (Schema.accepts_closedObject_iff hx.isRecord).mp h
  exact ⟨⟨hx.isRecord.distinct, hfits⟩, hthere⟩

theorem accepts_of_mem (h : Fitting known members) {name : String} {x : Json}
    (hknown : known.lookup name = some schema) (hx : (name, x) ∈ members) : schema.Accepts x := by
  obtain ⟨found, hfound, haccepts⟩ := h.fits _ hx
  rw [hknown, Option.some.injEq] at hfound
  exact hfound ▸ haccepts

theorem mem_known (h : Fitting known members) {name : String}
    (hname : name ∈ members.map Prod.fst) : name ∈ known.map Prod.fst := by
  obtain ⟨member, hmember, rfl⟩ := List.mem_map.mp hname
  obtain ⟨schema, hschema, _⟩ := h.fits member hmember
  obtain ⟨before, after, rfl, _⟩ := List.lookup_eq_some_iff.mp hschema
  simp

/-- A field that is always there is kept where its value is. -/
theorem exists_field (h : Fitting known members) (c : Codec α) (name : String)
    (hknown : known.lookup name = some schema) (hthere : name ∈ members.map Prod.fst)
    (hvoid : ∀ x, void name x = false)
    (hvalue : ∀ x, (name, x) ∈ members → schema.Accepts x → ∃ a, c.Keeps schema x a) :
    ∃ a, Entry.Keeps void known members ⟨c.field name, a⟩ := by
  obtain ⟨⟨_, x⟩, hx, rfl⟩ := List.mem_map.mp hthere
  obtain ⟨a, ha⟩ := hvalue x hx (h.accepts_of_mem hknown hx)
  have hplace := (Json.lookup_eq_some_iff_mem h.distinct).mpr hx
  refine ⟨a, ?_⟩
  exact Entry.keeps_of_written hplace ha.read rfl ha.written (hvoid x) ⟨schema, hknown, ha.accepted⟩

/-- A field that may be unset is kept where its value is. -/
theorem exists_optional (h : Fitting known members) (c : Codec α) (name : String)
    (hknown : known.lookup name = some schema) (hvoid : name ∉ Json.voidLists ++ Json.voidMaps)
    (hvalue : ∀ x, (name, x) ∈ members → schema.Accepts x → ∃ a, c.Keeps schema x a) :
    ∃ value, Entry.Keeps isVoid known members ⟨c.optional name, value⟩ := by
  cases hplace : members.lookup name with
  | none =>
      refine ⟨none, Entry.keeps_of_left_out ?_ ?_ rfl⟩
      · exact congrArg (kept isVoid name) hplace
      · exact hplace ▸ rfl
  | some x =>
      have hx := (Json.lookup_eq_some_iff_mem h.distinct).mp hplace
      obtain ⟨a, ha⟩ := hvalue x hx (h.accepts_of_mem hknown hx)
      have hread := Draft.asOption_ofJson c.refusesNull ha.read
      refine ⟨some a, ?_⟩
      exact Entry.keeps_of_written hplace hread rfl ha.written (Json.isVoid_of_not_mem hvoid x)
        ⟨schema, hknown, ha.accepted⟩

/-- A field with a default is kept where its value is, and is left out exactly where it is void. -/
theorem exists_defaulted (h : Fitting known members) (c : Codec α) (name : String) (default : α)
    (isDefault : α → Bool) (hknown : known.lookup name = some schema)
    (hdefault : isDefault default = true)
    (hvalue : ∀ x, (name, x) ∈ members → schema.Accepts x →
      ∃ a, c.Keeps schema x a ∧ isDefault a = isVoid name x) :
    ∃ a, Entry.Keeps isVoid known members ⟨c.defaulted name default isDefault, a⟩ := by
  cases hplace : members.lookup name with
  | none =>
      refine ⟨default, Entry.keeps_of_left_out ?_ ?_ (if_pos hdefault)⟩
      · exact congrArg (kept isVoid name) hplace
      · exact hplace ▸ rfl
  | some x =>
      have hx := (Json.lookup_eq_some_iff_mem h.distinct).mp hplace
      obtain ⟨a, ha, hkind⟩ := hvalue x hx (h.accepts_of_mem hknown hx)
      refine ⟨a, ?_⟩
      cases hvoid : isVoid name x with
      | true =>
          apply Entry.keeps_of_left_out
          · exact (congrArg (kept isVoid name) hplace).trans (Json.kept_of_void hvoid)
          · exact hplace ▸ ha.read
          · exact if_pos (hkind.trans hvoid)
      | false =>
          have hwritten : isDefault a ≠ true := by simp [hkind, hvoid]
          exact Entry.keeps_of_written hplace ha.read (if_neg hwritten) ha.written hvoid
            ⟨schema, hknown, ha.accepted⟩

end Fitting

/-! ### Records -/

namespace Record

variable {r : Record σ} {void : String → Json → Bool} {known : List (String × Schema)}
  {members : Members} {s : σ}

/-- What is written for a record is what is left of the object under each name. -/
theorem lookup_written (hnames : ∀ name ∈ members.map Prod.fst, name ∈ r.fields.map Prod.fst)
    (h : ∀ e ∈ r.entries s, e.Keeps void known members) (name : String) :
    ((r.write s).members.lookup name).map Json.sorted
      = (kept void name (members.lookup name)).map Json.sorted := by
  show ((Entry.allMembers (r.entries s)).lookup name).map Json.sorted = _
  have hdistinct : ((r.entries s).map Entry.name).Nodup := by
    rw [r.names]
    exact r.distinct
  -- A name that is of no field is neither given nor written.
  by_cases hfield : name ∈ r.fields.map Prod.fst
  · obtain ⟨e, he, rfl⟩ := exists_entry s hfield
    rw [Entry.lookup_allMembers hdistinct he]
    exact (h e he).written
  · have hwritten : name ∉ (Entry.allMembers (r.entries s)).map Prod.fst := by
      intro hname
      rw [← r.names s] at hfield
      exact hfield ((Entry.names_allMembers _).subset hname)
    rw [Json.lookup_eq_none_of_not_mem hwritten,
      Json.lookup_eq_none_of_not_mem fun hname => hfield (hnames name hname)]
    rfl

theorem membersFit_written (h : ∀ e ∈ r.entries s, e.Keeps void known members) :
    MembersFit known (r.write s).members := by
  intro member hmember
  obtain ⟨e, he, hmem⟩ := List.mem_flatMap.mp hmember
  obtain ⟨y, hy, rfl⟩ := List.mem_map.mp hmem
  exact (h e he).accepted y (Option.mem_toList.mp hy)

theorem isRecord_write (s : σ) : (r.write s).IsRecord := by
  refine ⟨rfl, (Entry.names_allMembers (r.entries s)).nodup ?_⟩
  rw [r.names]
  exact r.distinct

/-- A name that is never void is written exactly where it was given. -/
theorem mem_names_written_iff
    (hnames : ∀ name ∈ members.map Prod.fst, name ∈ r.fields.map Prod.fst)
    (h : ∀ e ∈ r.entries s, e.Keeps void known members) {name : String}
    (hvoid : ∀ x, void name x = false) :
    name ∈ (r.write s).names ↔ name ∈ members.map Prod.fst := by
  have hlookup := congrArg Option.isSome (lookup_written hnames h name)
  rw [Option.isSome_map, Option.isSome_map] at hlookup
  rw [Json.names, ← Json.isSome_lookup_iff, hlookup, ← Json.isSome_lookup_iff]
  cases members.lookup name with
  | none => rfl
  | some x => simp [Json.kept_of_not_void (hvoid x)]

/-- What is written for a record is what is left of the object, up to the order of members. -/
theorem sorted_written {left : Members} (hleft : (left.map Prod.fst).Nodup)
    (hlookup : ∀ name, left.lookup name = kept void name (members.lookup name))
    (hnames : ∀ name ∈ members.map Prod.fst, name ∈ r.fields.map Prod.fst)
    (h : ∀ e ∈ r.entries s, e.Keeps void known members) :
    (r.write s).sorted = (Json.obj left).sorted := by
  apply Json.sorted_obj_congr (isRecord_write s).distinct hleft
  intro name
  rw [hlookup]
  exact lookup_written hnames h name

/-- A record is kept in an object that gives its fields, where the schema accepts every object of
accepted members that has the same names, apart from void ones. -/
theorem keeps {c : Codec σ} {schema : Schema} (hread : ∀ d, r.read d = c.read d)
    (hwrite : r.write s = c.write s) (hfit : Fitting known members)
    (hfields : ∀ name ∈ known.map Prod.fst, name ∈ r.fields.map Prod.fst)
    (h : ∀ e ∈ r.entries s, e.Keeps isVoid known members)
    (haccepts : ∀ w : Json, w.IsRecord → MembersFit known w.members →
      (∀ name, name ∉ Json.voidLists ++ Json.voidMaps →
        (name ∈ w.names ↔ name ∈ (Json.obj members).names)) → schema.Accepts w) :
    c.Keeps schema (.obj members) s := by
  have hnames : ∀ name ∈ members.map Prod.fst, name ∈ r.fields.map Prod.fst := by
    intro name hname
    exact hfields name (hfit.mem_known hname)
  constructor
  · rw [← hread]
    exact read_eq hfit.distinct hnames fun e he => (h e he).gives
  · rw [← hwrite]
    have hdistinct := (Json.names_prunedMembers members).nodup hfit.distinct
    exact sorted_written hdistinct (Json.lookup_prunedMembers hfit.distinct) hnames h
  · rw [← hwrite]
    apply haccepts _ (isRecord_write s) (membersFit_written h)
    intro name hvoid
    exact mem_names_written_iff hnames h (Json.isVoid_of_not_mem hvoid)

/-- A record is kept in an object that a schema of known members accepts. -/
theorem keeps_closedObject {c : Codec σ} {required : List String} (hread : ∀ d, r.read d = c.read d)
    (hwrite : r.write s = c.write s) (hx : (Json.obj members).WellFormed)
    (haccepts : (Schema.closedObject required known).Accepts (.obj members))
    (hfields : ∀ name ∈ known.map Prod.fst, name ∈ r.fields.map Prod.fst)
    (hrequired : ∀ name ∈ required, name ∉ Json.voidLists ++ Json.voidMaps)
    (h : ∀ e ∈ r.entries s, e.Keeps isVoid known members) :
    c.Keeps (Schema.closedObject required known) (.obj members) s := by
  obtain ⟨hfit, hgiven⟩ := Fitting.of_closedObject hx haccepts
  apply keeps hread hwrite hfit hfields h
  intro w hw hwritten hnames
  rw [Schema.accepts_closedObject_iff hw]
  refine ⟨hwritten, ?_⟩
  intro name hname
  exact (hnames name (hrequired name hname)).mpr (hgiven name hname)

end Record

end Paradigm.Wire
