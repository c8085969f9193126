/-
Module: Paradigm.Proofs.Wire.Values
Layer: Proofs
Purpose: The values of a document as they are read and written: samples, texts, resources, guards,
  keys, banks and criteria. What is written for one shape of a value is never taken for a shape
  that is tried earlier, so all of them are read back as they were.
Imports: Paradigm.Document.Reading, Paradigm.Proofs.Wire.Record
Main exports: Document.Sample.record, Document.Resource.record, Document.Guard.record,
  Document.Text.lossless, Document.PageText.lossless, Document.ResourceEntry.lossless,
  Criterion.lossless, banks_lossless
-/
import Paradigm.Document.Reading
import Paradigm.Proofs.Wire.Record

namespace Paradigm

open Wire
open Json (Draft)

namespace Document

/-! ### Samples -/

/-- The fields of a sample. -/
def Sample.record : Record Sample where
  fields := Sample.fields
  put := Sample.put
  entries s :=
    [⟨Codec.text.field "sampleFrom", s.bank⟩, ⟨Codec.natural.optional "variable", s.slot⟩,
      ⟨Codec.natural.optional "notVariable", s.avoids⟩, ⟨Codec.text.optional "field", s.field⟩,
      ⟨Codec.flag.defaulted "withReplacement" false (!·), s.replacing⟩]
  partly s seen :=
    { bank := whenSeen seen "sampleFrom" s.bank ""
      slot := whenSeen seen "variable" s.slot none
      avoids := whenSeen seen "notVariable" s.avoids none
      field := whenSeen seen "field" s.field none
      replacing := whenSeen seen "withReplacement" s.replacing false }
  blank := { bank := "" }
  names _ := rfl
  distinct := by decide
  needed s := by
    simp [Entry.name, Codec.field, Codec.optional, Codec.defaulted, Sample.fields]
  partly_nil _ := by simp
  put_partly s := by
    simp only [List.forall_mem_cons, Entry.name, Codec.field, Codec.optional, Codec.defaulted,
      Codec.text, Codec.natural, Codec.flag]
    refine ⟨?_, ?_, ?_, ?_, ?_, by simp⟩
    all_goals
      intro d hread seen
      simp [Sample.put, hread, bind, Except.bind, pure, Except.pure]
  partly_eq s seen h := by
    simp only [List.forall_mem_cons, Entry.name, Codec.field, Codec.optional, Codec.defaulted,
      Option.some.injEq, reduceCtorEq, or_false] at h
    obtain ⟨hbank, hslot, havoids, hfield, hreplacing, -⟩ := h
    simp only [whenSeen_eq (.inl hbank), whenSeen_eq hslot, whenSeen_eq havoids,
      whenSeen_eq hfield, whenSeen_eq hreplacing]

theorem Sample.write_record (s : Sample) : Sample.record.write s = s.toJson := by
  have hreplacing : Entry.members ⟨Codec.flag.defaulted "withReplacement" false (!·), s.replacing⟩
      = if s.replacing then [("withReplacement", .bool true)] else [] := by
    cases s.replacing <;> rfl
  simp [Record.write, Sample.record, Sample.toJson, hreplacing, Codec.text, Codec.natural]

/-- Samples. -/
def Sample.codec : Codec Sample := ⟨Sample.ofDraft, Sample.toJson, Sample.record.read_null⟩

theorem Sample.lossless (s : Sample) : Sample.codec.Lossless s := by
  apply Record.lossless (fun _ => rfl) s.write_record
  simp only [Sample.record, List.forall_mem_cons]
  refine ⟨Codec.gives_field (Codec.text_lossless _), ?_, ?_, ?_, ?_, by simp⟩
  · exact Codec.gives_optional fun n _ => Codec.natural_lossless n
  · exact Codec.gives_optional fun n _ => Codec.natural_lossless n
  · exact Codec.gives_optional fun field _ => Codec.text_lossless field
  · exact Codec.gives_defaulted (Codec.flag_lossless _) (by simp)

/-- An object without a bank is no sample. -/
theorem Sample.ofDraft_ne_ok_of_missing {members : Members}
    (h : "sampleFrom" ∉ members.map Prod.fst) (s : Sample) :
    Sample.ofDraft (.ofJson (.obj members)) ≠ .ok s :=
  Draft.record_ne_ok_of_missing (by simp [Sample.fields]) h s

/-- An array whose elements are neither null nor numbers is no sample: its second field is either
missing or of another kind. -/
theorem Sample.ofDraft_ne_ok_of_array {items : List Json}
    (h : ∀ x ∈ items, ∀ n, (Draft.ofJson x).asOption Draft.asNat ≠ .ok n) (s : Sample) :
    Sample.ofDraft (.ofJson (.arr items)) ≠ .ok s := by
  match items with
  | [] => simp [Sample.ofDraft, Draft.ofJson, Draft.ofItems, Draft.record, Draft.readFields,
      Sample.fields]
  | [x] =>
      simp [Sample.ofDraft, Draft.ofJson, Draft.ofItems, Draft.record, Draft.readFields,
        Sample.fields, Outcome.bind_eq_ok_iff]
  | x :: y :: rest =>
      have hsecond := h y (by simp)
      simp [Sample.ofDraft, Draft.ofJson, Draft.ofItems, Draft.record, Draft.readFields,
        Sample.fields, Sample.put, Outcome.bind_eq_ok_iff, hsecond]

/-! ### Texts -/

/-- Texts. -/
def Text.codec : Codec Text where
  read := Text.ofDraft
  write := Text.toJson
  refusesNull := Draft.variants_ne_ok (by simp [Draft.asString]) Sample.codec.refusesNull

theorem Text.lossless (t : Text) : Text.codec.Lossless t := by
  cases t with
  | literal value => exact Draft.variants_first rfl
  | sample s =>
      have hstring : ∀ value, (Draft.ofJson s.toJson).asString ≠ .ok value := by
        simp [Sample.toJson, Draft.ofJson, Draft.asString]
      exact Draft.variants_second hstring s.lossless

/-- No text is read from an array of texts. -/
theorem Text.ofDraft_ne_ok_of_array {items : List Json}
    (h : ∀ x ∈ items, ∀ n, (Draft.ofJson x).asOption Draft.asNat ≠ .ok n) (t : Text) :
    Text.ofDraft (.ofJson (.arr items)) ≠ .ok t :=
  Draft.variants_ne_ok (by simp [Draft.ofJson, Draft.asString]) (Sample.ofDraft_ne_ok_of_array h) t

/-- No text is read from an object without a bank. -/
theorem Text.ofDraft_ne_ok_of_missing {members : Members}
    (h : "sampleFrom" ∉ members.map Prod.fst) (t : Text) :
    Text.ofDraft (.ofJson (.obj members)) ≠ .ok t :=
  Draft.variants_ne_ok (by simp [Draft.ofJson, Draft.asString]) (Sample.ofDraft_ne_ok_of_missing h)
    t

/-- What a page shows. -/
def PageText.codec : Codec PageText where
  read := PageText.ofDraft
  write := PageText.toJson
  refusesNull := Draft.variants_ne_ok Text.codec.refusesNull Text.codec.list.refusesNull

theorem PageText.lossless (t : PageText) : PageText.codec.Lossless t := by
  cases t with
  | single one => exact Draft.variants_first one.lossless
  | lines several =>
      have hsingle : ∀ one, Text.ofDraft (.ofJson (.arr (several.map Text.toJson))) ≠ .ok one := by
        apply Text.ofDraft_ne_ok_of_array
        rw [List.forall_mem_map]
        intro line _
        cases line <;> simp [Text.toJson, Sample.toJson, Draft.ofJson, Draft.asOption, Draft.asNat,
          Functor.map, Except.map]
      have hlines : Text.codec.list.Lossless several :=
        Codec.list_lossless fun line _ => Text.lossless line
      exact Draft.variants_second hsingle hlines

/-! ### Resources -/

/-- The media type of a resource is always written. -/
def Resource.mediaField : Wire.Field (Option String) where
  name := "mediaType"
  read d := d.asOption Draft.asString
  missing := some none
  write mediaType := some (match mediaType with
    | some mediaType => .str mediaType
    | none => .null)

/-- The fields of a resource record. -/
def Resource.record : Record Resource where
  fields := Resource.fields
  put := Resource.put
  entries r :=
    [⟨Text.codec.field "source", r.source⟩, ⟨Resource.mediaField, r.mediaType⟩,
      ⟨Codec.flag.field "autoplay", r.autoplay⟩, ⟨Codec.flag.field "controls", r.controls⟩,
      ⟨Codec.flag.field "required", r.required⟩]
  partly r seen :=
    { source := whenSeen seen "source" r.source (.literal "")
      mediaType := whenSeen seen "mediaType" r.mediaType none
      autoplay := whenSeen seen "autoplay" r.autoplay false
      controls := whenSeen seen "controls" r.controls false
      required := whenSeen seen "required" r.required false }
  blank := Resource.blank
  names _ := rfl
  distinct := by decide
  needed r := by simp [Entry.name, Codec.field, Resource.mediaField, Resource.fields]
  partly_nil _ := by simp [Resource.blank]
  put_partly r := by
    simp only [List.forall_mem_cons, Entry.name, Codec.field, Resource.mediaField, Text.codec,
      Codec.flag]
    refine ⟨?_, ?_, ?_, ?_, ?_, by simp⟩
    all_goals
      intro d hread seen
      simp [Resource.put, hread, bind, Except.bind, pure, Except.pure]
  partly_eq r seen h := by
    simp only [List.forall_mem_cons, Entry.name, Codec.field, Resource.mediaField,
      Option.some.injEq, reduceCtorEq, or_false] at h
    obtain ⟨hsource, hmedia, hautoplay, hcontrols, hrequired, -⟩ := h
    simp only [whenSeen_eq (.inl hsource), whenSeen_eq hmedia, whenSeen_eq (.inl hautoplay),
      whenSeen_eq (.inl hcontrols), whenSeen_eq (.inl hrequired)]

theorem Resource.write_record (r : Resource) : Resource.record.write r = r.toJson := rfl

/-- Resource records. -/
def Resource.codec : Codec Resource :=
  ⟨Resource.ofDraft, Resource.toJson, Resource.record.read_null⟩

theorem Resource.lossless (r : Resource) : Resource.codec.Lossless r := by
  apply Record.lossless (fun _ => rfl) r.write_record
  simp only [Resource.record, List.forall_mem_cons]
  refine ⟨Codec.gives_field r.source.lossless, ?_, Codec.gives_field (Codec.flag_lossless _),
    Codec.gives_field (Codec.flag_lossless _), Codec.gives_field (Codec.flag_lossless _), by simp⟩
  cases r.mediaType <;> rfl

/-- Resources. -/
def ResourceEntry.codec : Codec ResourceEntry where
  read := ResourceEntry.ofDraft
  write := ResourceEntry.toJson
  refusesNull := Draft.variants_ne_ok Sample.codec.refusesNull Resource.codec.refusesNull

theorem ResourceEntry.lossless (r : ResourceEntry) : ResourceEntry.codec.Lossless r := by
  cases r with
  | sample s => exact Draft.variants_first s.lossless
  | record r =>
      have hsample : ∀ s, Sample.ofDraft (.ofJson r.toJson) ≠ .ok s :=
        Sample.ofDraft_ne_ok_of_missing (by simp)
      exact Draft.variants_second hsample r.lossless

/-! ### Guards -/

/-- The fields of a guard. -/
def Guard.record : Record Guard where
  fields := Guard.fields
  put := Guard.put
  entries g :=
    [⟨Codec.text.optional "pageID", g.page⟩, ⟨Codec.text.optional "optionID", g.choice⟩,
      ⟨Codec.text.optional "regex", g.regex⟩, ⟨Codec.word.optional "permutation", g.permutation⟩]
  partly g seen :=
    { page := whenSeen seen "pageID" g.page none
      choice := whenSeen seen "optionID" g.choice none
      regex := whenSeen seen "regex" g.regex none
      permutation := whenSeen seen "permutation" g.permutation none }
  blank := {}
  names _ := rfl
  distinct := by decide
  needed g := by simp [Entry.name, Codec.optional, Guard.fields]
  partly_nil _ := by simp
  put_partly g := by
    simp only [List.forall_mem_cons, Entry.name, Codec.optional, Codec.text, Codec.word]
    refine ⟨?_, ?_, ?_, ?_, by simp⟩
    all_goals
      intro d hread seen
      simp [Guard.put, hread, bind, Except.bind, pure, Except.pure]
  partly_eq g seen h := by
    simp only [List.forall_mem_cons, Entry.name, Codec.optional, Option.some.injEq] at h
    obtain ⟨hpage, hchoice, hregex, hpermutation, -⟩ := h
    simp only [whenSeen_eq hpage, whenSeen_eq hchoice, whenSeen_eq hregex,
      whenSeen_eq hpermutation]

theorem Guard.write_record (g : Guard) : Guard.record.write g = g.toJson := by
  simp [Record.write, Guard.record, Guard.toJson, Codec.text, Codec.word]

/-- Guards. -/
def Guard.codec : Codec Guard := ⟨Guard.ofDraft, Guard.toJson, Guard.record.read_null⟩

theorem Guard.lossless (g : Guard) : Guard.codec.Lossless g := by
  apply Record.lossless (fun _ => rfl) g.write_record
  simp only [Guard.record, List.forall_mem_cons]
  refine ⟨?_, ?_, ?_, ?_, by simp⟩
  · exact Codec.gives_optional fun page _ => Codec.text_lossless page
  · exact Codec.gives_optional fun choice _ => Codec.text_lossless choice
  · exact Codec.gives_optional fun regex _ => Codec.text_lossless regex
  · exact Codec.gives_optional fun n _ => Codec.word_lossless n

end Document

/-! ### Keys -/

/-- Answer keys. -/
def AnswerKey.codec : Codec AnswerKey where
  read := AnswerKey.ofDraft
  write := AnswerKey.toJson
  refusesNull := Draft.variants_ne_ok Codec.flag.refusesNull Codec.text.refusesNull

theorem AnswerKey.lossless (key : AnswerKey) : AnswerKey.codec.Lossless key := by
  cases key with
  | flag value => exact Draft.variants_first rfl
  | pattern value =>
      have hflag : ∀ b, (Draft.ofJson (.str value)).asBool ≠ .ok b := by
        simp [Draft.ofJson, Draft.asBool]
      exact Draft.variants_second hflag rfl

/-- Key bindings. -/
def Keyboard.codec : Codec Keyboard where
  read := Keyboard.ofDraft
  write := Keyboard.toJson
  refusesNull := Draft.variants_ne_ok Codec.flag.refusesNull Codec.text.list.refusesNull

theorem Keyboard.lossless (keyboard : Keyboard) : Keyboard.codec.Lossless keyboard := by
  cases keyboard with
  | standard on => exact Draft.variants_first rfl
  | keys names =>
      have hkeys : Codec.text.list.Lossless names :=
        Codec.list_lossless fun name _ => Codec.text_lossless name
      have hflag : ∀ b, (Draft.ofJson (Json.strings names)).asBool ≠ .ok b := by
        simp [Json.strings, Draft.ofJson, Draft.asBool]
      exact Draft.variants_second hflag hkeys

/-! ### Banks and criteria -/

/-- Values of banks. -/
def BankEntry.codec : Codec BankEntry where
  read := BankEntry.ofDraft
  write := BankEntry.toJson
  refusesNull := Draft.variants_ne_ok Codec.text.refusesNull Codec.text.map.refusesNull

theorem BankEntry.lossless (entry : BankEntry) : BankEntry.codec.Lossless entry := by
  cases entry with
  | text value => exact Draft.variants_first rfl
  | record fields =>
      have hfields : Codec.text.map.Lossless fields :=
        Codec.map_lossless fun field _ => Codec.text_lossless field.2
      have htext : ∀ value, (Draft.ofJson (fields.toJson .str)).asString ≠ .ok value := by
        simp [Assoc.toJson, Draft.ofJson, Draft.asString]
      exact Draft.variants_second htext hfields

/-- Labels. -/
def tagsCodec : Codec Tags := ⟨tagsOfDraft, tagsToJson, Codec.text.map.refusesNull⟩

theorem tags_lossless (tags : Tags) : tagsCodec.Lossless tags :=
  Codec.map_lossless fun tag _ => Codec.text_lossless tag.2

/-- Banks by name. -/
def banksCodec : Codec Banks := ⟨banksOfDraft, banksToJson, BankEntry.codec.list.map.refusesNull⟩

theorem banks_lossless (banks : Banks) : banksCodec.Lossless banks := by
  have hbanks : BankEntry.codec.list.map.Lossless banks := by
    apply Codec.map_lossless
    intro bank _
    exact Codec.list_lossless fun entry _ => BankEntry.lossless entry
  exact hbanks

/-- Whether a criterion is a streak or a share that is a number. -/
def Criterion.IsFinite : Criterion → Prop
  | .streak _ => True
  | .proportion share => share.isFinite = true

/-- Criteria. -/
def Criterion.codec : Codec Criterion where
  read := Criterion.ofDraft
  write := Criterion.toJson
  refusesNull := Draft.variants_ne_ok Codec.word.refusesNull (by simp [Draft.asBinary64])

/-- A share is written with a fraction and never taken for a streak. -/
theorem Criterion.lossless {c : Criterion} (h : c.IsFinite) : Criterion.codec.Lossless c := by
  cases c with
  | streak length => exact Draft.variants_first (Codec.word_lossless length)
  | proportion share =>
      have hfinite : share.isFinite = true := h
      have hwritten : (Criterion.proportion share).toJson = .num (.float share) := if_pos hfinite
      have hword : ∀ n, (Draft.ofJson (.num (.float share))).asUInt32 ≠ .ok n := by
        simp [Draft.ofJson, Draft.asUInt32, Draft.asNat, bind, Except.bind]
      simp only [Codec.Lossless, Criterion.codec, hwritten]
      exact Draft.variants_second hword rfl

end Paradigm
