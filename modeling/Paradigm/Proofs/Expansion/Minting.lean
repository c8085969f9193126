/-
Module: Paradigm.Proofs.Expansion.Minting
Layer: Proofs
Purpose: Where identifiers go. A stretch of building or expansion mints nodes: it takes the next
  identifiers of the source, one for each new node, and the nodes after it are those before and the
  new ones. Expansion mints a page for every text that is to be shown as a page and an option for
  every text box that has none. Every block of a tree is beside its expanded form.
Imports: Paradigm.Proofs.Expansion.Contents, Paradigm.Proofs.Tree.Nodes, Mathlib.Data.List.Forall2,
  Mathlib.Data.List.Nodup, Mathlib.Data.List.Perm.Basic
Main exports: IdSource.upcoming, IdSource.Issued, Minted, Mints, Item.minted, Item.mints_expand,
  Experiment.Expanded.minted, Experiment.Expanded.nodup, Experiment.Expanded.named,
  Block.ExpandedWithin, Experiment.Expanded.allBlocks
-/
import Mathlib.Data.List.Forall2
import Mathlib.Data.List.Nodup
import Mathlib.Data.List.Perm.Basic
import Paradigm.Proofs.Expansion.Contents
import Paradigm.Proofs.Tree.Nodes

namespace Paradigm

/-! ### Identifiers to come -/

theorem toString_injective : Function.Injective (toString : Nat → String) := by
  intro a b hab
  have hdigits : Nat.toDigits 10 a = Nat.toDigits 10 b := by
    rw [← Nat.toList_repr, ← Nat.toList_repr]
    exact congrArg String.toList hab
  rw [← Nat.ofDigitChars_ten_toDigits (n := a), hdigits, Nat.ofDigitChars_ten_toDigits]

/-- The decimal text of what 64 bits hold of a number. -/
def identifier (n : Nat) : String := toString (UInt64.ofNat n)

/-- The source after a number of identifiers were taken from it. -/
def IdSource.after (ids : IdSource) (count : Nat) : IdSource := { last := ids.last + count }

/-- The next identifiers of a source, in order. -/
def IdSource.upcoming (ids : IdSource) (count : Nat) : List String :=
  (List.range count).map fun i => identifier (ids.last + (i + 1))

/-- The identifiers issued between two states of a source. -/
def IdSource.Issued (ids ids' : IdSource) (id : String) : Prop :=
  ∃ n, ids.last < n ∧ n ≤ ids'.last ∧ id = identifier n

namespace IdSource

/-- What the source keeps of its past is no part of what it issues: the counter moves on by machine
addition. -/
theorem counter_after (ids : IdSource) (count : Nat) :
    (ids.after count).counter = ids.counter + .ofNat count :=
  UInt64.ofNat_add ids.last count

theorem next_eq (ids : IdSource) : ids.next = (identifier (ids.last + 1), ids.after 1) := by
  have hcounter : ids.counter + 1 = (ids.after 1).counter := (ids.counter_after 1).symm
  rw [next, hcounter]
  rfl

theorem HasRoom.mono {ids : IdSource} {count fewer : Nat} (h : ids.HasRoom count)
    (hle : fewer ≤ count) : ids.HasRoom fewer :=
  Nat.lt_of_le_of_lt (Nat.add_le_add_left hle _) h

/-- A counter with room counts on. -/
theorem HasRoom.toNat_counter_after {ids : IdSource} {count : Nat} (h : ids.HasRoom count) :
    (ids.after count).counter.toNat = ids.counter.toNat + count := by
  have hmod : (ids.last + count) % UInt64.size = (ids.counter.toNat + count) % UInt64.size := by
    rw [counter, UInt64.toNat_ofNat', Nat.mod_add_mod]
  rw [counter, after, UInt64.toNat_ofNat', hmod, Nat.mod_eq_of_lt h]

/-- Where the counter has room, the identifiers to come are the numbers above it. -/
theorem HasRoom.identifier_add {ids : IdSource} {count i : Nat} (h : ids.HasRoom count)
    (hi : i ≤ count) : identifier (ids.last + i) = toString (ids.counter.toNat + i) := by
  rw [← (h.mono hi).toNat_counter_after]
  rfl

/-- Once some identifiers were taken there is room for as many less. -/
theorem HasRoom.after {ids : IdSource} {taken count : Nat} (h : ids.HasRoom (taken + count)) :
    (ids.after taken).HasRoom count := by
  rw [HasRoom, (h.mono (Nat.le_add_right taken count)).toNat_counter_after, Nat.add_assoc]
  exact h

theorem after_after (ids : IdSource) (m n : Nat) : (ids.after m).after n = ids.after (m + n) := by
  simp only [after, Nat.add_assoc]

/-- Identifiers are taken from where the last ones left off. -/
theorem upcoming_add (ids : IdSource) (m n : Nat) :
    ids.upcoming (m + n) = ids.upcoming m ++ (ids.after m).upcoming n := by
  simp only [upcoming, List.range_add, List.map_append, List.map_map, after, Function.comp_def,
    Nat.add_assoc]

/-- The identifiers of a counter that has room are the numbers above it in order. -/
theorem HasRoom.upcoming_eq {ids : IdSource} {count : Nat} (h : ids.HasRoom count) :
    ids.upcoming count
      = (List.range count).map fun i => toString (ids.counter.toNat + (i + 1)) := by
  apply List.map_congr_left
  intro i hi
  exact h.identifier_add (List.mem_range.mp hi)

/-- No identifier is taken twice as long as the counter has room. -/
theorem HasRoom.nodup_upcoming {ids : IdSource} {count : Nat} (h : ids.HasRoom count) :
    (ids.upcoming count).Nodup := by
  rw [h.upcoming_eq]
  apply List.Nodup.map _ List.nodup_range
  intro i j hij
  have hsame := toString_injective hij
  omega

theorem mem_upcoming {ids : IdSource} {count : Nat} {id : String} :
    id ∈ ids.upcoming count ↔ ids.Issued (ids.after count) id := by
  simp only [upcoming, List.mem_map, List.mem_range, Issued, after]
  constructor
  · rintro ⟨i, hi, rfl⟩
    exact ⟨ids.last + (i + 1), by omega, by omega, rfl⟩
  · rintro ⟨n, hlt, hle, rfl⟩
    exact ⟨n - ids.last - 1, by omega, congrArg identifier (by omega)⟩

/-- What a counter with room issues is a number above it. -/
theorem HasRoom.exists_of_issued {ids : IdSource} {count : Nat} {id : String}
    (h : ids.HasRoom count) (hid : ids.Issued (ids.after count) id) :
    ∃ n, ids.counter.toNat < n ∧ n ≤ ids.counter.toNat + count ∧ id = toString n := by
  obtain ⟨n, hlt, hle, rfl⟩ := hid
  obtain ⟨i, rfl⟩ := Nat.exists_eq_add_of_lt hlt
  have hi : i + 1 ≤ count := Nat.le_of_add_le_add_left hle
  exact ⟨ids.counter.toNat + (i + 1), by omega, by omega, h.identifier_add hi⟩

theorem Issued.mono {ids ids₁ ids₂ ids₃ : IdSource} {id : String}
    (h : ids₁.Issued ids₂ id) (hfrom : ids.last ≤ ids₁.last) (hto : ids₂.last ≤ ids₃.last) :
    ids.Issued ids₃ id := by
  obtain ⟨n, hlt, hle, rfl⟩ := h
  exact ⟨n, by omega, by omega, rfl⟩

theorem issued_next (ids : IdSource) : ids.Issued ids.next.2 ids.next.1 := by
  rw [next_eq]
  exact ⟨ids.last + 1, by omega, Nat.le_refl _, rfl⟩

theorem Issued.ne_empty {ids ids' : IdSource} {id : String} (h : ids.Issued ids' id) :
    id ≠ "" := by
  obtain ⟨n, _, _, rfl⟩ := h
  exact Nat.repr_ne_empty

end IdSource

/-! ### Minting nodes -/

/-- A stretch between two states of a source mints nodes of some kinds: one identifier is taken for
each, and the nodes after it are those before and the new ones, the new ones bearing the identifiers
in the order in which they were taken. -/
structure Minted (ids ids' : IdSource) (kinds : List NodeKind) (before after : List Identity) :
    Prop where
  source : ids' = ids.after kinds.length
  nodes : ∃ new : List Identity, new.map Prod.snd = ids.upcoming kinds.length ∧
    (new.map Prod.fst).Perm kinds ∧ after.Perm (before ++ new)

namespace Minted

variable {ids ids₁ ids₂ : IdSource} {kinds kinds' : List NodeKind}
  {before before' between after after' : List Identity}

theorem none (h : after.Perm before) : Minted ids ids [] before after :=
  ⟨rfl, [], rfl, .refl _, by rwa [List.append_nil]⟩

/-- Nodes that stay as they are. -/
theorem kept (ids : IdSource) (nodes : List Identity) : Minted ids ids [] nodes nodes :=
  .none (.refl _)

/-- One new node. -/
theorem one (ids : IdSource) (kind : NodeKind) :
    Minted ids ids.next.2 [kind] [] [(kind, ids.next.1)] := by
  rw [IdSource.next_eq]
  exact ⟨rfl, [(kind, _)], rfl, .refl _, .refl _⟩

theorem append (first : Minted ids ids₁ kinds before after)
    (second : Minted ids₁ ids₂ kinds' before' after') :
    Minted ids ids₂ (kinds ++ kinds') (before ++ before') (after ++ after') := by
  obtain ⟨rfl, new, hids, hkinds, hafter⟩ := first
  obtain ⟨rfl, new', hids', hkinds', hafter'⟩ := second
  constructor
  · rw [IdSource.after_after, List.length_append]
  · refine ⟨new ++ new', ?_, ?_, ?_⟩
    · rw [List.map_append, hids, hids', List.length_append, IdSource.upcoming_add]
    · rw [List.map_append]
      exact hkinds.append hkinds'
    · rw [List.perm_iff_count] at hafter hafter' ⊢
      intro identity
      have hcount := hafter identity
      have hcount' := hafter' identity
      simp only [List.count_append] at hcount hcount' ⊢
      omega

/-- One stretch after another: what the first leaves is what the second starts from. -/
theorem trans (first : Minted ids ids₁ kinds before between)
    (second : Minted ids₁ ids₂ kinds' between after) :
    Minted ids ids₂ (kinds ++ kinds') before after := by
  obtain ⟨rfl, new, hids, hkinds, hbetween⟩ := first
  obtain ⟨rfl, new', hids', hkinds', hafter⟩ := second
  constructor
  · rw [IdSource.after_after, List.length_append]
  · refine ⟨new ++ new', ?_, ?_, ?_⟩
    · rw [List.map_append, hids, hids', List.length_append, IdSource.upcoming_add]
    · rw [List.map_append]
      exact hkinds.append hkinds'
    · rw [← List.append_assoc]
      exact hafter.trans (hbetween.append_right new')

/-- The order in which nodes are looked at does not matter. -/
theorem perm (h : Minted ids ids' kinds before after) (hkinds : kinds.Perm kinds')
    (hbefore : before.Perm before') (hafter : after.Perm after') :
    Minted ids ids' kinds' before' after' := by
  obtain ⟨hsource, new, hids, hnew, hnodes⟩ := h
  have hlength := hkinds.length_eq
  rw [hlength] at hsource hids
  exact ⟨hsource, new, hids, hnew.trans hkinds,
    hafter.symm.trans (hnodes.trans (hbefore.append_right new))⟩

theorem last_eq (h : Minted ids ids' kinds before after) :
    ids'.last = ids.last + kinds.length := by
  rw [h.source, IdSource.after]

theorem forward (h : Minted ids ids' kinds before after) : ids.last ≤ ids'.last := by
  rw [h.last_eq]
  exact Nat.le_add_right _ _

/-- Nodes were there before or bear issued identifiers. -/
theorem mem (h : Minted ids ids' kinds before after) :
    ∀ identity ∈ after, identity ∈ before ∨ ids.Issued ids' identity.2 := by
  obtain ⟨hsource, new, hids, _, hafter⟩ := h
  intro identity hidentity
  rcases List.mem_append.mp (hafter.mem_iff.mp hidentity) with hold | hnew
  · exact .inl hold
  · have hupcoming := List.mem_map_of_mem (f := Prod.snd) hnew
    rw [hids, IdSource.mem_upcoming, ← hsource] at hupcoming
    exact .inr hupcoming

/-- Nodes that were distinct and had none of the identifiers to come stay distinct beside the new
ones, as long as the counter has room. -/
theorem nodup (h : Minted ids ids' kinds before after) (hroom : ids.HasRoom kinds.length)
    (hbefore : before.Nodup)
    (hunissued : ∀ identity ∈ before, ∀ n, ids.counter.toNat < n → identity.2 ≠ toString n) :
    after.Nodup := by
  obtain ⟨_, new, hids, _, hafter⟩ := h
  rw [hafter.nodup_iff, List.nodup_append]
  have hnew : (new.map Prod.snd).Nodup := by
    rw [hids]
    exact hroom.nodup_upcoming
  refine ⟨hbefore, List.Nodup.of_map Prod.snd hnew, ?_⟩
  rintro old hold identity hidentity rfl
  have hupcoming := List.mem_map_of_mem (f := Prod.snd) hidentity
  rw [hids, IdSource.mem_upcoming] at hupcoming
  obtain ⟨n, hlt, _, hn⟩ := hroom.exists_of_issued hupcoming
  exact hunissued old hold n hlt hn

/-- Nodes that are distinct after a stretch were so before. -/
theorem nodup_before (h : Minted ids ids' kinds before after) (hafter : after.Nodup) :
    before.Nodup := by
  obtain ⟨_, new, _, _, hnodes⟩ := h
  exact List.Nodup.of_append_left (hnodes.nodup_iff.mp hafter)

end Minted

/-- Steps that mint nodes of kinds that can be told beforehand. -/
def Mints {α β : Type} (step : α → Issuing β) (before : α → List Identity)
    (after : β → List Identity) (kinds : α → List NodeKind) : Prop :=
  ∀ x ids, Minted ids (step x ids).2 (kinds x) (before x) (after (step x ids).1)

section Mints

variable {α β : Type} {step : α → Issuing β} {before : α → List Identity}
  {after : β → List Identity} {kinds : α → List NodeKind}

theorem Mints.mapM (h : Mints step before after kinds) :
    Mints (fun xs : List α => xs.mapM step) (·.flatMap before) (·.flatMap after)
      (·.flatMap kinds) := by
  intro xs
  induction xs with
  | nil => exact fun ids => .kept _ _
  | cons x rest ih =>
      intro ids
      show Minted ids ((x :: rest).mapM step ids).2 ((x :: rest).flatMap kinds)
        ((x :: rest).flatMap before) (((x :: rest).mapM step ids).1.flatMap after)
      rw [Issuing.mapM_cons_run, List.flatMap_cons, List.flatMap_cons, List.flatMap_cons]
      exact (h x ids).append (ih _)

theorem Mints.option {step : α → Issuing α} {before after : α → List Identity}
    (h : Mints step before after kinds) :
    Mints (expandOption step) (fun x => x.toList.flatMap before)
      (fun y => y.toList.flatMap after) (fun x => x.toList.flatMap kinds) := by
  intro x ids
  cases x with
  | none => exact .kept _ _
  | some a =>
      show Minted ids (step a ids).2 ([a].flatMap kinds) ([a].flatMap before)
        ([(step a ids).1].flatMap after)
      simpa using h a ids

end Mints

/-! ### New pages and options -/

/-- Whether a text box page has no option yet. -/
def Page.lacksBox (page : Page) : Bool := page.isFreetext && page.choices.isEmpty

/-- Whether feedback is a text, literal or drawn. -/
def Feedback.isText : Feedback → Bool
  | .text _ => true
  | .page _ => false

/-- Whether an item is given a text. -/
def Item.isText (item : Item) : Bool :=
  match item.contents with
  | .text _ => true
  | _ => false

/-- The option that a page lacks. -/
def Page.minted (page : Page) : List NodeKind := if page.lacksBox then [.choice] else []

/-- The page that a text as feedback needs. -/
def Feedback.minted (feedback : Feedback) : List NodeKind :=
  if feedback.isText then [.page] else []

/-- What an item needs: a page for its text, pages for texts as feedback on its pages, and options
for text boxes on its pages and on those attached to them. -/
def Item.minted (item : Item) : List NodeKind :=
  (if item.isText then [.page] else []) ++ item.feedbackSites.flatMap (·.feedback.minted)
    ++ (item.pages ++ item.attached).flatMap Page.minted

/-- What the pages and items of a block need. -/
def Block.minted (block : Block) : List NodeKind :=
  (block.pages.getD []).flatMap Page.minted ++ block.ownItems.flatMap Item.minted

theorem Page.mints_withTextBox : Mints Page.withTextBox Page.identities Page.identities
    Page.minted := by
  intro page ids
  rw [Page.withTextBox_run, Page.minted, Page.lacksBox]
  split
  · rename_i h
    obtain ⟨id, text, choices, feedback⟩ := page
    simp only [Bool.and_eq_true, List.isEmpty_iff] at h
    have hbox := (Minted.kept ids (Page.identities
      { id := id, text := text, feedback := feedback })).append (.one ids .choice)
    simpa [Page.identities, Choice.identitiesList, Choice.identities, Feedback.identitiesOption,
      h.2] using hbox
  · exact .kept _ _

theorem Feedback.mints_toPage : Mints Feedback.toPage Feedback.identities Page.identities
    Feedback.minted := by
  intro feedback ids
  cases feedback with
  | text label =>
      have hnew : Page.identities (((Feedback.text label).toPage ids).1)
          = [(.page, ids.next.1)] := by
        show Page.identities { id := ids.next.1, text := .single label } = _
        simp [Page.identities, Feedback.identitiesOption, Choice.identitiesList]
      rw [hnew]
      exact .one ids .page
  | page shown => exact .kept _ _

theorem Page.identities_guard (page : Page) (guard : Option Guard) :
    Page.identities { page with guard := guard } = page.identities := by
  cases page
  rfl

theorem mints_pageFeedback : Mints pageFeedback Feedback.identitiesOption
    (·.flatMap Page.identities) (·.toList.flatMap Feedback.minted) := by
  intro feedback ids
  cases feedback with
  | none => exact .kept _ _
  | some feedback =>
      show Minted ids (feedback.toPage ids).2 ([feedback].flatMap Feedback.minted)
        feedback.identities ([(feedback.toPage ids).1].flatMap Page.identities)
      simpa using Feedback.mints_toPage feedback ids

theorem mints_choiceFeedback (page : String) : Mints (choiceFeedback page)
    (·.flatMap fun choice => Feedback.identitiesOption choice.feedback)
    (·.flatMap Page.identities)
    (·.flatMap fun choice => choice.feedback.toList.flatMap Feedback.minted) := by
  intro choices
  induction choices with
  | nil => exact fun ids => .kept _ _
  | cons choice rest ih =>
      intro ids
      simp only [List.flatMap_cons]
      cases hfeedback : choice.feedback with
      | none =>
          rw [choiceFeedback_run_none ids hfeedback]
          exact ih ids
      | some feedback =>
          rw [choiceFeedback_run_some ids hfeedback]
          simp only [List.flatMap_cons, Option.toList_some, List.flatMap_nil, List.append_nil]
          rw [Page.identities_guard]
          exact (Feedback.mints_toPage feedback ids).append (ih _)

/-! ### Pages and items -/

/-- The identities of options are their own and those of their feedback. -/
theorem Choice.identitiesList_perm (choices : List Choice) :
    (Choice.identitiesList choices).Perm
      (choices.map (fun choice => (.choice, choice.id))
        ++ choices.flatMap fun choice => Feedback.identitiesOption choice.feedback) := by
  induction choices with
  | nil => exact .refl _
  | cons choice rest ih =>
      have hchoice : choice.identities
          = (.choice, choice.id) :: Feedback.identitiesOption choice.feedback := by
        cases choice
        simp only [Choice.identities]
      rw [List.perm_iff_count] at ih ⊢
      intro identity
      have hcount := ih identity
      simp only [Choice.identitiesList, hchoice, List.map_cons, List.flatMap_cons, List.cons_append,
        List.count_cons, List.count_append] at hcount ⊢
      omega

theorem Page.mem_identities {page : Page} {identity : Identity} :
    identity ∈ page.identities ↔
      identity = (.page, page.id) ∨ identity ∈ Feedback.identitiesOption page.feedback ∨
        identity ∈ Choice.identitiesList page.choices := by
  cases page
  simp [Page.identities]

theorem Page.mem_identities_self (page : Page) : (NodeKind.page, page.id) ∈ page.identities :=
  Page.mem_identities.mpr (.inl rfl)

/-- Taking the feedback off a page takes its identities off those of the page. -/
theorem Page.identities_perm_plain (page : Page) :
    page.identities.Perm (page.plain.identities ++ Feedback.identitiesOption page.feedback
      ++ page.choices.flatMap fun choice => Feedback.identitiesOption choice.feedback) := by
  have hplain : page.plain.identities
      = (.page, page.id) :: page.choices.map fun choice => (.choice, choice.id) := by
    have hchoices : ∀ choices : List Choice, Choice.identitiesList
        (choices.map fun choice => { choice with feedback := none })
          = choices.map fun choice => (.choice, choice.id) := by
      intro choices
      induction choices with
      | nil => rfl
      | cons choice rest ih =>
          simp only [List.map_cons, Choice.identitiesList, Choice.identities,
            Feedback.identitiesOption, ih, List.cons_append, List.nil_append]
    cases page
    simp only [Page.plain, Page.identities, Feedback.identitiesOption, hchoices, List.cons_append,
      List.nil_append]
  have hself : page.identities = (.page, page.id) :: Feedback.identitiesOption page.feedback
      ++ Choice.identitiesList page.choices := by
    cases page
    simp only [Page.identities]
  have hchoices := Choice.identitiesList_perm page.choices
  rw [hself, hplain]
  rw [List.perm_iff_count] at hchoices ⊢
  intro identity
  have hcount := hchoices identity
  simp only [List.cons_append, List.count_cons, List.count_append] at hcount ⊢
  omega

/-- What is read off the feedback on a page comes from its own and from that of its options. -/
theorem Page.flatMap_feedbackSites {γ : Type} (page : Page) (read : Feedback → List γ) :
    page.feedbackSites.flatMap (fun site => read site.feedback)
      = page.feedback.toList.flatMap read
        ++ page.choices.flatMap fun choice => choice.feedback.toList.flatMap read := by
  have hchoices : ∀ choices : List Choice,
      (choices.filterMap fun choice => choice.feedback.map fun feedback =>
        ({ feedback := feedback
           guard := some { page := some page.id, choice := some choice.id } } :
          FeedbackSite)).flatMap (fun site => read site.feedback)
        = choices.flatMap fun choice => choice.feedback.toList.flatMap read := by
    intro choices
    induction choices with
    | nil => rfl
    | cons choice rest ih =>
        cases hfeedback : choice.feedback with
        | none => simp [hfeedback, ih]
        | some feedback => simp [hfeedback, ih]
  rw [Page.feedbackSites, List.flatMap_append, hchoices, List.flatMap_map]

theorem Page.mints_spliced : Mints Page.spliced Page.identities (·.flatMap Page.identities)
    (·.feedbackSites.flatMap (·.feedback.minted)) := by
  intro page ids
  have hplain := Minted.kept ids page.plain.identities
  have hown := mints_pageFeedback page.feedback ids
  have hchoices := mints_choiceFeedback page.id page.choices (pageFeedback page.feedback ids).2
  rw [Page.spliced_run]
  simp only [List.flatMap_append, List.flatMap_cons, page.flatMap_feedbackSites Feedback.minted]
  exact ((hplain.append hown).append hchoices).perm (.refl _) page.identities_perm_plain.symm
    (.refl _)

/-- What is read off the pages of an item is there before and after a text becomes a page, unless it
is read off a page with a text and nothing else. -/
theorem Item.flatMap_toPages {γ : Type} (item : Item) (ids : IdSource) (read : Page → List γ)
    (h : ∀ id label, read { id := id, text := .single label } = []) :
    (item.contents.toPages ids).1.flatMap read = item.pages.flatMap read := by
  unfold Item.pages
  cases item.contents with
  | text label =>
      show [({ id := ids.next.1, text := .single label } : Page)].flatMap read = []
      rw [List.flatMap_singleton, h]
  | page single => rfl
  | pages several => rfl

theorem Item.minted_toPages (item : Item) (ids : IdSource) :
    Minted ids (item.contents.toPages ids).2 (if item.isText then [.page] else [])
      (item.pages.flatMap Page.identities)
      ((item.contents.toPages ids).1.flatMap Page.identities) := by
  unfold Item.pages Item.isText
  cases item.contents with
  | text label =>
      have hnew := Feedback.mints_toPage (.text label) ids
      show Minted ids ids.next.2 [.page] []
        ([({ id := ids.next.1, text := .single label } : Page)].flatMap Page.identities)
      rw [List.flatMap_singleton]
      exact hnew
  | page single => exact .kept _ _
  | pages several => exact .kept _ _

/-! ### Pages that lack an option -/

theorem Feedback.keeps_minted : Keeps Feedback.toPage (·.attached.flatMap Page.minted)
    Page.minted := by
  intro feedback ids
  cases feedback with
  | text label => rfl
  | page shown => exact (List.flatMap_singleton _ _).symm

theorem keeps_minted_choiceFeedback (page : String) : Keeps (choiceFeedback page)
    (·.flatMap fun choice => choice.feedback.toList.flatMap (·.attached.flatMap Page.minted))
    (·.flatMap Page.minted) := by
  intro choices
  induction choices with
  | nil => exact fun ids => rfl
  | cons choice rest ih =>
      intro ids
      simp only [List.flatMap_cons]
      cases hfeedback : choice.feedback with
      | none =>
          rw [choiceFeedback_run_none ids hfeedback]
          exact ih ids
      | some feedback =>
          rw [choiceFeedback_run_some ids hfeedback]
          have hhead : Page.minted { (feedback.toPage ids).1 with
              guard := some (choiceGuard page choice.id) }
                = feedback.attached.flatMap Page.minted := Feedback.keeps_minted feedback ids
          simp only [List.flatMap_cons, hhead, Option.toList_some, List.flatMap_nil,
            List.append_nil]
          exact congrArg (feedback.attached.flatMap Page.minted ++ ·) (ih _)

/-- Splicing keeps the pages that lack an option: the page and those attached to it. -/
theorem Page.keeps_minted : Keeps Page.spliced
    (fun page => page.minted
      ++ page.feedbackSites.flatMap fun site => site.feedback.attached.flatMap Page.minted)
    (·.flatMap Page.minted) := by
  intro page ids
  have hplain : page.plain.minted = page.minted := by
    cases page
    simp [Page.minted, Page.lacksBox, Page.plain, Page.isFreetext]
  have hown : (pageFeedback page.feedback ids).1.flatMap Page.minted
      = page.feedback.toList.flatMap fun feedback => feedback.attached.flatMap Page.minted := by
    cases page.feedback with
    | none => rfl
    | some feedback =>
        show [(feedback.toPage ids).1].flatMap Page.minted = [feedback].flatMap _
        rw [List.flatMap_singleton, List.flatMap_singleton]
        exact Feedback.keeps_minted feedback ids
  have hchoices := keeps_minted_choiceFeedback page.id page.choices
    (pageFeedback page.feedback ids).2
  rw [Page.spliced_run]
  simp only at hchoices
  simp only [List.flatMap_append, List.flatMap_cons, hplain, hown, hchoices,
    List.cons_append, page.flatMap_feedbackSites fun feedback =>
      feedback.attached.flatMap Page.minted]

/-- Expanding an item mints what the item needs. -/
theorem Item.mints_expand : Mints Item.expand Item.identities Item.identities Item.minted := by
  intro item ids
  have hgiven := item.minted_toPages ids
  have hsites := item.flatMap_toPages ids
    (fun page => page.feedbackSites.flatMap (·.feedback.minted)) fun _ _ => rfl
  have hlacking := item.flatMap_toPages ids
    (fun page => page.minted
      ++ page.feedbackSites.flatMap fun site => site.feedback.attached.flatMap Page.minted)
    fun _ _ => rfl
  rw [Item.expand_run]
  simp only
  generalize item.contents.toPages ids = given at hgiven hsites hlacking ⊢
  have hspliced := Page.mints_spliced.mapM given.1 given.2
  have hkept := Page.keeps_minted.mapM given.1 given.2
  simp only at hspliced hkept hsites hlacking
  generalize given.1.mapM Page.spliced given.2 = spliced at hspliced hkept ⊢
  have hboxes := Page.mints_withTextBox.mapM spliced.1.flatten spliced.2
  simp only [flatMap_flatten_eq] at hboxes
  -- Pages lack options as those do that the item is given and those attached to them.
  have hkinds : item.minted.Perm ((if item.isText then [.page] else [])
      ++ given.1.flatMap (fun page => page.feedbackSites.flatMap (·.feedback.minted))
      ++ spliced.1.flatMap (·.flatMap Page.minted)) := by
    rw [hkept, hsites, hlacking, Item.minted, Item.feedbackSites, Item.attached,
      Item.feedbackSites, List.flatMap_append, List.flatMap_assoc, List.flatMap_assoc,
      List.flatMap_assoc]
    apply List.Perm.append_left
    exact List.flatMap_append_perm _ _ _
  have hself : Minted ids ids [] [(NodeKind.item, item.id)] [(NodeKind.item, item.id)] :=
    .kept _ _
  exact (hself.append ((hgiven.trans hspliced).trans hboxes)).perm hkinds.symm (.refl _) (.refl _)

/-! ### Blocks -/

mutual

/-- Expanding a block mints what it and the blocks in it need. -/
theorem Block.Expanded.minted : ∀ {block expanded : Block} {treatment : Option Nat}
    {ids ids' : IdSource}, Block.Expanded treatment ids block expanded ids' →
      Minted ids ids' (block.within.flatMap Block.minted) block.identities expanded.identities
  | ⟨id, pages, items, groups, blocks, _, _, _, _, _, _, _, _, _⟩, expanded, treatment, ids, ids',
      h => by
      have hid := h.id_eq
      cases h with
      | @mk _ _ ids₁ ids₂ ids₃ _ _ _ _ _ _ _ checked ofPages ofItems ofGroups children shape =>
          have hpages := Page.mints_withTextBox.mapM.option pages ids
          have hitems := Item.mints_expand.mapM.option items ids₁
          have hgroups := Item.mints_expand.mapM.mapM.option groups ids₂
          rw [ofPages] at hpages
          rw [ofItems] at hitems
          rw [ofGroups] at hgroups
          simp only [flatMap_toList_eq] at hpages hitems hgroups
          simp only [← flatMap_flatten_eq] at hgroups
          have hself : Minted ids ids [] [(NodeKind.block, id)] [(NodeKind.block, id)] :=
            .kept _ _
          have hchildren := Block.ExpandedOption.minted children
          subst shape
          simp only at hid
          simp only [Block.identities, hid, Block.within, List.flatMap_cons, Block.minted,
            Block.ownItems, List.flatMap_append, List.append_assoc]
          have hall := (((hself.append hpages).append hitems).append hgroups).append hchildren
          simpa only [List.append_assoc, List.nil_append, List.cons_append] using hall

theorem Block.ExpandedOption.minted : ∀ {blocks expanded : Option (List Block)}
    {given : List (String × Nat)} {ids ids' : IdSource},
    Block.ExpandedOption given ids blocks expanded ids' →
      Minted ids ids' ((Block.withinOption blocks).flatMap Block.minted)
        (Block.identitiesOption blocks) (Block.identitiesOption expanded)
  | none, _, _, _, _, .none => .kept _ _
  | some _, _, _, _, _, .some list => Block.ExpandedList.minted list

theorem Block.ExpandedList.minted : ∀ {blocks expanded : List Block}
    {given : List (String × Nat)} {ids ids' : IdSource},
    Block.ExpandedList given ids blocks expanded ids' →
      Minted ids ids' ((Block.withinList blocks).flatMap Block.minted)
        (Block.identitiesList blocks) (Block.identitiesList expanded)
  | [], _, _, _, _, .nil => .kept _ _
  | _ :: _, _, _, _, _, .cons head tail => by
      rw [Block.withinList, List.flatMap_append, Block.identitiesList, Block.identitiesList]
      exact (Block.Expanded.minted head).append (Block.ExpandedList.minted tail)

end

/-- The nodes that expansion mints. -/
def Experiment.minted (e : Experiment) : List NodeKind := e.allBlocks.flatMap Block.minted

/-- Expansion mints what the blocks of a tree need. -/
theorem Experiment.Expanded.minted {e expanded : Experiment} {ids ids' : IdSource}
    (h : Experiment.Expanded ids e expanded ids') :
    Minted ids ids' e.minted e.identities expanded.identities :=
  Block.ExpandedList.minted h.blocks

/-- Expansion of a tree without empty identifiers gives none. -/
theorem Experiment.Expanded.named {e expanded : Experiment} {ids ids' : IdSource}
    (h : Experiment.Expanded ids e expanded ids')
    (hnamed : ∀ identity ∈ e.identities, identity.2 ≠ "") :
    ∀ identity ∈ expanded.identities, identity.2 ≠ "" := by
  intro identity hidentity
  rcases h.minted.mem identity hidentity with hgiven | hissued
  · exact hnamed identity hgiven
  · exact hissued.ne_empty

/-! ### Blocks at any depth -/

/-- Expansion only moves the source of identifiers forward. -/
theorem Block.Expanded.forward {treatment : Option Nat} {ids ids' : IdSource}
    {block expanded : Block} (h : Block.Expanded treatment ids block expanded ids') :
    ids.last ≤ ids'.last :=
  h.minted.forward

/-- The children of an expanded block were expanded with identifiers issued for the block. -/
theorem Block.Expanded.children {treatment : Option Nat} {ids ids' : IdSource}
    {block expanded : Block} (h : Block.Expanded treatment ids block expanded ids') :
    ∃ ids₁, ids.last ≤ ids₁.last ∧
      Block.ExpandedOption (assignments block.treatments) ids₁ block.blocks expanded.blocks
        ids' := by
  cases h with
  | @mk _ _ ids₁ ids₂ ids₃ _ _ _ _ _ _ _ checked ofPages ofItems ofGroups children shape =>
      have hpages := (Page.mints_withTextBox.mapM.option block.pages ids).forward
      have hitems := (Item.mints_expand.mapM.option block.items ids₁).forward
      have hgroups := (Item.mints_expand.mapM.mapM.option block.groups ids₂).forward
      rw [ofPages] at hpages
      rw [ofItems] at hitems
      rw [ofGroups] at hgroups
      subst shape
      exact ⟨ids₃, Nat.le_trans hpages (Nat.le_trans hitems hgroups), children⟩

/-- A block beside its expanded form, with identifiers issued between two states of the source. -/
def Block.ExpandedWithin (ids ids' : IdSource) (block expanded : Block) : Prop :=
  ∃ treatment ids₁ ids₂, ids.last ≤ ids₁.last ∧ ids₂.last ≤ ids'.last ∧
    Block.Expanded treatment ids₁ block expanded ids₂

theorem Block.ExpandedWithin.mono {ids ids₁ ids₂ ids₃ : IdSource} {block expanded : Block}
    (h : Block.ExpandedWithin ids₁ ids₂ block expanded) (hfrom : ids.last ≤ ids₁.last)
    (hto : ids₂.last ≤ ids₃.last) : Block.ExpandedWithin ids ids₃ block expanded := by
  obtain ⟨treatment, before, after, hbefore, hafter, hexpanded⟩ := h
  exact ⟨treatment, before, after, Nat.le_trans hfrom hbefore, Nat.le_trans hafter hto, hexpanded⟩

mutual

/-- A block and the blocks in it are beside their expanded forms, in order. -/
theorem Block.Expanded.within : ∀ {block expanded : Block} {treatment : Option Nat}
    {ids ids' : IdSource}, Block.Expanded treatment ids block expanded ids' →
      List.Forall₂ (Block.ExpandedWithin ids ids') block.within expanded.within
  | ⟨_, _, _, _, blocks, _, _, _, _, _, _, _, _, _⟩, ⟨_, _, _, _, _, _, _, _, _, _, _, _, _, _⟩,
      treatment, ids, ids', h => by
      obtain ⟨ids₁, hforward, hchildren⟩ := h.children
      rw [Block.within, Block.within]
      apply List.Forall₂.cons
      · exact ⟨treatment, ids, ids', Nat.le_refl _, Nat.le_refl _, h⟩
      · apply (Block.ExpandedOption.within hchildren).imp
        intro _ _ hinner
        exact hinner.mono hforward (Nat.le_refl _)

theorem Block.ExpandedOption.within : ∀ {blocks expanded : Option (List Block)}
    {given : List (String × Nat)} {ids ids' : IdSource},
    Block.ExpandedOption given ids blocks expanded ids' →
      List.Forall₂ (Block.ExpandedWithin ids ids') (Block.withinOption blocks)
        (Block.withinOption expanded)
  | none, _, _, _, _, .none => .nil
  | some _, _, _, _, _, .some list => by
      rw [Block.withinOption, Block.withinOption]
      exact Block.ExpandedList.within list

theorem Block.ExpandedList.within : ∀ {blocks expanded : List Block}
    {given : List (String × Nat)} {ids ids' : IdSource},
    Block.ExpandedList given ids blocks expanded ids' →
      List.Forall₂ (Block.ExpandedWithin ids ids') (Block.withinList blocks)
        (Block.withinList expanded)
  | [], _, _, _, _, .nil => .nil
  | _ :: _, _, _, _, _, .cons head tail => by
      have hhead := head.forward
      have htail := tail.minted.forward
      rw [Block.withinList, Block.withinList]
      apply List.rel_append
      · apply (Block.Expanded.within head).imp
        intro _ _ hinner
        exact hinner.mono (Nat.le_refl _) htail
      · apply (Block.ExpandedList.within tail).imp
        intro _ _ hinner
        exact hinner.mono hhead (Nat.le_refl _)

end

/-- The blocks of a tree are beside their expanded forms, in order. -/
theorem Experiment.Expanded.allBlocks {e expanded : Experiment} {ids ids' : IdSource}
    (h : Experiment.Expanded ids e expanded ids') :
    List.Forall₂ (Block.ExpandedWithin ids ids') e.allBlocks expanded.allBlocks :=
  Block.ExpandedList.within h.blocks

end Paradigm
