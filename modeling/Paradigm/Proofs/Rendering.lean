/-
Module: Paradigm.Proofs.Rendering
Layer: Proofs
Purpose: The texts of documents that are the same. Where one of two such documents is rendered so is
  the other, and the two texts hold one value. Labels, banks and records are written in their order,
  which does not count when documents are compared, so the texts need not be equal: they are exactly
  where all objects list their names in the same order.
Imports: Paradigm.Document.Equality, Paradigm.Proofs.Conformance, Paradigm.Proofs.Layout,
  Paradigm.Proofs.Wire.AcceptedValues
Main exports: Members.Alike, Assoc.alike_of_same, Criterion.Settled, Document.Page.alike_of_same,
  Document.Block.alike_of_same, Document.Experiment.alike_of_same, Document.Experiment.render_same
-/
import Paradigm.Document.Equality
import Paradigm.Proofs.Conformance
import Paradigm.Proofs.Layout
import Paradigm.Proofs.Wire.AcceptedValues

namespace Paradigm

open Schema

/-! ### Members -/

/-- Members with the same names in the same places, whose values are alike. -/
def Members.Alike (ms ns : Members) : Prop :=
  List.Forall₂ (fun m n => m.1 = n.1 ∧ m.2.Alike n.2) ms ns

namespace Members.Alike

variable {ms ns : Members}

theorem refl (ms : Members) : Members.Alike ms ms :=
  List.forall₂_same.mpr fun m _ => ⟨rfl, .refl m.2⟩

theorem append {ms' ns' : Members} (h : ms.Alike ns) (h' : Members.Alike ms' ns') :
    Members.Alike (ms ++ ms') (ns ++ ns') :=
  List.rel_append h h'

theorem one (name : String) {x y : Json} (h : x.Alike y) :
    Members.Alike (Members.one name x) (Members.one name y) :=
  .cons ⟨rfl, h⟩ .nil

end Members.Alike

namespace Json

theorem Alike.of_forall₂ {xs ys : List Json} (h : List.Forall₂ Json.Alike xs ys) :
    (Json.arr xs).Alike (.arr ys) := by
  obtain ⟨hlength, hitems⟩ := List.forall₂_iff_zip.mp h
  exact .arr hlength fun _ _ => hitems

/-- Objects with distinct names are alike where their members are, place by place. -/
theorem Alike.of_members {v w : Json} (hv : v.IsRecord) (hw : w.IsRecord)
    (h : Members.Alike v.members w.members) : v.Alike w := by
  rw [hv.object, hw.object]
  have hnames : v.names = w.names := map_eq_map_iff_forall₂.mpr (h.imp fun _ _ hm => hm.1)
  have hperm : v.names.Perm w.names := by rw [hnames]
  apply Alike.obj hv.distinct hperm
  intro name x y hx hy
  obtain ⟨⟨_, z⟩, hz, rfl, halike⟩ := exists_right_of_forall₂ h _ hx
  have hmember := List.inj_on_of_nodup_map hw.distinct hy hz rfl
  obtain rfl : y = z := congrArg Prod.snd hmember
  exact halike

end Json

/-! ### Collections -/

theorem forall₂_of_sameLists {α : Type} {same : α → α → Bool} {xs ys : List α}
    (h : sameLists same xs ys = true) : List.Forall₂ (fun x y => same x y = true) xs ys := by
  induction xs generalizing ys with
  | nil =>
      cases ys with
      | nil => exact .nil
      | cons y ys => cases h
  | cons x xs ih =>
      cases ys with
      | nil => cases h
      | cons y ys =>
          rw [sameLists, Bool.and_eq_true] at h
          exact .cons h.1 (ih h.2)

theorem rel_of_sameOptions {α : Type} {same : α → α → Bool} {x y : Option α}
    (h : sameOptions same x y = true) : Option.Rel (fun a b => same a b = true) x y := by
  cases x with
  | none =>
      cases y with
      | none => exact .none
      | some b => cases h
  | some a =>
      cases y with
      | none => cases h
      | some b => exact .some h

/-- A value that may be missing is written alike as a member where the values are. -/
theorem Members.Alike.some?_of_same {α : Type} {same : α → α → Bool} (name : String)
    {encode : α → Json} (hsame : ∀ x y, same x y = true → (encode x).Alike (encode y))
    {x y : Option α} (h : sameOptions same x y = true) :
    Members.Alike (Members.some? name encode x) (Members.some? name encode y) := by
  cases rel_of_sameOptions h with
  | none => exact .nil
  | some hxy => exact .one name (hsame _ _ hxy)

/-- Lists whose elements are the same are written as lists that are alike. -/
theorem alike_of_sameLists {α : Type} {same : α → α → Bool} {encode : α → Json}
    (hsame : ∀ x y, same x y = true → (encode x).Alike (encode y)) {xs ys : List α}
    (h : sameLists same xs ys = true) :
    (Json.arr (xs.map encode)).Alike (.arr (ys.map encode)) := by
  apply Json.Alike.of_forall₂
  rw [List.forall₂_map_left_iff, List.forall₂_map_right_iff]
  exact (forall₂_of_sameLists h).imp hsame

namespace Assoc

variable {α : Type} {same : α → α → Bool} {m n : Assoc α}

/-- Maps that are the same have the same names and the same values under them. -/
theorem names_and_values_of_same (h : m.same same n = true) : m.keys.Perm n.keys ∧
    ∀ name x y, (name, x) ∈ m.entries → (name, y) ∈ n.entries → same x y = true := by
  rw [Assoc.same, Bool.and_eq_true, beq_iff_eq, List.all_eq_true] at h
  obtain ⟨hlength, hall⟩ := h
  have hfound : ∀ name x, (name, x) ∈ m.entries → ∃ y, n.get? name = some y ∧ same x y = true := by
    intro name x hx
    have hany := hall _ hx
    rwa [Option.any_eq_true] at hany
  constructor
  · have hsubset : m.keys ⊆ n.keys := by
      intro name hname
      obtain ⟨⟨_, x⟩, hx, rfl⟩ := List.mem_map.mp hname
      obtain ⟨y, hy, _⟩ := hfound _ x hx
      exact List.mem_map.mpr ⟨_, Assoc.mem_of_get? hy, rfl⟩
    apply (m.nodup_keys.subperm hsubset).perm_of_length_le
    rw [Assoc.keys, Assoc.keys, List.length_map, List.length_map, hlength]
  · intro name x y hx hy
    obtain ⟨z, hz, hxz⟩ := hfound name x hx
    have hentry := List.inj_on_of_nodup_map n.nodup hy (Assoc.mem_of_get? hz) rfl
    obtain rfl : y = z := congrArg Prod.snd hentry
    exact hxz

end Assoc

/-- Maps that are the same are written as objects that are alike. -/
theorem Assoc.alike_of_same {α : Type} {same : α → α → Bool} {encode : α → Json}
    (hsame : ∀ x y, same x y = true → (encode x).Alike (encode y)) {m n : Assoc α}
    (h : m.same same n = true) : (m.toJson encode).Alike (n.toJson encode) := by
  obtain ⟨hnames, hvalues⟩ := Assoc.names_and_values_of_same h
  have hkeys : ∀ o : Assoc α,
      (o.entries.map fun entry => (entry.1, encode entry.2)).map Prod.fst = o.keys := by
    intro o
    rw [List.map_map]
    rfl
  apply Json.Alike.obj
  · rw [hkeys]
    exact m.nodup_keys
  · rw [hkeys, hkeys]
    exact hnames
  · intro name x y hx hy
    simp only [List.mem_map, Prod.mk.injEq] at hx hy
    obtain ⟨⟨_, a⟩, ha, rfl, rfl⟩ := hx
    obtain ⟨⟨_, b⟩, hb, rfl, rfl⟩ := hy
    exact hsame a b (hvalues _ a b ha hb)

theorem Members.Alike.assoc? {α : Type} (name : String) (encode : Assoc α → Json) {m n : Assoc α}
    (hempty : m.isEmpty = n.isEmpty) (h : (encode m).Alike (encode n)) :
    Members.Alike (Members.assoc? name encode m) (Members.assoc? name encode n) := by
  unfold Members.assoc?
  rw [hempty]
  split
  · exact .nil
  · exact .one name h

theorem Assoc.isEmpty_of_same {α : Type} {same : α → α → Bool} {m n : Assoc α}
    (h : m.same same n = true) : m.isEmpty = n.isEmpty := by
  rw [Assoc.same, Bool.and_eq_true, beq_iff_eq] at h
  rw [Bool.eq_iff_iff, Assoc.isEmpty, Assoc.isEmpty, List.isEmpty_iff_length_eq_zero,
    List.isEmpty_iff_length_eq_zero, h.1]

theorem tags_alike_of_same {m n : Tags} (h : sameTags m n = true) :
    (tagsToJson m).Alike (tagsToJson n) := by
  apply Assoc.alike_of_same _ h
  intro x y hxy
  rw [beq_iff_eq.mp hxy]
  exact .refl _

theorem BankEntry.alike_of_same {x y : BankEntry} (h : x.same y = true) :
    x.toJson.Alike y.toJson := by
  cases x with
  | text s =>
      cases y with
      | text t =>
          rw [beq_iff_eq.mp h]
          exact .refl _
      | record n => cases h
  | record m =>
      cases y with
      | text t => cases h
      | record n => exact tags_alike_of_same h

theorem banks_alike_of_same {m n : Banks} (h : sameBanks m n = true) :
    (banksToJson m).Alike (banksToJson n) := by
  apply Assoc.alike_of_same _ h
  intro bank other hbank
  exact alike_of_sameLists (fun _ _ hentry => BankEntry.alike_of_same hentry) hbank

/-! ### Criteria -/

/-- Whether no other criterion is the same. -/
def Criterion.Settled (c : Criterion) : Prop := ∀ other, c.same other = true → other = c

theorem Binary64.eq_zero_of_isZero {x : Binary64} (h : x.isZero = true) :
    x = .zero x.negative := by
  obtain ⟨negative, exponent, fraction⟩ := x
  simp only [isZero, Bool.and_eq_true, beq_iff_eq] at h
  obtain rfl : exponent = 0 := Fin.ext h.1
  obtain rfl : fraction = 0 := Fin.ext h.2
  rfl

/-- Numbers that are the same are one number but for the sign of a zero. -/
theorem Binary64.eq_of_sameNumber {x y : Binary64} (h : x.sameNumber y = true)
    (hzero : x.isZero = false) : y = x := by
  simp only [sameNumber, hzero, Bool.false_and, Bool.or_false, Bool.and_eq_true, beq_iff_eq] at h
  exact h.2.symm

theorem Criterion.not_accepts_zero (negative : Bool) :
    ¬ Criterion.schema.Accepts (Criterion.proportion (.zero negative)).toJson := by
  have hwritten : (Criterion.proportion (.zero negative)).toJson
      = .num (.float (.zero negative)) := rfl
  have hpositive : (Binary64.zero negative).gtInt 0 = false := by
    cases negative <;> decide +kernel
  have hone : (Binary64.zero negative).geInt 1 = false := by
    cases negative <;> decide +kernel
  intro h
  have hshape := (accepts_all_cons_iff.mp h).1
  rw [hwritten, Keyword.accepts_oneOf_pair_iff] at hshape
  simp [integerFrom, Kind.holds, atLeast, above, hpositive, hone] at hshape

/-- A criterion that is accepted is the same as itself only: it is not a share of zero, whose sign
does not count. -/
theorem Criterion.settled_of_accepts {c : Criterion} (h : Criterion.schema.Accepts c.toJson) :
    c.Settled := by
  intro other hsame
  cases c with
  | streak length =>
      cases other with
      | streak n => rw [beq_iff_eq.mp hsame]
      | proportion share => cases hsame
  | proportion share =>
      cases other with
      | streak length => cases hsame
      | proportion y =>
          cases hzero : share.isZero with
          | false => rw [Binary64.eq_of_sameNumber hsame hzero]
          | true =>
              rw [Binary64.eq_zero_of_isZero hzero] at h
              exact absurd h (Criterion.not_accepts_zero _)

namespace Document

/-! ### Options and pages -/

theorem Choice.member_alike {xs ys : List Choice}
    (h : List.Forall₂ Json.Alike (Choice.toJsonList xs) (Choice.toJsonList ys)) :
    Members.Alike (Choice.member xs) (Choice.member ys) := by
  cases xs with
  | nil =>
      cases ys with
      | nil => exact .nil
      | cons y ys => cases h
  | cons x xs =>
      cases ys with
      | nil => cases h
      | cons y ys => exact .one "options" (.of_forall₂ h)

theorem tags_member_alike {m n : Tags} (h : sameTags m n = true) :
    Members.Alike (Members.assoc? "tags" tagsToJson m) (Members.assoc? "tags" tagsToJson n) :=
  .assoc? _ _ (Assoc.isEmpty_of_same h) (tags_alike_of_same h)

mutual

theorem Feedback.alike_of_same : ∀ {x y : Feedback}, x.same y = true → x.toJson.Alike y.toJson
  | .text s, .text t, h => by
      rw [Feedback.same, beq_iff_eq] at h
      rw [h]
      exact .refl _
  | .page p, .page q, h => by
      rw [Feedback.same] at h
      rw [Feedback.toJson, Feedback.toJson]
      exact Page.alike_of_same h
  | .text s, .page q, h => by simp [Feedback.same] at h
  | .page p, .text t, h => by simp [Feedback.same] at h

theorem Feedback.member_alike_of_same : ∀ {x y : Option Feedback},
    Feedback.sameOption x y = true → Members.Alike (Feedback.member x) (Feedback.member y)
  | none, none, _ => .nil
  | some x, some y, h => by
      rw [Feedback.sameOption] at h
      rw [Feedback.member, Feedback.member]
      exact .one "feedback" (Feedback.alike_of_same h)
  | none, some y, h => by simp [Feedback.sameOption] at h
  | some x, none, h => by simp [Feedback.sameOption] at h

/-- Answer options that are the same are written alike. -/
theorem Choice.alike_of_same : ∀ {c d : Choice}, c.same d = true → c.toJson.Alike d.toJson
  | ⟨id, text, correct, feedback, resources, tags⟩, ⟨_, _, _, other, _, others⟩, h => by
      simp only [Choice.same, Bool.and_eq_true, beq_iff_eq] at h
      obtain ⟨⟨⟨⟨⟨rfl, rfl⟩, rfl⟩, hfeedback⟩, rfl⟩, htags⟩ := h
      have hfeedback := Feedback.member_alike_of_same hfeedback
      apply Json.Alike.of_members (Choice.isRecord_toJson _) (Choice.isRecord_toJson _)
      simp only [Choice.toJson, Json.members]
      exact Members.Alike.refl _ |>.append hfeedback |>.append (.refl _)
        |>.append (tags_member_alike htags)

theorem Choice.alike_of_sameList : ∀ {xs ys : List Choice}, Choice.sameList xs ys = true →
    List.Forall₂ Json.Alike (Choice.toJsonList xs) (Choice.toJsonList ys)
  | [], [], _ => .nil
  | x :: xs, y :: ys, h => by
      rw [Choice.sameList, Bool.and_eq_true] at h
      rw [Choice.toJsonList, Choice.toJsonList]
      exact .cons (Choice.alike_of_same h.1) (Choice.alike_of_sameList h.2)
  | [], y :: ys, h => by simp [Choice.sameList] at h
  | x :: xs, [], h => by simp [Choice.sameList] at h

/-- Pages that are the same are written alike. -/
theorem Page.alike_of_same : ∀ {p q : Page}, p.same q = true → p.toJson.Alike q.toJson
  | ⟨id, text, choices, feedback, correct, resources, condition, tags, ordered, exclusive,
      freetext, keyboard, guard⟩, ⟨_, _, options, other, _, _, _, others, _, _, _, _, _⟩, h => by
      simp only [Page.same, Bool.and_eq_true, beq_iff_eq] at h
      obtain ⟨⟨⟨⟨⟨⟨⟨⟨⟨⟨⟨⟨rfl, rfl⟩, hchoices⟩, hfeedback⟩, rfl⟩, rfl⟩, rfl⟩, htags⟩, rfl⟩, rfl⟩,
        rfl⟩, rfl⟩, rfl⟩ := h
      have hchoices := Choice.member_alike (Choice.alike_of_sameList hchoices)
      have hfeedback := Feedback.member_alike_of_same hfeedback
      apply Json.Alike.of_members (Page.isRecord_toJson _) (Page.isRecord_toJson _)
      simp only [Page.toJson, Json.members]
      exact Members.Alike.refl _ |>.append hchoices |>.append hfeedback |>.append (.refl _)
        |>.append (.refl _) |>.append (.refl _) |>.append (tags_member_alike htags)
        |>.append (.refl _) |>.append (.refl _) |>.append (.refl _) |>.append (.refl _)
        |>.append (.refl _)

end

/-! ### Items and blocks -/

/-- Items that are the same are written alike. -/
theorem Item.alike_of_same {i j : Item} (h : i.same j = true) : i.toJson.Alike j.toJson := by
  obtain ⟨id, pages, condition, tags, guard⟩ := i
  obtain ⟨_, others, _, _, _⟩ := j
  simp only [Item.same, Bool.and_eq_true, beq_iff_eq] at h
  obtain ⟨⟨⟨⟨rfl, hpages⟩, rfl⟩, htags⟩, rfl⟩ := h
  have hpages := alike_of_sameLists (fun _ _ hpage => Page.alike_of_same hpage) hpages
  have hrecord : ∀ item : Item, item.toJson.IsRecord := fun item =>
    ⟨rfl, item.names_sublist.nodup (by decide)⟩
  apply Json.Alike.of_members (hrecord _) (hrecord _)
  exact Members.Alike.refl _ |>.append (.one "pages" hpages) |>.append (.refl _)
    |>.append (tags_member_alike htags) |>.append (.refl _)

theorem items_alike_of_same {xs ys : List Item} (h : sameLists Item.same xs ys = true) :
    (itemsToJson xs).Alike (itemsToJson ys) :=
  alike_of_sameLists (fun _ _ hitem => Item.alike_of_same hitem) h

/-- Whether the criterion of a block, if there is one, is the same as itself only. -/
def Block.CriterionSettled (block : Block) : Prop :=
  ∀ c, block.criterion = some c → c.Settled

theorem Block.CriterionSettled.eq {block : Block} (h : block.CriterionSettled)
    {other : Option Criterion} (hsame : sameOptions Criterion.same block.criterion other = true) :
    other = block.criterion := by
  have hrel := rel_of_sameOptions hsame
  generalize hc : block.criterion = criterion at hrel
  cases hrel with
  | none => rfl
  | some hcriterion => rw [h _ hc _ hcriterion]

mutual

/-- Blocks that are the same are written alike where their criteria are settled. -/
theorem Block.alike_of_same : ∀ {b c : Block}, (∀ inner ∈ b.within, inner.CriterionSettled) →
    b.same c = true → b.toJson.Alike c.toJson
  | ⟨id, pages, items, groups, blocks, exchangeable, counterbalance, latinSquare, pseudorandom,
      criterion, cutoff, guard, banks⟩,
    ⟨_, pages', items', groups', blocks', _, _, _, _, criterion', _, _, banks'⟩, hsettled, h => by
      simp only [Block.same, Bool.and_eq_true, beq_iff_eq] at h
      obtain ⟨⟨⟨⟨⟨⟨⟨⟨⟨⟨⟨⟨rfl, hpages⟩, hitems⟩, hgroups⟩, hblocks⟩, rfl⟩, rfl⟩, rfl⟩, rfl⟩,
        hcriterion⟩, rfl⟩, rfl⟩, hbanks⟩ := h
      rw [Block.within, List.forall_mem_cons] at hsettled
      obtain rfl := hsettled.1.eq hcriterion
      have hpages := Members.Alike.some?_of_same "pages"
        (fun _ _ => alike_of_sameLists fun _ _ hpage => Page.alike_of_same hpage) hpages
      have hitems := Members.Alike.some?_of_same "items"
        (fun _ _ hgroup => items_alike_of_same hgroup) hitems
      have hgroups := Members.Alike.some?_of_same "groups"
        (fun _ _ => alike_of_sameLists fun _ _ hgroup => items_alike_of_same hgroup) hgroups
      have hblocks := Block.member_alike_of_same hsettled.2 hblocks
      have hbanks := Members.Alike.assoc? "banks" banksToJson (Assoc.isEmpty_of_same hbanks)
        (banks_alike_of_same hbanks)
      apply Json.Alike.of_members (Block.isRecord_toJson _) (Block.isRecord_toJson _)
      simp only [Block.toJson, Json.members]
      exact Members.Alike.refl _ |>.append hpages |>.append hitems |>.append hgroups
        |>.append hblocks |>.append (.refl _) |>.append (.refl _) |>.append (.refl _)
        |>.append (.refl _) |>.append (.refl _) |>.append (.refl _) |>.append (.refl _)
        |>.append hbanks

/-- Child blocks that are the same are written alike, as a member where there are any. -/
theorem Block.member_alike_of_same : ∀ {xs ys : Option (List Block)},
    (∀ inner ∈ Block.withinOption xs, inner.CriterionSettled) → Block.sameOption xs ys = true →
      Members.Alike (Block.member xs) (Block.member ys)
  | none, none, _, _ => .nil
  | some xs, some ys, hsettled, h => by
      rw [Block.sameOption] at h
      rw [Block.member, Block.member]
      exact .one "blocks" (.of_forall₂ (Block.alike_of_sameList hsettled h))
  | none, some ys, _, h => by simp [Block.sameOption] at h
  | some xs, none, _, h => by simp [Block.sameOption] at h

theorem Block.alike_of_sameList : ∀ {xs ys : List Block},
    (∀ inner ∈ Block.withinList xs, inner.CriterionSettled) → Block.sameList xs ys = true →
      List.Forall₂ Json.Alike (Block.toJsonList xs) (Block.toJsonList ys)
  | [], [], _, _ => .nil
  | x :: xs, y :: ys, hsettled, h => by
      rw [Block.sameList, Bool.and_eq_true] at h
      rw [Block.withinList, List.forall_mem_append] at hsettled
      rw [Block.toJsonList, Block.toJsonList]
      exact .cons (Block.alike_of_same hsettled.1 h.1) (Block.alike_of_sameList hsettled.2 h.2)
  | [], y :: ys, _, h => by simp [Block.sameList] at h
  | x :: xs, [], _, h => by simp [Block.sameList] at h

end

/-! ### Documents -/

/-- Documents that are the same are written alike where the criteria of their blocks are settled. -/
theorem Experiment.alike_of_same {d e : Experiment}
    (hsettled : ∀ block ∈ d.allBlocks, block.CriterionSettled) (h : d.same e = true) :
    d.toJson.Alike e.toJson := by
  obtain ⟨blocks, exchangeable, counterbalance, banks⟩ := d
  obtain ⟨blocks', _, _, banks'⟩ := e
  simp only [Experiment.same, Bool.and_eq_true, beq_iff_eq] at h
  obtain ⟨⟨⟨hblocks, rfl⟩, rfl⟩, hbanks⟩ := h
  have hblocks := Block.alike_of_sameList hsettled hblocks
  have hrecord : ∀ document : Experiment, document.toJson.IsRecord := fun document =>
    ⟨rfl, by simp [Experiment.toJson, Json.names, Json.members]⟩
  apply Json.Alike.of_members (hrecord _) (hrecord _)
  exact .cons ⟨rfl, .of_forall₂ hblocks⟩ (.cons ⟨rfl, .refl _⟩ (.cons ⟨rfl, .refl _⟩
    (.cons ⟨rfl, banks_alike_of_same hbanks⟩ .nil)))

theorem Experiment.settled_of_accepts {d : Experiment} (h : runner.Accepts d.toJson) :
    ∀ block ∈ d.allBlocks, block.CriterionSettled := by
  intro block hblock c hc
  have hfits := (d.accepts_iff.mp h).1 block hblock
  exact Criterion.settled_of_accepts (hfits.own.criterion c hc)

end Document

/-! ### Texts -/

theorem Document.Experiment.eq_pretty_of_render {d : Document.Experiment} {options : EmitOptions}
    {text : String} (h : d.render options = .ok text) : text = d.toJson.pretty options.indent := by
  unfold render at h
  simp only [Outcome.bind_eq_ok_iff, Outcome.pure_eq_ok_iff] at h
  obtain ⟨_, _, rfl⟩ := h
  rfl

/-- Where one of two documents that are the same is rendered, so is the other with the same options.
The two texts hold the same value, and they are equal exactly where all objects in them list their
names in the same order. -/
theorem Document.Experiment.render_same {d e : Document.Experiment} {options : EmitOptions}
    {text : String} (hsame : d.same e = true) (h : d.render options = .ok text) :
    ∃ other, e.render options = .ok other ∧ d.toJson.sorted = e.toJson.sorted ∧
      (text = other ↔ d.toJson.nameOrders = e.toJson.nameOrders) := by
  have haccepts := checkSchema_eq_ok_iff.mp ((d.exists_render_iff options).mp ⟨text, h⟩)
  have halike := Experiment.alike_of_same (Experiment.settled_of_accepts haccepts) hsame
  have hsorted := halike.sorted_eq
  have hother : runner.Accepts e.toJson := by
    rwa [Schema.Accepts, ← hsorted]
  obtain ⟨other, hrendered⟩ :=
    (e.exists_render_iff options).mpr (checkSchema_eq_ok_iff.mpr hother)
  refine ⟨other, hrendered, hsorted, ?_⟩
  rw [eq_pretty_of_render h, eq_pretty_of_render hrendered]
  exact halike.pretty_eq_iff options.indent

/-! ### Labels in two orders -/

/-- A document of one page with labels. -/
def Document.Experiment.labelled (tags : Tags) : Document.Experiment where
  blocks := [
    { id := "body"
      pages := some [{ id := "ask", text := .single (.literal "Ready?"), tags := tags }] }]
  exchangeable := []
  counterbalance := []
  banks := .empty

theorem Document.Experiment.accepts_labelled (tags : Tags) :
    runner.Accepts (labelled tags).toJson := by
  rw [Experiment.accepts_iff]
  refine ⟨?_, by simp [labelled], by simp [labelled, Assoc.empty]⟩
  simp only [labelled, Experiment.allBlocks, Block.withinList, Block.within, Block.withinOption,
    List.append_nil, List.forall_mem_singleton]
  constructor
  · constructor <;> simp [Block.kindCount, Assoc.empty]
  · simp [Block.ownItems]
  · simp only [Block.ownPages, Block.ownItems, Option.getD_some, Option.getD_none, List.flatten_nil,
      List.append_nil, List.flatMap_nil, List.flatMap_cons, Page.within, Feedback.withinOption,
      Choice.withinList, List.forall_mem_singleton]
    constructor <;> simp [Page.ownSamples, PageText.samples, Text.samples, Feedback.ownSamples]

/-- The document is rendered, whatever its labels. -/
theorem Document.Experiment.render_labelled (tags : Tags) (options : EmitOptions) :
    (labelled tags).render options = .ok ((labelled tags).toJson.pretty options.indent) := by
  have hcheck := checkSchema_eq_ok_iff.mpr (accepts_labelled tags)
  obtain ⟨text, hrendered⟩ := ((labelled tags).exists_render_iff options).mpr hcheck
  rw [hrendered, eq_pretty_of_render hrendered]

/-- A mood and a pace. -/
def Tags.mooded : Tags := .ofList [("mood", "calm"), ("pace", "slow")]

/-- The same labels the other way round. -/
def Tags.paced : Tags := .ofList [("pace", "slow"), ("mood", "calm")]

/-- The same labels in two orders give one value. -/
theorem Document.Experiment.render_same_labelled :
    (labelled .mooded).same (labelled .paced) = true ∧
      (labelled .mooded).render {} = .ok ((labelled .mooded).toJson.pretty 4) ∧
      ∃ other, (labelled .paced).render {} = .ok other ∧
        (labelled .mooded).toJson.sorted = (labelled .paced).toJson.sorted := by
  have hsame : (labelled .mooded).same (labelled .paced) = true := by cbv
  have hrendered := render_labelled .mooded {}
  obtain ⟨other, hother, hsorted, _⟩ := render_same hsame hrendered
  exact ⟨hsame, hrendered, other, hother, hsorted⟩

/-- The same labels in two orders give two texts. -/
theorem Document.Experiment.render_labelled_ne :
    (labelled .mooded).same (labelled .paced) = true ∧
      ∃ text other, (labelled .mooded).render {} = .ok text ∧
        (labelled .paced).render {} = .ok other ∧ text ≠ other := by
  have hsame : (labelled .mooded).same (labelled .paced) = true := by cbv
  have halike := alike_of_same (settled_of_accepts (accepts_labelled .mooded)) hsame
  refine ⟨hsame, _, _, render_labelled .mooded {}, render_labelled .paced {}, ?_⟩
  rw [ne_eq, halike.pretty_eq_iff]
  decide

end Paradigm
