/-
Module: Paradigm.Proofs.Relabelling.Names
Layer: Proofs
Purpose: The names in a tree, each with the kind of node that it is a name of: the identifiers of
  its nodes, and those by which guards and lists refer to nodes. A relabelling that keeps all names
  of a tree keeps the tree.
Imports: Paradigm.Proofs.Relabelling
Main exports: Experiment.names, Relabelling.Keeps, Experiment.relabel_eq_self
-/
import Paradigm.Proofs.Relabelling

namespace Paradigm

/-! ### The names in a tree -/

/-- The names that a guard refers by. -/
def Guard.names (g : Guard) : List Identity :=
  (g.item.map fun handle => (.item, handle.id)).toList ++ (g.page.map (.page, ·)).toList
    ++ (g.choice.map (.choice, ·)).toList

mutual

def Feedback.names : Feedback → List Identity
  | .text _ => []
  | .page shown => shown.names

def Feedback.namesOption : Option Feedback → List Identity
  | none => []
  | some feedback => feedback.names

/-- The names in an answer option. -/
def Choice.names : Choice → List Identity
  | { id, feedback, .. } => (.choice, id) :: Feedback.namesOption feedback

def Choice.namesList : List Choice → List Identity
  | [] => []
  | choice :: rest => choice.names ++ Choice.namesList rest

/-- The names in a page: its own, those of its options and feedback, and those in its guard. -/
def Page.names : Page → List Identity
  | { id, choices, feedback, guard, .. } =>
    (.page, id) :: Choice.namesList choices ++ Feedback.namesOption feedback
      ++ guard.toList.flatMap Guard.names

end

/-- The names in an item. -/
def Item.names (item : Item) : List Identity :=
  (.item, item.id) :: item.pages.flatMap Page.names ++ item.guard.toList.flatMap Guard.names

mutual

/-- The names in a block: its own, those in its contents, those of its lists and its guard. -/
def Block.names : Block → List Identity
  | { id, pages, items, groups, blocks, exchangeable, counterbalance, treatments, guard, .. } =>
    (.block, id) :: (pages.getD []).flatMap Page.names ++ (items.getD []).flatMap Item.names
      ++ (groups.getD []).flatten.flatMap Item.names ++ Block.namesOption blocks
      ++ exchangeable.map (.block, ·) ++ counterbalance.map (.block, ·)
      ++ treatments.flatten.map (.block, ·) ++ guard.toList.flatMap Guard.names

def Block.namesOption : Option (List Block) → List Identity
  | none => []
  | some blocks => Block.namesList blocks

def Block.namesList : List Block → List Identity
  | [] => []
  | block :: rest => block.names ++ Block.namesList rest

end

/-- The names in an experiment. -/
def Experiment.names (e : Experiment) : List Identity :=
  Block.namesList e.blocks ++ e.exchangeable.map (.block, ·) ++ e.counterbalance.map (.block, ·)
    ++ e.treatments.flatten.map (.block, ·)

/-! ### Relabellings that keep a tree -/

/-- A relabelling that keeps a name; the name of an option it keeps also where it is stray. -/
structure Relabelling.Keeps (r : Relabelling) (identity : Identity) : Prop where
  name : r.name identity.1 identity.2 = identity.2
  stray : identity.1 = .choice → r.stray identity.2 = identity.2

section Kept

variable {r : Relabelling}

theorem map_eq_self {α : Type} {change : α → α} {xs : List α} (h : ∀ x ∈ xs, change x = x) :
    xs.map change = xs := by
  induction xs with
  | nil => rfl
  | cons x rest ih =>
      obtain ⟨hx, hrest⟩ := List.forall_mem_cons.mp h
      rw [List.map_cons, hx, ih hrest]

theorem option_map_eq_self {α : Type} {change : α → α} {x : Option α}
    (h : ∀ value ∈ x.toList, change value = value) : x.map change = x := by
  cases x with
  | none => rfl
  | some value => rw [Option.map_some, h value (by simp)]

theorem Guard.relabel_eq_self {g : Guard} (h : ∀ name ∈ g.names, r.Keeps name) :
    g.relabel r = g := by
  obtain ⟨item, page, choice, regex, permutation⟩ := g
  simp only [Guard.names, List.forall_mem_append] at h
  obtain ⟨⟨hitem, hpage⟩, hchoice⟩ := h
  have hitem' : item.map (ItemHandle.relabel r) = item := by
    cases item with
    | none => rfl
    | some handle => simp [ItemHandle.relabel, (hitem (.item, handle.id) (by simp)).name]
  have hpage' : page.map (r.name .page) = page := by
    cases page with
    | none => rfl
    | some page => simp [(hpage (.page, page) (by simp)).name]
  have hchoice' : ∀ f, (f = r.name .choice ∨ f = r.stray) → choice.map f = choice := by
    rintro f hf
    cases choice with
    | none => rfl
    | some choice =>
        have hkept := hchoice (.choice, choice) (by simp)
        rcases hf with rfl | rfl
        · exact congrArg some hkept.name
        · exact congrArg some (hkept.stray rfl)
  rw [Guard.relabel, hitem', hpage', hchoice']
  split
  · exact .inl rfl
  · exact .inr rfl

theorem Guard.relabel_option_eq_self {g : Option Guard}
    (h : ∀ name ∈ g.toList.flatMap Guard.names, r.Keeps name) :
    g.map (Guard.relabel r) = g := by
  rw [List.forall_mem_flatMap] at h
  apply option_map_eq_self
  intro guard hguard
  exact Guard.relabel_eq_self (h guard hguard)

mutual

theorem Feedback.relabel_eq_self : ∀ {feedback : Feedback},
    (∀ name ∈ feedback.names, r.Keeps name) → feedback.relabel r = feedback
  | .text label, _ => by rw [Feedback.relabel]
  | .page shown, h => by
      rw [Feedback.names] at h
      rw [Feedback.relabel, Page.relabel_eq_self h]

theorem Feedback.relabelOption_eq_self : ∀ {feedback : Option Feedback},
    (∀ name ∈ Feedback.namesOption feedback, r.Keeps name) →
      Feedback.relabelOption r feedback = feedback
  | none, _ => by rw [Feedback.relabelOption]
  | some feedback, h => by
      rw [Feedback.namesOption] at h
      rw [Feedback.relabelOption, Feedback.relabel_eq_self h]

theorem Choice.relabel_eq_self : ∀ {choice : Choice},
    (∀ name ∈ choice.names, r.Keeps name) → choice.relabel r = choice
  | ⟨id, text, correct, feedback, resources, tags⟩, h => by
      rw [Choice.names, List.forall_mem_cons] at h
      rw [Choice.relabel, Feedback.relabelOption_eq_self h.2, h.1.name]

theorem Choice.relabelList_eq_self : ∀ {choices : List Choice},
    (∀ name ∈ Choice.namesList choices, r.Keeps name) → Choice.relabelList r choices = choices
  | [], _ => by rw [Choice.relabelList]
  | choice :: rest, h => by
      rw [Choice.namesList, List.forall_mem_append] at h
      rw [Choice.relabelList, Choice.relabel_eq_self h.1, Choice.relabelList_eq_self h.2]

/-- A relabelling that keeps the names in a page keeps the page. -/
theorem Page.relabel_eq_self : ∀ {page : Page},
    (∀ name ∈ page.names, r.Keeps name) → page.relabel r = page
  | ⟨id, text, choices, feedback, correct, resources, condition, tags, ordered, exclusive,
      freetext, keyboard, guard⟩, h => by
      simp only [Page.names, List.cons_append, List.forall_mem_cons, List.forall_mem_append] at h
      obtain ⟨hid, ⟨hchoices, hfeedback⟩, hguard⟩ := h
      rw [Page.relabel, Choice.relabelList_eq_self hchoices,
        Feedback.relabelOption_eq_self hfeedback, Guard.relabel_option_eq_self hguard, hid.name]

end

theorem Page.map_relabel_eq_self {pages : List Page}
    (h : ∀ name ∈ pages.flatMap Page.names, r.Keeps name) :
    pages.map (Page.relabel r) = pages := by
  rw [List.forall_mem_flatMap] at h
  apply map_eq_self
  intro page hpage
  exact Page.relabel_eq_self (h page hpage)

theorem Item.relabel_eq_self {item : Item} (h : ∀ name ∈ item.names, r.Keeps name) :
    item.relabel r = item := by
  simp only [Item.names, List.cons_append, List.forall_mem_cons, List.forall_mem_append] at h
  obtain ⟨hid, hpages, hguard⟩ := h
  obtain ⟨id, contents, condition, tags, guard⟩ := item
  have hcontents : contents.relabel r = contents := by
    cases contents with
    | text label => rfl
    | page single =>
        have hsingle := Page.map_relabel_eq_self hpages
        simp only [Item.pages, List.map_cons, List.map_nil, List.cons.injEq, and_true] at hsingle
        rw [ItemContents.relabel, hsingle]
    | pages several =>
        have hseveral : several.map (Page.relabel r) = several := Page.map_relabel_eq_self hpages
        rw [ItemContents.relabel, hseveral]
  rw [Item.relabel, hid.name, hcontents, Guard.relabel_option_eq_self hguard]

theorem Item.map_relabel_eq_self {items : List Item}
    (h : ∀ name ∈ items.flatMap Item.names, r.Keeps name) :
    items.map (Item.relabel r) = items := by
  rw [List.forall_mem_flatMap] at h
  apply map_eq_self
  intro item hitem
  exact Item.relabel_eq_self (h item hitem)

/-- References to blocks that a relabelling keeps. -/
theorem map_references_eq_self {references : List String}
    (h : ∀ name ∈ references.map (fun id => ((.block, id) : Identity)), r.Keeps name) :
    references.map (r.name .block) = references := by
  rw [List.forall_mem_map] at h
  exact map_eq_self fun id hid => (h id hid).name

theorem map_treatments_eq_self {treatments : List (List String)}
    (h : ∀ name ∈ treatments.flatten.map (fun id => ((.block, id) : Identity)), r.Keeps name) :
    treatments.map (List.map (r.name .block)) = treatments := by
  rw [List.forall_mem_map] at h
  apply map_eq_self
  intro sublist hsublist
  apply map_eq_self
  intro id hid
  exact (h id (List.mem_flatten.mpr ⟨sublist, hsublist, hid⟩)).name

theorem Item.map_groups_relabel_eq_self {groups : List (List Item)}
    (h : ∀ name ∈ groups.flatten.flatMap Item.names, r.Keeps name) :
    groups.map (List.map (Item.relabel r)) = groups := by
  rw [List.forall_mem_flatMap] at h
  apply map_eq_self
  intro group hgroup
  apply map_eq_self
  intro item hitem
  exact Item.relabel_eq_self (h item (List.mem_flatten.mpr ⟨group, hgroup, hitem⟩))

/-- A list of nodes that may be missing is kept where the list is. -/
theorem map_contents_eq_self {α : Type} {change : List α → List α} {keeps : List α → Prop}
    (hkept : ∀ xs, keeps xs → change xs = xs) {xs : Option (List α)} (h : keeps (xs.getD [])) :
    xs.map change = xs := by
  cases xs with
  | none => rfl
  | some xs => exact congrArg some (hkept xs h)

mutual

/-- A relabelling that keeps the names in a block keeps the block. -/
theorem Block.relabel_eq_self : ∀ {block : Block},
    (∀ name ∈ block.names, r.Keeps name) → block.relabel r = block
  | ⟨id, pages, items, groups, blocks, exchangeable, counterbalance, treatments, latinSquare,
      pseudorandom, criterion, cutoff, guard, banks⟩, h => by
      simp only [Block.names, List.cons_append, List.forall_mem_cons, List.forall_mem_append] at h
      obtain ⟨hid, ⟨⟨⟨⟨⟨⟨⟨hpages, hitems⟩, hgroups⟩, hblocks⟩, hexchangeable⟩, hcounterbalance⟩,
        htreatments⟩, hguard⟩⟩ := h
      rw [Block.relabel, Block.relabelOption_eq_self hblocks, map_references_eq_self hexchangeable,
        map_references_eq_self hcounterbalance, map_treatments_eq_self htreatments,
        Guard.relabel_option_eq_self hguard, hid.name,
        map_contents_eq_self (fun _ => Page.map_relabel_eq_self) hpages,
        map_contents_eq_self (fun _ => Item.map_relabel_eq_self) hitems,
        map_contents_eq_self (fun _ => Item.map_groups_relabel_eq_self) hgroups]

theorem Block.relabelOption_eq_self : ∀ {blocks : Option (List Block)},
    (∀ name ∈ Block.namesOption blocks, r.Keeps name) → Block.relabelOption r blocks = blocks
  | none, _ => by rw [Block.relabelOption]
  | some blocks, h => by
      rw [Block.namesOption] at h
      rw [Block.relabelOption, Block.relabelList_eq_self h]

theorem Block.relabelList_eq_self : ∀ {blocks : List Block},
    (∀ name ∈ Block.namesList blocks, r.Keeps name) → Block.relabelList r blocks = blocks
  | [], _ => by rw [Block.relabelList]
  | block :: rest, h => by
      rw [Block.namesList, List.forall_mem_append] at h
      rw [Block.relabelList, Block.relabel_eq_self h.1, Block.relabelList_eq_self h.2]

end

/-- A relabelling that keeps the names in a tree keeps the tree. -/
theorem Experiment.relabel_eq_self {e : Experiment} (h : ∀ name ∈ e.names, r.Keeps name) :
    e.relabel r = e := by
  simp only [Experiment.names, List.forall_mem_append] at h
  obtain ⟨⟨⟨hblocks, hexchangeable⟩, hcounterbalance⟩, htreatments⟩ := h
  rw [Experiment.relabel, ← Block.relabelList_eq, Block.relabelList_eq_self hblocks,
    map_references_eq_self hexchangeable, map_references_eq_self hcounterbalance,
    map_treatments_eq_self htreatments]

end Kept

end Paradigm
