/-
Module: Paradigm.Proofs.Copies
Layer: Proofs
Purpose: What copies are made of. A copy takes one identifier for itself and for each node that it
  owns, feedback pages included, and no other: its nodes bear exactly the identifiers taken, and
  they are of the kinds that the nodes of the original are of, in the same places.
Imports: Paradigm.Proofs.Expansion.Minting, Paradigm.Tree.Copy
Main exports: Copies, Page.copies, Choice.copies, Item.copies, Block.copies
-/
import Paradigm.Proofs.Expansion.Minting
import Paradigm.Tree.Copy

namespace Paradigm

/-! ### Copies of nodes -/

/-- The kinds of nodes, in their order. -/
abbrev kindsOf (identities : List Identity) : List NodeKind := identities.map Prod.fst

theorem kindsOf_append (one other : List Identity) :
    kindsOf (one ++ other) = kindsOf one ++ kindsOf other := List.map_append

/-- A stretch that makes a copy of nodes: it mints one node for each of them, of its kind and in its
place. -/
structure Copied (ids ids' : IdSource) (given copy : List Identity) : Prop where
  minted : Minted ids ids' (kindsOf given) [] copy
  kinds : kindsOf copy = kindsOf given

namespace Copied

variable {ids ids₁ ids₂ : IdSource} {given given' copy copy' : List Identity}

theorem nil (ids : IdSource) : Copied ids ids [] [] := ⟨.none (.refl _), rfl⟩

theorem one (ids : IdSource) (kind : NodeKind) (id : String) :
    Copied ids ids.next.2 [(kind, id)] [(kind, ids.next.1)] :=
  ⟨.one ids kind, rfl⟩

theorem append (first : Copied ids ids₁ given copy) (second : Copied ids₁ ids₂ given' copy') :
    Copied ids ids₂ (given ++ given') (copy ++ copy') where
  minted := by
    rw [kindsOf_append]
    exact first.minted.append second.minted
  kinds := by
    rw [kindsOf_append, kindsOf_append, first.kinds, second.kinds]

/-- What is copied first may stand last. -/
theorem append_swap (first : Copied ids ids₁ given copy) (second : Copied ids₁ ids₂ given' copy') :
    Copied ids ids₂ (given' ++ given) (copy' ++ copy) where
  minted := by
    apply (first.minted.append second.minted).perm
    · rw [kindsOf_append]
      exact List.perm_append_comm
    · exact .refl _
    · exact List.perm_append_comm
  kinds := by
    rw [kindsOf_append, kindsOf_append, first.kinds, second.kinds]

end Copied

/-- Steps that copy the nodes that they are given. -/
def Copies {α : Type} (step : α → Issuing α) (nodes : α → List Identity) : Prop :=
  ∀ x ids, Copied ids (step x ids).2 (nodes x) (nodes (step x ids).1)

section Copies

variable {α : Type} {step : α → Issuing α} {nodes : α → List Identity}

theorem Copies.mapM (h : Copies step nodes) :
    Copies (fun xs : List α => xs.mapM step) (·.flatMap nodes) := by
  intro xs
  induction xs with
  | nil => exact fun ids => .nil ids
  | cons x rest ih =>
      intro ids
      show Copied ids ((x :: rest).mapM step ids).2 ((x :: rest).flatMap nodes)
        (((x :: rest).mapM step ids).1.flatMap nodes)
      rw [Issuing.mapM_cons_run, List.flatMap_cons, List.flatMap_cons]
      exact (h x ids).append (ih _)

/-- Contents that may be missing are copied where they are there. -/
theorem Copies.contents (h : Copies step nodes) :
    Copies (copyOption fun xs : List α => xs.mapM step) (fun xs => (xs.getD []).flatMap nodes) := by
  intro xs ids
  cases xs with
  | none => exact .nil ids
  | some xs => exact Copies.mapM h xs ids

end Copies

/-! ### Pages -/

theorem Choice.copy_run (choice : Choice) (ids : IdSource) :
    choice.copy ids =
      let shown := Feedback.copyOption choice.feedback ids.next.2
      ({ choice with id := ids.next.1, feedback := shown.1 }, shown.2) := by
  cases choice
  rw [Choice.copy]
  rfl

theorem Choice.copyList_cons_run (choice : Choice) (rest : List Choice) (ids : IdSource) :
    Choice.copyList (choice :: rest) ids =
      let first := choice.copy ids
      let others := Choice.copyList rest first.2
      (first.1 :: others.1, others.2) := by
  rw [Choice.copyList]
  rfl

theorem Page.copy_run (page : Page) (ids : IdSource) :
    page.copy ids =
      let options := Choice.copyList page.choices ids.next.2
      let shown := Feedback.copyOption page.feedback options.2
      ({ page with id := ids.next.1, choices := options.1, feedback := shown.1 }, shown.2) := by
  cases page
  rw [Page.copy]
  rfl

mutual

theorem Feedback.copies : ∀ (feedback : Feedback) (ids : IdSource),
    Copied ids (feedback.copy ids).2 feedback.identities (feedback.copy ids).1.identities
  | .text label, ids => by
      rw [Feedback.copy]
      exact .nil ids
  | .page shown, ids => by
      rw [Feedback.copy]
      exact Page.copies shown ids

theorem Feedback.copies_option : ∀ (feedback : Option Feedback) (ids : IdSource),
    Copied ids (Feedback.copyOption feedback ids).2 (Feedback.identitiesOption feedback)
      (Feedback.identitiesOption (Feedback.copyOption feedback ids).1)
  | none, ids => by
      rw [Feedback.copyOption]
      exact .nil ids
  | some feedback, ids => by
      rw [Feedback.copyOption]
      exact Feedback.copies feedback ids

/-- An option is copied with its feedback. -/
theorem Choice.copies : ∀ (choice : Choice) (ids : IdSource),
    Copied ids (choice.copy ids).2 choice.identities (choice.copy ids).1.identities
  | ⟨id, _, _, feedback, _, _⟩, ids => by
      rw [Choice.copy_run]
      simp only [Choice.identities]
      exact (Copied.one ids .choice id).append (Feedback.copies_option feedback ids.next.2)

theorem Choice.copies_list : ∀ (choices : List Choice) (ids : IdSource),
    Copied ids (Choice.copyList choices ids).2 (Choice.identitiesList choices)
      (Choice.identitiesList (Choice.copyList choices ids).1)
  | [], ids => by
      rw [Choice.copyList]
      exact .nil ids
  | choice :: rest, ids => by
      rw [Choice.copyList_cons_run]
      simp only [Choice.identitiesList]
      exact (Choice.copies choice ids).append (Choice.copies_list rest _)

/-- A page is copied with its options and its feedback. -/
theorem Page.copies : ∀ (page : Page) (ids : IdSource),
    Copied ids (page.copy ids).2 page.identities (page.copy ids).1.identities
  | ⟨id, _, choices, feedback, _, _, _, _, _, _, _, _, _⟩, ids => by
      rw [Page.copy_run]
      simp only [Page.identities, List.cons_append]
      -- Options are copied before feedback, and stand after it.
      exact (Copied.one ids .page id).append
        ((Choice.copies_list choices ids.next.2).append_swap (Feedback.copies_option feedback _))

end

/-! ### Items and blocks -/

theorem ItemContents.copies (item : Item) (ids : IdSource) :
    Copied ids (item.contents.copy ids).2 (item.pages.flatMap Page.identities)
      (Item.pages { item with contents := (item.contents.copy ids).1 } |>.flatMap
        Page.identities) := by
  unfold Item.pages
  cases item.contents with
  | text label => exact .nil ids
  | page single =>
      show Copied ids (single.copy ids).2 ([single].flatMap Page.identities)
        ([(single.copy ids).1].flatMap Page.identities)
      rw [List.flatMap_singleton, List.flatMap_singleton]
      exact Page.copies single ids
  | pages several => exact Copies.mapM Page.copies several ids

theorem Item.copy_run (item : Item) (ids : IdSource) :
    item.copy ids = ({ item with id := ids.next.1, contents := (item.contents.copy ids.next.2).1 },
      (item.contents.copy ids.next.2).2) := rfl

/-- An item is copied with its pages. -/
theorem Item.copies (item : Item) (ids : IdSource) :
    Copied ids (item.copy ids).2 item.identities (item.copy ids).1.identities :=
  (Copied.one ids .item item.id).append (ItemContents.copies item ids.next.2)

theorem Block.copy_run (block : Block) (ids : IdSource) :
    block.copy ids =
      let children := Block.copyChildren block.blocks ids.next.2
      let names := copyNames (block.blocks.getD []) (children.1.getD [])
      let pages := copyOption (·.mapM Page.copy) block.pages children.2
      let items := copyOption (·.mapM Item.copy) block.items pages.2
      let groups := copyOption (·.mapM (·.mapM Item.copy)) block.groups items.2
      ({ block with
          id := ids.next.1, pages := pages.1, items := items.1, groups := groups.1
          blocks := children.1
          exchangeable := renameAll names block.exchangeable
          counterbalance := renameAll names block.counterbalance
          treatments := block.treatments.map (renameAll names) }, groups.2) := by
  cases block
  rw [Block.copy]
  rfl

theorem Block.copyList_cons_run (block : Block) (rest : List Block) (ids : IdSource) :
    Block.copyList (block :: rest) ids =
      let first := block.copy ids
      let others := Block.copyList rest first.2
      (first.1 :: others.1, others.2) := by
  rw [Block.copyList]
  rfl

mutual

/-- A block is copied with all that it contains. -/
theorem Block.copies : ∀ (block : Block) (ids : IdSource),
    Copied ids (block.copy ids).2 block.identities (block.copy ids).1.identities
  | ⟨id, pages, items, groups, blocks, _, _, _, _, _, _, _, _, _⟩, ids => by
      have hchildren := Block.copies_children blocks ids.next.2
      have hpages := Copies.contents Page.copies pages (Block.copyChildren blocks ids.next.2).2
      rw [Block.copy_run]
      simp only at hpages ⊢
      generalize copyOption (·.mapM Page.copy) pages (Block.copyChildren blocks ids.next.2).2
        = pages' at hpages ⊢
      have hitems := Copies.contents Item.copies items pages'.2
      simp only at hitems
      generalize copyOption (·.mapM Item.copy) items pages'.2 = items' at hitems ⊢
      have hgroups := Copies.contents (Copies.mapM Item.copies) groups items'.2
      simp only [← flatMap_flatten_eq] at hgroups
      simp only [Block.identities, List.cons_append, List.append_assoc]
      -- Child blocks are copied first, and stand last.
      have hown := hpages.append (hitems.append hgroups)
      have hall := hchildren.append_swap hown
      simp only [List.append_assoc] at hall
      exact (Copied.one ids .block id).append hall

theorem Block.copies_children : ∀ (blocks : Option (List Block)) (ids : IdSource),
    Copied ids (Block.copyChildren blocks ids).2 (Block.identitiesOption blocks)
      (Block.identitiesOption (Block.copyChildren blocks ids).1)
  | none, ids => by
      rw [Block.copyChildren]
      exact .nil ids
  | some blocks, ids => by
      rw [Block.copyChildren]
      exact Block.copies_list blocks ids

theorem Block.copies_list : ∀ (blocks : List Block) (ids : IdSource),
    Copied ids (Block.copyList blocks ids).2 (Block.identitiesList blocks)
      (Block.identitiesList (Block.copyList blocks ids).1)
  | [], ids => by
      rw [Block.copyList]
      exact .nil ids
  | block :: rest, ids => by
      rw [Block.copyList_cons_run]
      simp only [Block.identitiesList]
      exact (Block.copies block ids).append (Block.copies_list rest _)

end

end Paradigm
