/-
Module: Paradigm.Proofs.Resolution.Nodes
Layer: Proofs
Purpose: The nodes of a document are those of the expanded tree: they have the same identities in
  the same order, and each block, item and page of the document, wherever it stands, is resolved
  from the node of the tree in its place.
Imports: Paradigm.Proofs.Resolution, Paradigm.Proofs.Tree.Nodes
Main exports: Page.Resolved.identities_eq, Page.Resolved.within, Block.Resolved.ownItems,
  Block.Resolved.ownPages, Block.Resolved.within, Experiment.Resolved.identities_eq,
  Experiment.Resolved.allBlocks, Experiment.Resolved.allItems, Experiment.Resolved.mem_everyPage
-/
import Paradigm.Proofs.Resolution
import Paradigm.Proofs.Tree.Nodes

namespace Paradigm

/-! ### Related lists -/

section Related

variable {α β γ : Type} {rel : α → β → Prop}

theorem exists_left_of_forall₂ {xs : List α} {ys : List β} (h : List.Forall₂ rel xs ys) :
    ∀ y ∈ ys, ∃ x ∈ xs, rel x y := by
  induction h with
  | nil => simp
  | cons hhead _ ih =>
      intro y hy
      rcases List.mem_cons.mp hy with rfl | hy
      · exact ⟨_, List.mem_cons_self, hhead⟩
      · obtain ⟨x, hx, hrel⟩ := ih y hy
        exact ⟨x, List.mem_cons_of_mem _ hx, hrel⟩

theorem exists_right_of_forall₂ {xs : List α} {ys : List β} (h : List.Forall₂ rel xs ys) :
    ∀ x ∈ xs, ∃ y ∈ ys, rel x y :=
  exists_left_of_forall₂ h.flip

theorem flatMap_eq_of_forall₂ {f : α → List γ} {g : β → List γ} {xs : List α} {ys : List β}
    (h : List.Forall₂ rel xs ys) (heq : ∀ x y, rel x y → g y = f x) :
    ys.flatMap g = xs.flatMap f := by
  induction h with
  | nil => rfl
  | cons hhead _ ih => rw [List.flatMap_cons, List.flatMap_cons, heq _ _ hhead, ih]

theorem map_eq_of_forall₂ {f : α → γ} {g : β → γ} {xs : List α} {ys : List β}
    (h : List.Forall₂ rel xs ys) (heq : ∀ x y, rel x y → g y = f x) : ys.map g = xs.map f := by
  rw [List.map_eq_flatMap, List.map_eq_flatMap]
  apply flatMap_eq_of_forall₂ h
  intro x y hrel
  rw [heq x y hrel]

theorem forall_mem_flatMap_of_forall₂ {read : β → List γ}
    {P : γ → Prop} {xs : List α} {ys : List β} (h : List.Forall₂ rel xs ys)
    (hrel : ∀ x y, rel x y → ∀ z ∈ read y, P z) : ∀ z ∈ ys.flatMap read, P z := by
  rw [List.forall_mem_flatMap]
  intro y hy
  obtain ⟨x, _, hxy⟩ := exists_left_of_forall₂ h y hy
  exact hrel x y hxy

/-- Two relations of lists, one after the other, relate the ends. -/
theorem forall₂_comp {next : β → γ → Prop} {both : α → γ → Prop} {xs : List α} {ys : List β}
    {zs : List γ} (h : List.Forall₂ rel xs ys) (hnext : List.Forall₂ next ys zs)
    (hboth : ∀ x y z, rel x y → next y z → both x z) : List.Forall₂ both xs zs := by
  induction h generalizing zs with
  | nil =>
      cases hnext
      exact .nil
  | cons hhead _ ih =>
      cases hnext with
      | cons hfirst hrest => exact .cons (hboth _ _ _ hhead hfirst) (ih hrest)

theorem forall₂_getD {xs : Option (List α)} {ys : Option (List β)}
    (h : Option.Rel (List.Forall₂ rel) xs ys) : List.Forall₂ rel (xs.getD []) (ys.getD []) := by
  cases h with
  | none => exact .nil
  | some h => exact h

theorem isSome_eq_of_rel {x : Option α} {y : Option β}
    (h : Option.Rel rel x y) : y.isSome = x.isSome := by
  cases h <;> rfl

end Related

/-! ### Pages -/

section Nodes

variable {index : Index}

mutual

theorem Feedback.Resolved.identities_eq : ∀ {feedback : Feedback} {shown : Document.Feedback},
    feedback.Resolved index shown → shown.identities = feedback.identities
  | _, _, .text _ => rfl
  | _, _, .page page => by
      rw [Document.Feedback.identities, Feedback.identities]
      exact page.identities_eq

theorem Feedback.ResolvedOption.identities_eq : ∀ {feedback : Option Feedback}
    {shown : Option Document.Feedback}, Feedback.ResolvedOption index feedback shown →
      Document.Feedback.identitiesOption shown = Feedback.identitiesOption feedback
  | _, _, .none => rfl
  | _, _, .some feedback => by
      rw [Document.Feedback.identitiesOption, Feedback.identitiesOption]
      exact feedback.identities_eq

theorem Choice.Resolved.identities_eq : ∀ {choice : Choice} {shown : Document.Choice},
    choice.Resolved index shown → shown.identities = choice.identities
  | ⟨_, _, _, _, _, _⟩, _, .mk _ _ feedbacks _ => by
      rw [Document.Choice.identities, Choice.identities, feedbacks.identities_eq]

theorem Choice.ResolvedList.identities_eq : ∀ {choices : List Choice}
    {shown : List Document.Choice}, Choice.ResolvedList index choices shown →
      Document.Choice.identitiesList shown = Choice.identitiesList choices
  | _, _, .nil => rfl
  | _, _, .cons head tail => by
      rw [Document.Choice.identitiesList, Choice.identitiesList, head.identities_eq,
        tail.identities_eq]

/-- A page of the document has the identities of its page in the tree. -/
theorem Page.Resolved.identities_eq : ∀ {page : Page} {shown : Document.Page},
    page.Resolved index shown → shown.identities = page.identities
  | ⟨_, _, _, _, _, _, _, _, _, _, _, _, _⟩, _, .mk _ _ options feedbacks _ _ _ => by
      rw [Document.Page.identities, Page.identities, feedbacks.identities_eq,
        options.identities_eq]

end

mutual

theorem Feedback.Resolved.within : ∀ {feedback : Feedback} {shown : Document.Feedback},
    feedback.Resolved index shown → List.Forall₂ (Page.Resolved index) feedback.within shown.within
  | _, _, .text _ => .nil
  | _, _, .page page => by
      rw [Feedback.within, Document.Feedback.within]
      exact page.within

theorem Feedback.ResolvedOption.within : ∀ {feedback : Option Feedback}
    {shown : Option Document.Feedback}, Feedback.ResolvedOption index feedback shown →
      List.Forall₂ (Page.Resolved index) (Feedback.withinOption feedback)
        (Document.Feedback.withinOption shown)
  | _, _, .none => .nil
  | _, _, .some feedback => by
      rw [Feedback.withinOption, Document.Feedback.withinOption]
      exact feedback.within

theorem Choice.ResolvedList.within : ∀ {choices : List Choice} {shown : List Document.Choice},
    Choice.ResolvedList index choices shown →
      List.Forall₂ (Page.Resolved index) (Choice.withinList choices)
        (Document.Choice.withinList shown)
  | _, _, .nil => .nil
  | ⟨_, _, _, _, _, _⟩ :: _, _, .cons (.mk _ _ feedbacks _) tail => by
      rw [Choice.withinList, Document.Choice.withinList]
      exact List.rel_append feedbacks.within tail.within

/-- A page of the document and the feedback pages in it are resolved, in order, from the page of the
tree and those in it. -/
theorem Page.Resolved.within : ∀ {page : Page} {shown : Document.Page},
    page.Resolved index shown → List.Forall₂ (Page.Resolved index) page.within shown.within
  | ⟨_, _, _, _, _, _, _, _, _, _, _, _, _⟩, _,
      .mk checked texts options feedbacks files conditions guards => by
      rw [Page.within, Document.Page.within, List.cons_append, List.cons_append]
      apply List.Forall₂.cons
      · exact .mk checked texts options feedbacks files conditions guards
      · exact List.rel_append feedbacks.within options.within

end

/-- The answer options of a page of the document are resolved in order. -/
theorem Choice.ResolvedList.forall₂ : ∀ {choices : List Choice} {shown : List Document.Choice},
    Choice.ResolvedList index choices shown →
      List.Forall₂ (Choice.Resolved index) choices shown
  | _, _, .nil => .nil
  | _, _, .cons head tail => .cons head tail.forall₂

theorem Choice.Resolved.id_eq {choice : Choice} {shown : Document.Choice}
    (h : choice.Resolved index shown) : shown.id = choice.id := by
  cases h
  rfl

theorem Page.Resolved.id_eq {page : Page} {shown : Document.Page} (h : page.Resolved index shown) :
    shown.id = page.id := by
  cases h
  rfl

theorem Page.Resolved.choices {page : Page} {shown : Document.Page}
    (h : page.Resolved index shown) :
    List.Forall₂ (Choice.Resolved index) page.choices shown.choices := by
  cases h with
  | mk checked texts options feedbacks files conditions guards => exact options.forall₂

/-- The feedback pages in a page of the document are resolved in order. -/
theorem Page.Resolved.feedbackPages {page : Page} {shown : Document.Page}
    (h : page.Resolved index shown) :
    List.Forall₂ (Page.Resolved index) page.feedbackPages shown.feedbackPages := by
  cases h with
  | mk checked texts options feedbacks files conditions guards =>
      exact List.rel_append feedbacks.within options.within

/-! ### Items and blocks -/

theorem Item.Resolved.identities_eq {item : Item} {shown : Document.Item}
    (h : item.Resolved index shown) : shown.identities = item.identities := by
  cases h with
  | mk checked contents conditions guards =>
      have hpages := flatMap_eq_of_forall₂ contents fun _ _ => Page.Resolved.identities_eq
      exact congrArg ((NodeKind.item, item.id) :: ·) hpages

/-- The pages of an item of the document are resolved in order. -/
theorem Item.Resolved.pages {item : Item} {shown : Document.Item}
    (h : item.Resolved index shown) :
    List.Forall₂ (Page.Resolved index) item.pages shown.pages := by
  cases h with
  | mk checked contents conditions guards => exact contents

/-- The items of a block of the document, those in groups included, are resolved in order. -/
theorem Block.Resolved.ownItems {block : Block} {shown : Document.Block}
    (h : block.Resolved index shown) :
    List.Forall₂ (Item.Resolved index) block.ownItems shown.ownItems := by
  cases h with
  | mk checked ofPages ofItems ofGroups children guards shape served =>
      subst shape
      exact List.rel_append (forall₂_getD ofItems) (List.rel_flatten (forall₂_getD ofGroups))

/-- The pages of a block of the document and of its items are resolved in order. -/
theorem Block.Resolved.ownPages {block : Block} {shown : Document.Block}
    (h : block.Resolved index shown) :
    List.Forall₂ (Page.Resolved index) block.ownPages shown.ownPages := by
  have hitems := h.ownItems
  cases h with
  | mk checked ofPages ofItems ofGroups children guards shape served =>
      subst shape
      exact List.rel_append (forall₂_getD ofPages)
        (List.rel_flatMap hitems fun _ _ => Item.Resolved.pages)

mutual

/-- A block of the document has the identities of its block in the tree. -/
theorem Block.Resolved.identities_eq : ∀ {block : Block} {shown : Document.Block},
    block.Resolved index shown → shown.identities = block.identities
  | ⟨_, _, _, _, _, _, _, _, _, _, _, _, _, _⟩, _, h => by
      have hitems := flatMap_eq_of_forall₂ h.ownItems fun _ _ => Item.Resolved.identities_eq
      cases h with
      | mk checked ofPages ofItems ofGroups children guards shape served =>
          have hpages :=
            flatMap_eq_of_forall₂ (forall₂_getD ofPages) fun _ _ => Page.Resolved.identities_eq
          subst shape
          rw [Document.Block.identities, Block.identities, hitems, hpages, Block.ownItems,
            List.flatMap_append, children.identities_eq]
          simp

theorem Block.ResolvedOption.identities_eq : ∀ {blocks : Option (List Block)}
    {shown : Option (List Document.Block)}, Block.ResolvedOption index blocks shown →
      Document.Block.identitiesOption shown = Block.identitiesOption blocks
  | _, _, .none => rfl
  | _, _, .some blocks => by
      rw [Document.Block.identitiesOption, Block.identitiesOption]
      exact blocks.identities_eq

theorem Block.ResolvedList.identities_eq : ∀ {blocks : List Block} {shown : List Document.Block},
    Block.ResolvedList index blocks shown →
      Document.Block.identitiesList shown = Block.identitiesList blocks
  | _, _, .nil => rfl
  | _, _, .cons head tail => by
      rw [Document.Block.identitiesList, Block.identitiesList, head.identities_eq,
        tail.identities_eq]

end

mutual

/-- A block of the document and the blocks in it are resolved, in order, from the block of the tree
and those in it. -/
theorem Block.Resolved.within : ∀ {block : Block} {shown : Document.Block},
    block.Resolved index shown → List.Forall₂ (Block.Resolved index) block.within shown.within
  | ⟨_, _, _, _, _, _, _, _, _, _, _, _, _, _⟩, _,
      .mk checked ofPages ofItems ofGroups children guards shape served => by
      have hself := Block.Resolved.mk checked ofPages ofItems ofGroups children guards shape served
      subst shape
      rw [Block.within, Document.Block.within]
      exact .cons hself children.within

theorem Block.ResolvedOption.within : ∀ {blocks : Option (List Block)}
    {shown : Option (List Document.Block)}, Block.ResolvedOption index blocks shown →
      List.Forall₂ (Block.Resolved index) (Block.withinOption blocks)
        (Document.Block.withinOption shown)
  | _, _, .none => .nil
  | _, _, .some blocks => by
      rw [Block.withinOption, Document.Block.withinOption]
      exact blocks.within

theorem Block.ResolvedList.within : ∀ {blocks : List Block} {shown : List Document.Block},
    Block.ResolvedList index blocks shown →
      List.Forall₂ (Block.Resolved index) (Block.withinList blocks)
        (Document.Block.withinList shown)
  | _, _, .nil => .nil
  | _, _, .cons head tail => by
      rw [Block.withinList, Document.Block.withinList]
      exact List.rel_append head.within tail.within

end

/-- Blocks of the document have the identifiers of their blocks in the tree, in order. -/
theorem Block.ResolvedList.map_id : ∀ {blocks : List Block} {shown : List Document.Block},
    Block.ResolvedList index blocks shown → shown.map (·.id) = blocks.map (·.id)
  | _, _, .nil => rfl
  | _, _, .cons (.mk _ _ _ _ _ _ shape _) tail => by
      rw [List.map_cons, List.map_cons, tail.map_id, shape]

theorem Block.ResolvedOption.map_id : ∀ {blocks : Option (List Block)}
    {shown : Option (List Document.Block)}, Block.ResolvedOption index blocks shown →
      (shown.getD []).map (·.id) = (blocks.getD []).map (·.id)
  | _, _, .none => rfl
  | _, _, .some blocks => blocks.map_id

theorem Block.ResolvedOption.isSome_eq {given : Option (List Block)}
    {shown : Option (List Document.Block)} (h : Block.ResolvedOption index given shown) :
    shown.isSome = given.isSome := by
  cases h <;> rfl

/-! ### Experiments -/

variable {e : Experiment} {document : Document.Experiment}

/-- A document has the identities of the expanded tree. -/
theorem Experiment.Resolved.identities_eq (h : e.Resolved index document) :
    document.identities = e.identities :=
  h.blocks.identities_eq

/-- The blocks of a document are those of the expanded tree, in order. -/
theorem Experiment.Resolved.allBlocks (h : e.Resolved index document) :
    List.Forall₂ (Block.Resolved index) e.allBlocks document.allBlocks :=
  h.blocks.within

/-- The items of a document are those of the expanded tree, in order. -/
theorem Experiment.Resolved.allItems (h : e.Resolved index document) :
    List.Forall₂ (Item.Resolved index) e.allItems document.allItems := by
  rw [Experiment.allItems_eq]
  exact List.rel_flatMap h.allBlocks fun _ _ => Block.Resolved.ownItems

theorem Experiment.Resolved.mem_allBlocks (h : e.Resolved index document) :
    ∀ block ∈ document.allBlocks, ∃ given : Block, given.Resolved index block := by
  intro block hblock
  obtain ⟨given, _, hgiven⟩ := exists_left_of_forall₂ h.allBlocks block hblock
  exact ⟨given, hgiven⟩

/-- Every page of a document, feedback pages included, is resolved from a page of the tree. -/
theorem Experiment.Resolved.mem_everyPage (h : e.Resolved index document) :
    ∀ page ∈ document.everyPage, ∃ given : Page, given.Resolved index page := by
  intro page hpage
  obtain ⟨outer, houter, hpage⟩ := List.mem_flatMap.mp hpage
  obtain ⟨block, hblock, houter⟩ := List.mem_flatMap.mp houter
  obtain ⟨given, hgiven⟩ := h.mem_allBlocks block hblock
  obtain ⟨original, _, horiginal⟩ := exists_left_of_forall₂ hgiven.ownPages outer houter
  obtain ⟨inner, _, hinner⟩ := exists_left_of_forall₂ horiginal.within page hpage
  exact ⟨inner, hinner⟩

end Nodes

end Paradigm
