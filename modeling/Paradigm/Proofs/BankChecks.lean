/-
Module: Paradigm.Proofs.BankChecks
Layer: Proofs
Purpose: No false alarm about banks. The checks of banks are asked where a scope closes, of what its
  frame has gathered by then, and that is what the tree binds to the declaration: the placeholders
  for which it is the nearest one, wherever other banks of that name are declared. A tree whose
  declarations suffice for what is bound to them is refused for other reasons or not at all.
Imports: Paradigm.Proofs.Compilation, Paradigm.Proofs.Failures, Paradigm.Proofs.Resolution,
  Paradigm.Proofs.Tree.Placements
Main exports: settle, boundTo, Declaration.Suffices, Stands, Stands.closes_iff,
  Block.stands_resolve, Experiment.suffices_of_resolve, Resolving.QuietAt, Block.quiet_resolve,
  Experiment.resolve_spares_banks
-/
import Paradigm.Proofs.Compilation
import Paradigm.Proofs.Failures
import Paradigm.Proofs.Resolution
import Paradigm.Proofs.Tree.Placements

namespace Paradigm

open Document (Sample)

/-! ### Samples of placements -/

/-- Placeholders with the samples that they become, in order, where new slots are counted on from
given ones. A placeholder with an unregistered token becomes no sample. -/
def settle (registry : Registry) : SlotAllocator → List Placement → List (Placement × Sample)
  | _, [] => []
  | slots, p :: rest =>
    ((p.placeholder.slotAmong registry slots).map
        fun slot => (p, p.placeholder.document slot)).toList
      ++ settle registry (p.placeholder.takeFrom slots) rest

/-- The counters for new slots after some placeholders. -/
def slotsAfter : SlotAllocator → List Placement → SlotAllocator
  | slots, [] => slots
  | slots, p :: rest => slotsAfter (p.placeholder.takeFrom slots) rest

/-- The samples for which a declaration is the nearest one that has their bank. -/
def boundTo (settled : List (Placement × Sample)) (d : Declaration) (name : String) :
    List Sample :=
  (settled.filter fun pair => pair.1.nearest = some d ∧ pair.1.placeholder.bank = name).map Prod.snd

/-- The samples that no declaration has, apart from a number of outermost ones. -/
def leaving (outermost : Nat) (settled : List (Placement × Sample)) : List Sample :=
  (settled.filter (·.1.undeclaredWithin outermost)).map Prod.snd

/-- The banks of a declaration suffice for what a run over placeholders binds to them. -/
def Declaration.Suffices (registry : Registry) (slots : SlotAllocator) (placements : List Placement)
    (d : Declaration) : Prop :=
  ∀ declared ∈ d.banks.entries,
    declared.2.Suffices (boundTo (settle registry slots placements) d declared.1)

instance (registry : Registry) (slots : SlotAllocator) (placements : List Placement)
    (d : Declaration) : Decidable (d.Suffices registry slots placements) :=
  inferInstanceAs (Decidable (∀ declared ∈ d.banks.entries, _))

section Settling

variable {registry : Registry} {slots : SlotAllocator} {ps qs : List Placement}

theorem settle_append : settle registry slots (ps ++ qs)
    = settle registry slots ps ++ settle registry (slotsAfter slots ps) qs := by
  induction ps generalizing slots with
  | nil => rfl
  | cons p rest ih => rw [List.cons_append, settle, ih, settle, slotsAfter, List.append_assoc]

theorem slotsAfter_append : slotsAfter slots (ps ++ qs) = slotsAfter (slotsAfter slots ps) qs := by
  induction ps generalizing slots with
  | nil => rfl
  | cons p rest ih => rw [List.cons_append, slotsAfter, ih, slotsAfter]

theorem mem_settle {pair : Placement × Sample} (h : pair ∈ settle registry slots ps) :
    pair.1 ∈ ps ∧ pair.2.bank = pair.1.placeholder.bank := by
  induction ps generalizing slots with
  | nil => cases h
  | cons p rest ih =>
      rw [settle, List.mem_append, Option.mem_toList, Option.map_eq_some_iff] at h
      rcases h with ⟨slot, _, rfl⟩ | h
      · exact ⟨List.mem_cons_self, rfl⟩
      · obtain ⟨hmem, hbank⟩ := ih h
        exact ⟨List.mem_cons_of_mem p hmem, hbank⟩

/-- A run that gives samples gives those of the placements. -/
theorem Settles.eq_settle {ss : List Sample} {slots' : SlotAllocator}
    (h : Settles registry slots (ps.map (·.placeholder)) ss slots') :
    (settle registry slots ps).map Prod.snd = ss ∧ slotsAfter slots ps = slots' := by
  induction ps generalizing slots ss with
  | nil =>
      cases h
      exact ⟨rfl, rfl⟩
  | cons p rest ih =>
      cases h with
      | cons head tail =>
          obtain ⟨hsamples, hslots⟩ := ih tail
          refine ⟨?_, hslots⟩
          rw [settle, head, List.map_append, hsamples]
          rfl

theorem boundTo_append (settled settled' : List (Placement × Sample)) (d : Declaration)
    (name : String) :
    boundTo (settled ++ settled') d name = boundTo settled d name ++ boundTo settled' d name := by
  simp only [boundTo, List.filter_append, List.map_append]

/-- Placeholders with another nearest declaration do not count. -/
theorem boundTo_eq_nil {d : Declaration} {name : String} (h : ∀ p ∈ ps, p.nearest ≠ some d) :
    boundTo (settle registry slots ps) d name = [] := by
  rw [boundTo, List.map_eq_nil_iff, List.filter_eq_nil_iff]
  intro pair hpair
  simp [h pair.1 (mem_settle hpair).1]

theorem Declaration.suffices_append_left_iff {d : Declaration}
    (hothers : ∀ p ∈ qs, p.nearest ≠ some d) :
    d.Suffices registry slots (ps ++ qs) ↔ d.Suffices registry slots ps := by
  refine forall₂_congr fun declared _ => ?_
  rw [settle_append, boundTo_append, boundTo_eq_nil hothers, List.append_nil]

theorem Declaration.suffices_append_right_iff {d : Declaration}
    (hothers : ∀ p ∈ ps, p.nearest ≠ some d) :
    d.Suffices registry slots (ps ++ qs) ↔ d.Suffices registry (slotsAfter slots ps) qs := by
  refine forall₂_congr fun declared _ => ?_
  rw [settle_append, boundTo_append, boundTo_eq_nil hothers, List.nil_append]

end Settling

/-! ### Frames and declarations -/

/-- A stretch of resolution works through placements: it takes the slots of their placeholders, and
binds the samples that it leaves undeclared to the frames around it. -/
structure Stands (registry : Registry) (g : Gathered) (outermost : Nat) (ps : List Placement)
    (g' : Gathered) : Prop where
  slots : g'.slots = slotsAfter g.slots ps
  binds : Binds g.frames (leaving outermost (settle registry g.slots ps)) g'.frames

section Standing

variable {registry : Registry} {outermost : Nat} {ps qs : List Placement}

theorem Stands.refl (registry : Registry) (g : Gathered) (outermost : Nat) :
    Stands registry g outermost [] g :=
  ⟨rfl, Binds.refl _⟩

theorem Stands.append {g g₁ g₂ : Gathered} (first : Stands registry g outermost ps g₁)
    (second : Stands registry g₁ outermost qs g₂) : Stands registry g outermost (ps ++ qs) g₂ := by
  refine ⟨?_, ?_⟩
  · rw [second.slots, first.slots, slotsAfter_append]
  · rw [settle_append, ← first.slots, leaving, List.filter_append, List.map_append]
    exact first.binds.append second.binds

/-- Where nothing is declared further in, all samples are bound around. -/
theorem Stands.of_placed {g g' : Gathered} {ss : List Sample}
    (h : Placed registry g (ps.map (·.placeholder)) ss ss g')
    (hundeclared : ∀ p ∈ ps, p.undeclaredWithin outermost = true) :
    Stands registry g outermost ps g' := by
  obtain ⟨hsamples, hslots⟩ := h.settles.eq_settle
  refine ⟨hslots.symm, ?_⟩
  have hall : (settle registry g.slots ps).filter (·.1.undeclaredWithin outermost)
      = settle registry g.slots ps :=
    List.filter_eq_self.mpr fun pair hpair => hundeclared pair.1 (mem_settle hpair).1
  rw [leaving, hall, hsamples]
  exact h.binds

variable {d : Declaration} {outer : List Declaration} {slots : SlotAllocator}

/-- What leaves a declaration is what it has not declared of what reaches it. -/
theorem leaving_eq_filter
    (haround : ∀ p ∈ ps, ∃ inner, p.around = inner ++ d :: outer ∧ d ∉ inner) :
    leaving outer.length (settle registry slots ps)
      = (leaving (d :: outer).length (settle registry slots ps)).filter
          (!Sample.declaredIn d.banks ·) := by
  rw [leaving, leaving, List.filter_map, List.filter_filter]
  congr 1
  apply List.filter_congr
  intro pair hpair
  obtain ⟨hmem, hbank⟩ := mem_settle hpair
  obtain ⟨inner, hinner, _⟩ := haround pair.1 hmem
  rw [Placement.undeclaredWithin_cons hinner, Function.comp_apply, Sample.declaredIn, hbank]
  rfl

/-- What a declaration takes of what reaches it is bound to it. -/
theorem filter_leaving_eq_boundTo {name : String}
    (haround : ∀ p ∈ ps, ∃ inner, p.around = inner ++ d :: outer ∧ d ∉ inner)
    (houter : d ∉ outer) :
    ((leaving (d :: outer).length (settle registry slots ps)).filter
        (Sample.declaredIn d.banks)).filter (·.bank = name)
      = boundTo (settle registry slots ps) d name := by
  rw [leaving, boundTo, List.filter_map, List.filter_map, List.filter_filter, List.filter_filter]
  congr 1
  apply List.filter_congr
  intro pair hpair
  obtain ⟨hmem, hbank⟩ := mem_settle hpair
  obtain ⟨inner, hinner, hnot⟩ := haround pair.1 hmem
  have hnearest := Placement.nearest_eq_some_iff hinner hnot houter
  rw [Bool.eq_iff_iff, decide_eq_true_eq, hnearest]
  simp [Sample.declaredIn, Declaration.declares, hbank, and_comm, and_assoc]

/-- The scope of a declaration closes exactly where the declaration suffices. -/
theorem Stands.closes_iff {owner : String} {g g₁ : Gathered} {frames : List Frame}
    (h : Stands registry g (d :: outer).length ps g₁)
    (hframes : g.frames = { owner := owner, banks := d.banks } :: frames)
    (haround : ∀ p ∈ ps, ∃ inner, p.around = inner ++ d :: outer ∧ d ∉ inner)
    (houter : d ∉ outer) :
    (∃ g', Resolving.closeScope g₁ = .ok () g') ↔ d.Suffices registry g.slots ps := by
  have hbinds := h.binds
  rw [hframes] at hbinds
  generalize hafter : g₁.frames = after at hbinds
  cases hbinds with
  | @cons _ frame _ outer' _ hbanks htaken _ =>
      have hdocuments : frame.documents = (leaving (d :: outer).length
          (settle registry g.slots ps)).filter (Sample.declaredIn d.banks) := htaken
      have hcheck : frame.check = .ok () ↔ d.Suffices registry g.slots ps := by
        rw [Frame.check_eq_ok_iff, hbanks, hdocuments]
        refine forall₂_congr fun declared _ => ?_
        rw [filter_leaving_eq_boundTo haround houter]
      rw [← hcheck]
      constructor
      · rintro ⟨g', hclose⟩
        exact ((Resolving.closeScope_eq_ok_iff hafter).mp hclose).1
      · intro hpasses
        exact ⟨_, (Resolving.closeScope_eq_ok_iff hafter).mpr ⟨hpasses, rfl⟩⟩

/-- Once a scope is closed, the samples that its declaration does not have stay with the frames
around it. -/
theorem Stands.close {owner : String} {g g₁ g₂ g' : Gathered} {u : Unit}
    (h : Stands registry g₁ (d :: outer).length ps g₂)
    (hframes : g₁.frames = { owner := owner, banks := d.banks } :: g.frames)
    (hslots : g₁.slots = g.slots)
    (haround : ∀ p ∈ ps, ∃ inner, p.around = inner ++ d :: outer ∧ d ∉ inner)
    (hclose : Resolving.closeScope g₂ = .ok u g') : Stands registry g outer.length ps g' := by
  have hbinds := h.binds
  rw [hframes] at hbinds
  generalize hafter : g₂.frames = after at hbinds
  cases hbinds with
  | @cons _ frame _ outer' _ hbanks htaken hrest =>
      obtain ⟨_, rfl⟩ := (Resolving.closeScope_eq_ok_iff hafter).mp hclose
      refine ⟨by rw [← hslots]; exact h.slots, ?_⟩
      rw [leaving_eq_filter haround, ← hslots]
      exact hrest

end Standing

/-! ### Resolution of placements -/

section Resolution

variable {env : Surroundings}

/-- The pages, items and groups of a block work through its own placeholders. -/
theorem Block.stands_resolveOwn (block : Block) {pages' : Option (List Document.Page)}
    {items' : Option (List Document.Item)} {groups' : Option (List (List Document.Item))}
    {g g₁ g₂ g₃ : Gathered} (d : Declaration) (outer : List Declaration)
    (hpages : Paradigm.resolveOption (·.mapM (Page.resolve env)) block.pages g = .ok pages' g₁)
    (hitems : Paradigm.resolveOption (·.mapM (Item.resolve env)) block.items g₁ = .ok items' g₂)
    (hgroups : Paradigm.resolveOption (·.mapM (·.mapM (Item.resolve env))) block.groups g₂
      = .ok groups' g₃) :
    Stands env.registry g (d :: outer).length
      (block.ownPlaceholders.map fun p => { around := d :: outer, placeholder := p }) g₃ := by
  obtain ⟨_, ss, _, hplaced⟩ := Block.resolveOwn_ok hpages hitems hgroups
  have hown : Placed env.registry g ((block.ownPlaceholders.map fun p =>
      ({ around := d :: outer, placeholder := p } : Placement)).map (·.placeholder)) ss ss g₃ := by
    rw [List.map_map]
    exact (List.map_id' block.ownPlaceholders).symm ▸ hplaced
  apply Stands.of_placed hown
  intro p hp
  obtain ⟨placeholder, _, rfl⟩ := List.mem_map.mp hp
  exact Placement.undeclaredWithin_eq (List.nil_append _).symm

mutual

/-- A block that resolves works through its placements, and its declarations suffice. -/
theorem Block.stands_resolve : ∀ {place : List Nat} {outer : List Declaration} {block : Block}
    {shown : Document.Block} {g g' : Gathered}, LieAround place outer →
      block.resolve env g = .ok shown g' →
      Stands env.registry g outer.length (block.placements place outer) g' ∧
        ∀ d ∈ block.declarations place,
          d.Suffices env.registry g.slots (block.placements place outer)
  | place, outer, ⟨id, pages, items, groups, blocks, exchangeable, counterbalance, treatments,
      latinSquare, pseudorandom, criterion, cutoff, guard, banks⟩, shown, g, g', houter, h => by
      let block : Block := ⟨id, pages, items, groups, blocks, exchangeable, counterbalance,
        treatments, latinSquare, pseudorandom, criterion, cutoff, guard, banks⟩
      have haround : ∀ p ∈ block.placements place outer, ∃ inner,
          p.around = inner ++ block.declaration place :: outer ∧
            block.declaration place ∉ inner :=
        Block.around_of_mem_placements
      simp only [Block.resolve, Guard.resolveOption, Step.bind_eq_ok_iff, Step.pure_eq_ok_iff,
        Resolving.lift_eq_ok_iff, Resolving.warn_eq_ok_iff, Resolving.openScope_eq_ok_iff] at h
      obtain ⟨_, _, rfl, _, _, ⟨_, rfl⟩, _, g₁, hopen, _, _, hpages, _, _, hitems, _, _,
        hgroups, _, g₂, hchildren, _, _, ⟨_, rfl⟩, _, _, hclose, _, rfl⟩ := h
      subst hopen
      have hown := block.stands_resolveOwn (block.declaration place) outer hpages hitems hgroups
      obtain ⟨hinner, hsuffices⟩ :=
        Block.stands_resolveChildren (houter.child block 0) hchildren
      have hbody := hown.append hinner
      have haside := houter.not_mem (block.liesAt_declaration place)
      refine ⟨hbody.close rfl rfl haround hclose, List.forall_mem_cons.mpr ⟨?_, ?_⟩⟩
      · exact (hbody.closes_iff rfl haround haside).mp ⟨_, hclose⟩
      · intro d hd
        have hother := block.nearest_ne_of_child houter
          (Block.liesFrom_of_mem_declarationsOption place blocks d hd)
        apply (Declaration.suffices_append_right_iff hother).mpr
        exact hown.slots ▸ hsuffices d hd

theorem Block.stands_resolveChildren : ∀ {place : List Nat} {outer : List Declaration}
    {blocks : Option (List Block)} {shown : Option (List Document.Block)} {g g' : Gathered},
    LieAround (0 :: place) outer → Block.resolveChildren env blocks g = .ok shown g' →
      Stands env.registry g outer.length (Block.placementsOption place outer blocks) g' ∧
        ∀ d ∈ Block.declarationsOption place blocks,
          d.Suffices env.registry g.slots (Block.placementsOption place outer blocks)
  | place, outer, none, shown, g, g', houter, h => by
      simp only [Block.resolveChildren, Step.pure_eq_ok_iff] at h
      obtain ⟨rfl, rfl⟩ := h
      exact ⟨.refl _ _ _, by simp [Block.declarationsOption]⟩
  | place, outer, some blocks, shown, g, g', houter, h => by
      simp only [Block.resolveChildren, Step.bind_eq_ok_iff, Step.pure_eq_ok_iff] at h
      obtain ⟨documents, _, hblocks, rfl, rfl⟩ := h
      exact Block.stands_resolveList houter hblocks

theorem Block.stands_resolveList : ∀ {place : List Nat} {position : Nat}
    {outer : List Declaration} {blocks : List Block} {shown : List Document.Block}
    {g g' : Gathered}, LieAround (position :: place) outer →
      Block.resolveList env blocks g = .ok shown g' →
      Stands env.registry g outer.length (Block.placementsList place position outer blocks) g' ∧
        ∀ d ∈ Block.declarationsList place position blocks,
          d.Suffices env.registry g.slots (Block.placementsList place position outer blocks)
  | place, position, outer, [], shown, g, g', houter, h => by
      simp only [Block.resolveList, Step.pure_eq_ok_iff] at h
      obtain ⟨rfl, rfl⟩ := h
      exact ⟨.refl _ _ _, by simp [Block.declarationsList]⟩
  | place, position, outer, block :: rest, shown, g, g', houter, h => by
      simp only [Block.resolveList, Step.bind_eq_ok_iff, Step.pure_eq_ok_iff] at h
      obtain ⟨document, _, hblock, others, _, hrest, rfl, rfl⟩ := h
      have hlater : LieAround ((position + 1) :: place) outer := houter
      obtain ⟨hstands, hsuffices⟩ := Block.stands_resolve houter hblock
      obtain ⟨hstands', hsuffices'⟩ := Block.stands_resolveList hlater hrest
      refine ⟨hstands.append hstands', List.forall_mem_append.mpr ⟨?_, ?_⟩⟩
      · intro d hd
        have hother := Block.nearest_ne_of_later rest houter
          (Block.liesAt_of_mem_declarations _ block d hd)
        exact (Declaration.suffices_append_left_iff hother).mpr (hsuffices d hd)
      · intro d hd
        have hother := block.nearest_ne_of_earlier houter
          (Block.liesFrom_of_mem_declarationsList place _ rest d hd)
        apply (Declaration.suffices_append_right_iff hother).mpr
        exact hstands.slots ▸ hsuffices' d hd

end

/-- The declarations of a tree that resolves suffice. -/
theorem Experiment.suffices_of_resolve {e : Experiment} {document : Document.Experiment}
    {g : Gathered} (h : e.resolve env (.start env.registry) = .ok document g) :
    ∀ d ∈ e.declarations, d.Suffices env.registry (.ofRegistry env.registry) e.placements := by
  unfold Experiment.resolve at h
  simp only [Step.bind_eq_ok_iff, Step.pure_eq_ok_iff, Resolving.openScope_eq_ok_iff] at h
  obtain ⟨_, g₁, rfl, blocks, g₂, hblocks, _, _, hclose, rfl, rfl⟩ := h
  obtain ⟨hbody, hsuffices⟩ := Block.stands_resolveList e.lieAround hblocks
  refine List.forall_mem_cons.mpr ⟨?_, hsuffices⟩
  exact (hbody.closes_iff rfl Experiment.around_of_mem_placements List.not_mem_nil).mp ⟨_, hclose⟩

end Resolution

/-! ### Failures of resolution -/

/-- Steps that fail in a given state by a rule of nodes, if they fail: no bank is at fault. -/
def Resolving.QuietAt {α : Type} (g : Gathered) (m : Resolving α) : Prop :=
  ∀ failure g', m g = .error failure g' → failure.FoundAt (fun _ => True) Cause.OfNodes

namespace Resolving.QuietAt

variable {α β : Type} {g : Gathered}

theorem of_ok {m : Resolving α} {value : α} {g' : Gathered} (h : m g = .ok value g') :
    QuietAt g m := by
  intro failure g' hfails
  rw [h] at hfails
  cases hfails

theorem bind {m : Resolving α} {next : α → Resolving β} (first : QuietAt g m)
    (second : ∀ value g', m g = .ok value g' → QuietAt g' (next value)) :
    QuietAt g (m >>= next) := by
  intro failure g' hfails
  cases hm : m g with
  | error other g₁ =>
      rw [Step.bind_of_error hm] at hfails
      cases hfails
      exact first failure g' hm
  | ok value g₁ =>
      rw [Step.bind_of_ok hm] at hfails
      exact second value g₁ hm failure g' hfails

theorem of_soundAt {m : Resolving α} (h : SoundAt (fun _ => True) Cause.OfNodes m) :
    QuietAt g m := by
  intro failure g' hfails
  have hsound := h g fun frame _ => ⟨trivial, fun _ _ => trivial⟩
  rwa [hfails] at hsound

theorem pure (value : α) : QuietAt g (Pure.pure value : Resolving α) := .of_ok rfl

end Resolving.QuietAt

section Quiet

variable {env : Surroundings}

mutual

/-- A block whose declarations, and those in it, suffice is not refused for a bank. -/
theorem Block.quiet_resolve : ∀ {block : Block} {g : Gathered} {place : List Nat}
    {outer : List Declaration}, LieAround place outer →
      (∀ d ∈ block.declarations place,
        d.Suffices env.registry g.slots (block.placements place outer)) →
      Resolving.QuietAt g (block.resolve env)
  | ⟨id, pages, items, groups, blocks, exchangeable, counterbalance, treatments, latinSquare,
      pseudorandom, criterion, cutoff, guard, banks⟩, g, place, outer, houter, hsuffices => by
      let block : Block := ⟨id, pages, items, groups, blocks, exchangeable, counterbalance,
        treatments, latinSquare, pseudorandom, criterion, cutoff, guard, banks⟩
      have haround : ∀ p ∈ block.placements place outer, ∃ inner,
          p.around = inner ++ block.declaration place :: outer ∧
            block.declaration place ∉ inner :=
        Block.around_of_mem_placements
      rw [Block.placements] at hsuffices
      rw [Block.declarations, List.forall_mem_cons] at hsuffices
      obtain ⟨hself, hinner⟩ := hsuffices
      rw [Block.resolve]
      refine .bind (.of_soundAt (.warn _)) fun _ g₁ hwarn => ?_
      obtain rfl := Resolving.warn_eq_ok_iff.mp hwarn
      refine .bind (.of_soundAt (.lift (Block.failsAt_check_of_identities fun _ _ => trivial)))
        fun _ g₂ hcheck => ?_
      obtain ⟨_, rfl⟩ := Resolving.lift_eq_ok_iff.mp hcheck
      refine .bind (.of_soundAt (.openScope trivial banks)) fun _ g₃ hopen => ?_
      obtain rfl := Resolving.openScope_eq_ok_iff.mp hopen
      -- The contents are resolved while the frame of the block is open.
      refine .bind (.of_soundAt (.option fun _ _ => .mapM fun _ _ =>
        Page.soundAt_resolve fun _ _ => trivial)) fun _ g₄ hpages => ?_
      refine .bind (.of_soundAt (.option fun _ _ => .mapM fun _ _ =>
        Item.soundAt_resolve fun _ _ => trivial)) fun _ g₅ hitems => ?_
      refine .bind (.of_soundAt (.option fun _ _ => .mapM fun _ _ => .mapM fun _ _ =>
        Item.soundAt_resolve fun _ _ => trivial)) fun _ g₆ hgroups => ?_
      have hown := block.stands_resolveOwn (block.declaration place) outer hpages hitems hgroups
      refine .bind (Block.quiet_resolveChildren (houter.child block 0) fun d hd => ?_)
        fun _ g₇ hchildren => ?_
      · rw [hown.slots]
        have hother := block.nearest_ne_of_child houter
          (Block.liesFrom_of_mem_declarationsOption place blocks d hd)
        exact (Declaration.suffices_append_right_iff hother).mp (hinner d hd)
      refine .bind (.of_soundAt (Guard.soundAt_resolveOption trivial guard)) fun _ g₈ hguard => ?_
      obtain ⟨_, rfl⟩ := Resolving.lift_eq_ok_iff.mp hguard
      -- By now the frame has gathered what the tree binds to the block.
      have hbody := hown.append (Block.stands_resolveChildren (houter.child block 0) hchildren).1
      have haside := houter.not_mem (block.liesAt_declaration place)
      obtain ⟨g₉, hclose⟩ := (hbody.closes_iff rfl haround haside).mpr hself
      exact .bind (.of_ok hclose) fun _ _ _ => .pure _

theorem Block.quiet_resolveChildren : ∀ {blocks : Option (List Block)} {g : Gathered}
    {place : List Nat} {outer : List Declaration}, LieAround (0 :: place) outer →
      (∀ d ∈ Block.declarationsOption place blocks,
        d.Suffices env.registry g.slots (Block.placementsOption place outer blocks)) →
      Resolving.QuietAt g (Block.resolveChildren env blocks)
  | none, _, _, _, _, _ => by
      rw [Block.resolveChildren]
      exact .pure _
  | some blocks, _, _, _, houter, hsuffices => by
      rw [Block.declarationsOption, Block.placementsOption] at hsuffices
      rw [Block.resolveChildren]
      exact .bind (Block.quiet_resolveList houter hsuffices) fun _ _ _ => .pure _

theorem Block.quiet_resolveList : ∀ {blocks : List Block} {g : Gathered} {place : List Nat}
    {position : Nat} {outer : List Declaration}, LieAround (position :: place) outer →
      (∀ d ∈ Block.declarationsList place position blocks,
        d.Suffices env.registry g.slots (Block.placementsList place position outer blocks)) →
      Resolving.QuietAt g (Block.resolveList env blocks)
  | [], _, _, _, _, _, _ => by
      rw [Block.resolveList]
      exact .pure _
  | block :: rest, g, place, position, outer, houter, hsuffices => by
      rw [Block.declarationsList, List.forall_mem_append, Block.placementsList] at hsuffices
      obtain ⟨hblock, hrest⟩ := hsuffices
      have hlater : LieAround ((position + 1) :: place) outer := houter
      rw [Block.resolveList]
      refine .bind (Block.quiet_resolve houter fun d hd => ?_) fun _ g₁ hresolve =>
        .bind (Block.quiet_resolveList hlater fun d hd => ?_) fun _ _ _ => .pure _
      · have hother := Block.nearest_ne_of_later rest houter
          (Block.liesAt_of_mem_declarations _ block d hd)
        exact (Declaration.suffices_append_left_iff hother).mp (hblock d hd)
      · have hother := block.nearest_ne_of_earlier houter
          (Block.liesFrom_of_mem_declarationsList place _ rest d hd)
        rw [(Block.stands_resolve houter hresolve).1.slots]
        exact (Declaration.suffices_append_right_iff hother).mp (hrest d hd)

end

/-- A tree whose declarations suffice is not refused for a bank. -/
theorem Experiment.quiet_resolve {e : Experiment}
    (hsuffices : ∀ d ∈ e.declarations,
      d.Suffices env.registry (.ofRegistry env.registry) e.placements) :
    Resolving.QuietAt (.start env.registry) (e.resolve env) := by
  obtain ⟨hself, hinner⟩ := List.forall_mem_cons.mp hsuffices
  unfold Experiment.resolve
  refine .bind (.of_soundAt (.openScope trivial e.banks)) fun _ g₁ hopen => ?_
  obtain rfl := Resolving.openScope_eq_ok_iff.mp hopen
  refine .bind (Block.quiet_resolveList e.lieAround hinner) fun _ g₂ hblocks => ?_
  have hbody := (Block.stands_resolveList e.lieAround hblocks).1
  obtain ⟨g₃, hclose⟩ :=
    (hbody.closes_iff rfl Experiment.around_of_mem_placements List.not_mem_nil).mpr hself
  exact .bind (.of_ok hclose) fun _ _ _ => .pure _

/-- Checks of banks raise no false alarm. Where each declaration of a tree suffices for the
placeholders for which it is the nearest declaration of their bank, resolution is not refused for an
unknown field, for mixed replacement or for a bank that is too small; no other tree resolves. A
placeholder below a declaration of its bank counts for that declaration or for one inside of it, so
neither for one around it nor for one beside it. -/
theorem Experiment.resolve_spares_banks (e : Experiment) (env : Surroundings) :
    ((∀ d ∈ e.declarations,
        d.Suffices env.registry (.ofRegistry env.registry) e.placements) →
      ∀ node cause g, e.resolve env (.start env.registry) = .error (.rule node cause) g →
        cause.promise ∉ [.unknownField, .replacementPolicy, .bankSize]) ∧
    (∀ document g, e.resolve env (.start env.registry) = .ok document g →
      ∀ d ∈ e.declarations, d.Suffices env.registry (.ofRegistry env.registry) e.placements) ∧
    ∀ p ∈ e.placements, ∀ inner ∈ p.around, inner.declares p = true →
      ∀ d, p.nearest = some d → d.LiesAt inner.place := by
  refine ⟨?_, fun _ _ => Experiment.suffices_of_resolve, fun p hp inner hinner hdeclares d =>
    Experiment.nearest_liesAt hp hinner hdeclares⟩
  intro hsuffices node cause g hfails
  have hfound := Experiment.quiet_resolve hsuffices _ g hfails
  cases hfound with
  | rule _ of_nodes => exact of_nodes.promise_not_mem

end Quiet

/-! ### Banks of one name -/

/-- A word of a bank that holds texts. -/
def Text.unrecorded (token : String) : Text :=
  .sample { bank := "words", draw := .shared token, field := none }

/-- The words of the worked example on two blocks, and banks of that name around and below them. -/
def Experiment.redeclared : Experiment where
  blocks := [
    { id := "outer"
      blocks := some [
        { id := "inner"
          pages := some [
            { id := "few", text := .lines [.unrecorded "target", .unrecorded "target"] }]
          banks := .ofList [("words", [.text "dog"])] },
        { id := "shown"
          pages := some [
            { id := "several"
              text := .lines [.worked (.shared "target"), .worked (.unlike "target")] }] }]
      banks := .worked },
    { id := "beside"
      pages := some [{ id := "many", text := .lines (List.replicate 5 (.worked .replacing)) }]
      banks := .worked },
    { id := "plain"
      pages := some [
        { id := "one", text := .single (.unrecorded "target") }] }]
  banks := .ofList [("words", [.text "elk"])]

/-- The registry of the worked example, and no guards to look up. -/
def Surroundings.worked : Surroundings where
  index := { identities := [], firstPages := [], pageCounts := [] }
  registry := Session.worked.registry

/-- A word of the innermost bank. -/
def Placement.redeclared : Placement where
  around := [
    { place := [0, 0], banks := .ofList [("words", [.text "dog"])] },
    { place := [0], banks := .worked },
    Experiment.redeclared.declaration]
  placeholder := { bank := "words", draw := .shared "target", field := none }

/-- Of the ten placeholders that ask for words, one counts for the word of the root. One that stands
below three banks of that name counts for the innermost alone. -/
theorem Experiment.resolve_spares_banks_redeclared :
    Experiment.redeclared.placements.length = 10 ∧
    boundTo (settle Surroundings.worked.registry (.ofRegistry Surroundings.worked.registry)
        Experiment.redeclared.placements) Experiment.redeclared.declaration "words"
      = [{ bank := "words", slot := some 0 }] ∧
    (∀ d ∈ Experiment.redeclared.declarations,
      d.Suffices Surroundings.worked.registry (.ofRegistry Surroundings.worked.registry)
        Experiment.redeclared.placements) ∧
    (∀ node cause g,
      Experiment.redeclared.resolve .worked (.start Surroundings.worked.registry)
        = .error (.rule node cause) g →
      cause.promise ∉ [.unknownField, .replacementPolicy, .bankSize]) ∧
    (∃ document g,
      Experiment.redeclared.resolve .worked (.start Surroundings.worked.registry)
        = .ok document g ∧
      ∀ d ∈ Experiment.redeclared.declarations,
        d.Suffices Surroundings.worked.registry (.ofRegistry Surroundings.worked.registry)
          Experiment.redeclared.placements) ∧
    Placement.redeclared ∈ Experiment.redeclared.placements ∧
    (∀ inner ∈ Placement.redeclared.around, ∀ d, Placement.redeclared.nearest = some d →
      d.LiesAt inner.place) := by
  have hsuffices : ∀ d ∈ Experiment.redeclared.declarations,
      d.Suffices Surroundings.worked.registry (.ofRegistry Surroundings.worked.registry)
        Experiment.redeclared.placements := by
    decide +kernel
  have hresolves : ∃ document g,
      Experiment.redeclared.resolve .worked (.start Surroundings.worked.registry)
        = .ok document g := by
    have hok : (match
          Experiment.redeclared.resolve .worked (.start Surroundings.worked.registry) with
        | .ok _ _ => true
        | .error _ _ => false) = true := by
      cbv
    cases hresult :
        Experiment.redeclared.resolve .worked (.start Surroundings.worked.registry) with
    | ok document g => exact ⟨document, g, rfl⟩
    | error failure g => simp [hresult] at hok
  have hmem : Placement.redeclared ∈ Experiment.redeclared.placements :=
    List.mem_of_getElem? (i := 0) rfl
  have hdeclare : ∀ inner ∈ Placement.redeclared.around,
      inner.declares Placement.redeclared = true := by
    decide
  obtain ⟨hquiet, hconverse, hinside⟩ := Experiment.resolve_spares_banks .redeclared .worked
  obtain ⟨document, g, hresolve⟩ := hresolves
  refine ⟨by cbv, by cbv, hsuffices, hquiet hsuffices, ⟨document, g, hresolve, ?_⟩, hmem, ?_⟩
  · exact hconverse document g hresolve
  · intro inner hinner d hnearest
    exact hinside _ hmem inner hinner (hdeclare inner hinner) d hnearest

end Paradigm
