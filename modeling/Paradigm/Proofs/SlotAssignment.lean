/-
Module: Paradigm.Proofs.SlotAssignment
Layer: Proofs
Purpose: Which slots the samples of a compiled document name. A placeholder under a token gets the
  slot that the registry keeps for it. Fresh placeholders of a bank get the slots after the reserved
  ones, one after the other in the order in which the document emits them. So placeholders of a bank
  share a slot by a common token and in no other way.
Imports: Paradigm.Proofs.Compilation, Paradigm.Proofs.Expansion.Contents,
  Paradigm.Proofs.Resolution.Nodes
Main exports: Experiment.Compiled.settles_placeholders, Experiment.compile_slots
-/
import Paradigm.Proofs.Compilation
import Paradigm.Proofs.Expansion.Contents
import Paradigm.Proofs.Resolution.Nodes

namespace Paradigm

/-! ### Placeholders of the given tree -/

/-- A compilation settles the placeholders of the tree that the author gave, in the order in which
the document emits them. -/
theorem Experiment.Compiled.settles_placeholders {e expanded : Experiment} {session : Session}
    {ids : IdSource} {index : Index} {slots : SlotAllocator} {document : Document.Experiment}
    (h : e.Compiled session expanded ids index slots document) :
    Settles session.registry (.ofRegistry session.registry) e.placeholders document.samples
      slots := by
  have hkept := h.expands.placeholders_eq
  have hsettles := h.settles
  rw [hkept] at hsettles
  exact hsettles

/-- A placeholder that is settled under a token has a registered token. -/
theorem Placeholder.SettledAs.registered {registry : Registry} {p : Placeholder}
    {s : Document.Sample} {token : String} (h : p.SettledAs registry s)
    (htoken : p.token? = some token) : registry.slotOf p.bank token ≠ none := by
  obtain ⟨_, _, hdraw⟩ := h
  unfold Placeholder.token? at htoken
  cases hd : p.draw with
  | fresh => simp [hd] at htoken
  | replacing => simp [hd] at htoken
  | shared given =>
      simp only [hd, Option.some.injEq] at htoken hdraw
      subst htoken
      obtain ⟨slot, hslot, _⟩ := hdraw
      simp [hslot]
  | unlike given =>
      simp only [hd, Option.some.injEq] at htoken hdraw
      subst htoken
      obtain ⟨slot, hslot, _⟩ := hdraw
      simp [hslot]

/-! ### Compiled documents -/

/-- How placeholders and their samples, both in order, agree with a registry. -/
structure Registry.Assigns (registry : Registry) (placeholders : List Placeholder)
    (samples : List Document.Sample) : Prop where
  /-- A token has its registered slot, below the reserved ones; a draw with replacement has none. -/
  settled : List.Forall₂ (Placeholder.SettledAs registry) placeholders samples
  /-- The slots of the fresh placeholders of a bank count on from the reserved ones. -/
  fresh : ∀ bank, ((placeholders.zip samples).filter (·.1.isFreshOn bank)).map (·.2.slot)
    = (List.range' (registry.reserved bank) (placeholders.countP (·.isFreshOn bank))).map some
  /-- Two placeholders of a bank name one slot exactly where they carry one token. -/
  shared : ∀ bank, (placeholders.zip samples).Pairwise (SharedByToken bank)

/-- The samples of a compiled document stand for the placeholders of the tree one by one, in the
order in which the document emits them, with the slots that the registry of the session gives them.
A tree that places an unregistered token does not compile. -/
theorem Experiment.compile_slots (e : Experiment) (session : Session) :
    (∀ document, (e.compile session).outcome = .ok document →
      session.registry.Assigns e.placeholders document.samples) ∧
    ((∃ p ∈ e.placeholders, ∃ token, p.token? = some token ∧
        session.registry.slotOf p.bank token = none) →
      ∀ document, (e.compile session).outcome ≠ .ok document) := by
  constructor
  · intro document h
    obtain ⟨expanded, ids, index, slots, hcompiled⟩ := e.compile_ok h
    have hsettles := hcompiled.settles_placeholders
    constructor
    · exact hsettles.settledAs
    · intro bank
      have hslots := hsettles.fresh_slots bank
      rwa [SlotAllocator.upcoming_ofRegistry] at hslots
    · exact fun bank => hsettles.pairwise_shared bank (SlotAllocator.clears_ofRegistry _)
  · intro hplaced
    rcases hplaced with ⟨p, hp, token, htoken, hnone⟩
    intro document h
    obtain ⟨expanded, ids, index, slots, hcompiled⟩ := e.compile_ok h
    have hsettled := hcompiled.settles_placeholders.settledAs
    obtain ⟨s, _, hs⟩ := exists_right_of_forall₂ hsettled p hp
    exact hs.registered htoken hnone

/-- The worked example has its slots; in a session that does not know the target it does not
compile. -/
theorem Experiment.compile_slots_worked :
    Session.worked.registry.Assigns Experiment.worked.placeholders
        Document.Experiment.worked.samples ∧
      ∀ document, (Experiment.worked.compile {}).outcome ≠ .ok document := by
  constructor
  · exact (Experiment.compile_slots _ _).1 _ Experiment.compile_worked
  · apply (Experiment.compile_slots _ _).2
    exact ⟨{ bank := "words", draw := .shared "target", field := some "word" }, by decide, "target",
      rfl, rfl⟩

end Paradigm
