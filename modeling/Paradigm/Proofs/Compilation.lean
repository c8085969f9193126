/-
Module: Paradigm.Proofs.Compilation
Layer: Proofs
Purpose: How a compilation ends: in expansion, where the identities of the expanded tree are
  indexed, or with its resolution. What a successful compilation went through: the tree was
  expanded, the identities of the expanded tree are distinct, and the expanded tree was resolved
  against them. A small experiment with its document stands at the end.
Imports: Mathlib, Paradigm.Compilation, Paradigm.Proofs.Expansion, Paradigm.Proofs.Resolution
Main exports: Experiment.compile_of_resolve_ok, Experiment.session_compile,
  Experiment.compile_eq_error, Experiment.Compiled, Experiment.compile_eq_ok_iff,
  Experiment.compile_ok, Experiment.compiled_of_ok, Experiment.compile_worked
-/
import Mathlib
import Paradigm.Compilation
import Paradigm.Proofs.Expansion
import Paradigm.Proofs.Resolution

namespace Paradigm

/-! ### How a compilation ends -/

section Endings

variable {e expanded : Experiment} {session : Session} {p : Progress} {index : Index}
  {g : Gathered} {failure : Failure} {document : Document.Experiment}

theorem Experiment.compile_of_expand_error
    (hexpand : e.expand { ids := session.ids, warnings := [] } = .error failure p) :
    e.compile session
      = { outcome := .error failure
          session := { session with ids := p.ids }
          warnings := p.warnings } := by
  simp only [Experiment.compile, hexpand]

theorem Experiment.compile_of_ofTrees_error
    (hexpand : e.expand { ids := session.ids, warnings := [] } = .ok expanded p)
    (hindex : Index.ofTrees expanded e = .error failure) :
    e.compile session
      = { outcome := .error failure
          session := { session with ids := p.ids }
          warnings := p.warnings } := by
  simp only [Experiment.compile, hexpand, hindex]

theorem Experiment.compile_of_resolve_error
    (hexpand : e.expand { ids := session.ids, warnings := [] } = .ok expanded p)
    (hindex : Index.ofTrees expanded e = .ok index)
    (hresolve : expanded.resolve { index := index, registry := session.registry }
      (.start session.registry) = .error failure g) :
    e.compile session
      = { outcome := .error failure
          session := { session with ids := p.ids }
          warnings := p.warnings ++ g.warnings } := by
  simp only [Experiment.compile, hexpand, hindex, hresolve]

theorem Experiment.compile_of_resolve_ok
    (hexpand : e.expand { ids := session.ids, warnings := [] } = .ok expanded p)
    (hindex : Index.ofTrees expanded e = .ok index)
    (hresolve : expanded.resolve { index := index, registry := session.registry }
      (.start session.registry) = .ok document g) :
    e.compile session
      = { outcome := .ok document
          session := { session with ids := p.ids }
          warnings := p.warnings ++ g.warnings } := by
  simp only [Experiment.compile, hexpand, hindex, hresolve]

end Endings

/-- Compilation keeps nothing of expansion in the session but the source of identifiers, wherever it
fails. -/
theorem Experiment.session_compile (e : Experiment) (session : Session) :
    (e.compile session).session = { session with
      ids := (Step.left (e.expand { ids := session.ids, warnings := [] })).ids } := by
  unfold Experiment.compile
  cases e.expand { ids := session.ids, warnings := [] } with
  | error failure progress => rfl
  | ok expanded progress =>
      simp only
      cases Index.ofTrees expanded e with
      | error failure => rfl
      | ok index =>
          simp only
          cases expanded.resolve { index := index, registry := session.registry }
            (.start session.registry) <;> rfl

/-- A compilation fails where expansion, the index or resolution does. -/
theorem Experiment.compile_eq_error {e : Experiment} {session : Session} {failure : Failure}
    (h : (e.compile session).outcome = .error failure) :
    (∃ p, e.expand { ids := session.ids, warnings := [] } = .error failure p) ∨
      ∃ expanded p, e.expand { ids := session.ids, warnings := [] } = .ok expanded p ∧
        (Index.ofTrees expanded e = .error failure ∨
          ∃ index g, Index.ofTrees expanded e = .ok index ∧
            expanded.resolve { index := index, registry := session.registry }
              (.start session.registry) = .error failure g) := by
  cases hexpand : e.expand { ids := session.ids, warnings := [] } with
  | error other p =>
      rw [Experiment.compile_of_expand_error hexpand] at h
      cases h
      exact .inl ⟨p, rfl⟩
  | ok expanded p =>
      refine .inr ⟨expanded, p, rfl, ?_⟩
      cases hindex : Index.ofTrees expanded e with
      | error other =>
          rw [Experiment.compile_of_ofTrees_error hexpand hindex] at h
          cases h
          exact .inl rfl
      | ok index =>
          cases hresolve :
              expanded.resolve { index := index, registry := session.registry }
                (.start session.registry) with
          | error other g =>
              rw [Experiment.compile_of_resolve_error hexpand hindex hresolve] at h
              cases h
              exact .inr ⟨index, g, rfl, hresolve⟩
          | ok document g =>
              rw [Experiment.compile_of_resolve_ok hexpand hindex hresolve] at h
              cases h

/-! ### Compilations that succeed -/

/-- A compilation that succeeds, with what it passes through. -/
structure Experiment.Compiled (e : Experiment) (session : Session) (expanded : Experiment)
    (ids : IdSource) (index : Index) (slots : SlotAllocator) (document : Document.Experiment) :
    Prop where
  expands : Experiment.Expanded session.ids e expanded ids
  indexed : Index.ofTrees expanded e = .ok index
  resolves : Experiment.Resolved index expanded document
  settles : Settles session.registry (.ofRegistry session.registry)
    (Block.placeholdersList Item.placeholders expanded.blocks) document.samples slots

/-- A compilation succeeds where the tree expands, the expanded tree can be indexed, and it resolves
against its index to the document. -/
theorem Experiment.compile_eq_ok_iff {e : Experiment} {session : Session}
    {document : Document.Experiment} :
    (e.compile session).outcome = .ok document ↔
      ∃ expanded progress index gathered,
        e.expand { ids := session.ids, warnings := [] } = .ok expanded progress ∧
          Index.ofTrees expanded e = .ok index ∧
          expanded.resolve { index := index, registry := session.registry }
              (.start session.registry) = .ok document gathered ∧
          (e.compile session).session = { session with ids := progress.ids } := by
  unfold Experiment.compile
  cases e.expand { ids := session.ids, warnings := [] } with
  | error failure progress => simp
  | ok expanded progress =>
      cases hindex : Index.ofTrees expanded e with
      | error failure => simp [hindex]
      | ok index =>
          cases hresolve :
              expanded.resolve { index := index, registry := session.registry }
                (.start session.registry) with
          | error failure gathered => simp [hindex, hresolve]
          | ok resolved gathered => simp [hindex, hresolve]

theorem Experiment.compile_ok {e : Experiment} {session : Session}
    {document : Document.Experiment} (h : (e.compile session).outcome = .ok document) :
    ∃ expanded ids index slots, e.Compiled session expanded ids index slots document := by
  obtain ⟨expanded, progress, index, gathered, hexpand, hindex, hresolve, _⟩ :=
    Experiment.compile_eq_ok_iff.mp h
  obtain ⟨hrel, hsettles⟩ := Experiment.resolve_ok hresolve
  exact ⟨expanded, progress.ids, index, gathered.slots, Experiment.expand_ok hexpand, hindex, hrel,
    hsettles⟩

/-- What a compilation that succeeds went through, with the identifiers that it left issued. -/
theorem Experiment.compiled_of_ok {e : Experiment} {session : Session}
    {document : Document.Experiment} (h : (e.compile session).outcome = .ok document) :
    ∃ expanded p index slots, e.expand { ids := session.ids, warnings := [] } = .ok expanded p ∧
      e.Compiled session expanded (e.compile session).session.ids index slots document := by
  obtain ⟨expanded, p, index, gathered, hexpand, hindex, hresolve, hsession⟩ :=
    Experiment.compile_eq_ok_iff.mp h
  obtain ⟨hresolved, hsettles⟩ := Experiment.resolve_ok hresolve
  refine ⟨expanded, p, index, gathered.slots, hexpand, ?_⟩
  rw [hsession]
  exact ⟨Experiment.expand_ok hexpand, hindex, hresolved, hsettles⟩

/-! ### A worked example -/

/-- A bank of three words. -/
def Banks.worked : Banks :=
  .ofList [("words", ["ant", "bee", "cat"].map fun word => .record (.ofList [("word", word)]))]

/-- A word to be drawn. -/
def Text.worked (draw : Draw) : Text :=
  .sample { bank := "words", draw := draw, field := some "word" }

/-- Two blocks that may swap places. The first shows three words, two of them tied to a target; the
second shows the target again after a positive answer. -/
def Experiment.worked : Experiment where
  blocks := [
    { id := "body"
      blocks := some [
        { id := "first"
          pages := some [
            { id := "ask"
              text := .lines [.worked .fresh, .worked (.shared "target"),
                .worked (.unlike "target")]
              choices := [{ id := "yes", text := some (.literal "Yes") }] }] },
        { id := "second"
          pages := some [
            { id := "tell"
              text := .single (.worked (.shared "target"))
              guard := some { page := some "ask", choice := some "yes" } }] }]
      exchangeable := ["first", "second"] }]
  banks := .worked

/-- The session in which the target was first named. -/
def Session.worked : Session where
  registry := Registry.reserve {} "words" "target"

/-- A word with its slot. -/
def Document.Text.worked (slot avoids : Option Nat) : Document.Text :=
  .sample { bank := "words", slot := slot, avoids := avoids, field := some "word" }

/-- The document of the worked example: the target has the reserved slot and the fresh word the one
after it. -/
def Document.Experiment.worked : Document.Experiment where
  blocks := [
    { id := "body"
      blocks := some [
        { id := "first"
          pages := some [
            { id := "ask"
              text := .lines [.worked (some 1) none, .worked (some 0) none,
                .worked none (some 0)]
              choices := [{ id := "yes", text := some (.literal "Yes") }] }] },
        { id := "second"
          pages := some [
            { id := "tell"
              text := .single (.worked (some 0) none)
              guard := some { page := some "ask", choice := some "yes" } }] }]
      exchangeable := ["first", "second"] }]
  exchangeable := []
  counterbalance := []
  banks := .worked

/-- The worked example compiles. -/
theorem Experiment.compile_worked :
    (Experiment.worked.compile Session.worked).outcome = .ok Document.Experiment.worked := by
  cbv

end Paradigm
