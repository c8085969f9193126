/-
Module: Paradigm.Proofs.Relabelling.Compilation
Layer: Proofs
Purpose: Compilation of a tree and of the relabelled tree, side by side, each in its session. Both
  give documents, of which the one is the other relabelled, or are refused for the same cause; both
  warn alike and issue equally many identifiers.
Imports: Paradigm.Proofs.Compilation, Paradigm.Proofs.Relabelling.Resolution
Main exports: Session.advance, Correspondence.Compiles, Correspondence.Compares,
  Experiment.compile_relabel, Experiment.compile_relabel_of_ok
-/
import Paradigm.Proofs.Compilation
import Paradigm.Proofs.Relabelling.Resolution

namespace Paradigm

/-- A session that has issued that many more identifiers, with the tokens that it had. -/
def Session.advance (session : Session) (count : Nat) : Session :=
  { session with ids := session.ids.after count }

/-- Two compilations, each in its session, that differ in names and slots only: the documents or the
refusals and the warnings correspond, both issue equally many identifiers, and both leave the
registry of their session as it is. -/
structure Correspondence.Compiles (c : Correspondence) (e e' : Experiment) : Prop where
  outcome : Outcome.Relabelled c.r (Document.Experiment.relabel c.r) (e.compile c.source).outcome
    (e'.compile c.target).outcome
  warnings : Warnings.Relabelled c.r (e.compile c.source).warnings (e'.compile c.target).warnings
  issued : ∃ count, (e.compile c.source).session = c.source.advance count ∧
    (e'.compile c.target).session = c.target.advance count

section Compilation

variable {c : Correspondence}

theorem Correspondence.Compiles.of_eq {e e' : Experiment}
    {outcome outcome' : Except Failure Document.Experiment} {warnings warnings' : List Warning}
    {ids ids' : IdSource}
    (h : e.compile c.source
      = { outcome := outcome, session := { c.source with ids := ids }, warnings := warnings })
    (h' : e'.compile c.target
      = { outcome := outcome', session := { c.target with ids := ids' }, warnings := warnings' })
    (houtcome : Outcome.Relabelled c.r (Document.Experiment.relabel c.r) outcome outcome')
    (hwarnings : Warnings.Relabelled c.r warnings warnings') (hids : c.Abreast ids ids') :
    c.Compiles e e' := by
  constructor
  · rwa [h, h']
  · rwa [h, h']
  · obtain ⟨count, rfl, rfl⟩ := hids
    rw [h, h']
    exact ⟨count, rfl, rfl⟩

theorem Experiment.countedAs_of_expand {e expanded : Experiment} {p p' : Progress}
    (h : e.expand p = .ok expanded p') :
    List.Forall₂ Item.CountedAs e.allItems expanded.allItems :=
  (Experiment.expand_ok h).expandedAs.imp fun _ _ => Item.ExpandedAs.countedAs

/-- Two compilations, each in its session, compare, unless only the second session knows a token, or
a moved slot lies past the end of its bank. -/
def Correspondence.Compares (c : Correspondence) (e e' : Experiment) : Prop :=
  c.Compiles e e' ∨
    (∃ failure, (e.compile c.source).outcome = .error failure ∧ c.Learnt failure) ∨
    ∃ failure, (e'.compile c.target).outcome = .error failure ∧ c.r.Overruns failure

/-- Trees that have been expanded side by side are resolved side by side. -/
theorem Experiment.compares_of_ofTrees {e e' expanded : Experiment} {p p' : Progress}
    {index index' : Index} (he : e.expand { ids := c.source.ids, warnings := [] } = .ok expanded p)
    (he' : e'.expand { ids := c.target.ids, warnings := [] } = .ok (expanded.relabel c.r) p')
    (states : Progress.Relabelled c p p') (hindex : Index.ofTrees expanded e = .ok index)
    (hindex' : Index.ofTrees (expanded.relabel c.r) e' = .ok index')
    (hrelabelled : Index.Relabelled c.r index index') : c.Compares e e' := by
  have henv : Surroundings.Relabelled c { index := index, registry := c.source.registry }
      { index := index', registry := c.target.registry } := ⟨hrelabelled, rfl, rfl⟩
  have hresolve := (Experiment.resolve_relabel henv expanded).results
    (.start c.source.registry) (.start c.target.registry) (.start c)
  generalize hr : expanded.resolve { index := index, registry := c.source.registry }
    (.start c.source.registry) = resolved at hresolve
  generalize hr' : (expanded.relabel c.r).resolve
    { index := index', registry := c.target.registry } (.start c.target.registry)
    = resolved' at hresolve
  cases hresolve with
  | past reached => exact reached.elim
  | ok gathered =>
      exact .inl (.of_eq (Experiment.compile_of_resolve_ok he hindex hr)
        (Experiment.compile_of_resolve_ok he' hindex' hr') (.ok _)
        (List.rel_append states.warnings gathered.warnings) states.ids)
  | error report gathered =>
      exact .inl (.of_eq (Experiment.compile_of_resolve_error he hindex hr)
        (Experiment.compile_of_resolve_error he' hindex' hr') (.error report)
        (List.rel_append states.warnings gathered.warnings) states.ids)
  | waived reason =>
      rw [Correspondence.Compares, Experiment.compile_of_resolve_error he hindex hr]
      exact .inr (.inl ⟨_, rfl, reason⟩)
  | tolerated reason =>
      rw [Correspondence.Compares, Experiment.compile_of_resolve_error he' hindex' hr']
      exact .inr (.inr ⟨_, rfl, reason⟩)

/-- A tree and the relabelled tree compile side by side, as far as identifiers are compared. -/
theorem Experiment.compile_relabel (c : Correspondence) (e : Experiment)
    (hcount : c.Within (e.compile c.source).session.ids) : c.Compares e (e.relabel c.r) := by
  have hexpand := (Experiment.expand_relabel c e).results { ids := c.source.ids, warnings := [] }
    { ids := c.target.ids, warnings := [] } ⟨Correspondence.abreast_start, .nil⟩
  rw [e.session_compile] at hcount
  generalize he : e.expand { ids := c.source.ids, warnings := [] } = result at hexpand hcount
  generalize he' : (e.relabel c.r).expand { ids := c.target.ids, warnings := [] } = result'
    at hexpand
  cases hexpand with
  | waived reason => exact reason.elim
  | tolerated reason => exact reason.elim
  | past reached => exact absurd hcount reached
  | error report states =>
      exact .inl (.of_eq (Experiment.compile_of_expand_error he)
        (Experiment.compile_of_expand_error he') (.error report) states.warnings states.ids)
  | @ok expanded p p' states =>
      rcases Index.ofTrees_relabel c.injective (Experiment.countedAs_of_expand he) with
        ⟨failure, failure', hindex, hindex', report⟩ | ⟨index, index', hindex, hindex', hrelabelled⟩
      · exact .inl (.of_eq (Experiment.compile_of_ofTrees_error he hindex)
          (Experiment.compile_of_ofTrees_error he' hindex') (.error report) states.warnings
          states.ids)
      · exact Experiment.compares_of_ofTrees he he' states hindex hindex' hrelabelled

/-- A tree with a document, all of whose new identifiers are compared: the relabelled tree has the
relabelled document, unless a moved slot lies past the end of its bank. -/
theorem Experiment.compile_relabel_of_ok (c : Correspondence) (e : Experiment)
    {document : Document.Experiment} (h : (e.compile c.source).outcome = .ok document)
    (hcount : (e.compile c.source).session = c.source.advance c.count) :
    ((e.relabel c.r).compile c.target).outcome = .ok (document.relabel c.r) ∨
      ∃ failure, ((e.relabel c.r).compile c.target).outcome = .error failure ∧
        c.r.Overruns failure := by
  have hwithin : c.Within (e.compile c.source).session.ids := by
    rw [hcount]
    exact Nat.le_refl _
  rcases Experiment.compile_relabel c e hwithin with hcompiles | ⟨_, hfailure, _⟩ | hoverruns
  · have houtcome := hcompiles.outcome
    rw [h] at houtcome
    exact .inl houtcome.eq_ok
  · rw [h] at hfailure
    cases hfailure
  · exact .inr hoverruns

end Compilation

end Paradigm
