/-
Module: Paradigm.Proofs.Equivariance
Layer: Proofs
Purpose: Compilation treats identifiers as opaque. Compiling a renamed tree gives the renamed
  document, or the same refusal of the renamed node, with the renamed warnings, and issues equally
  many identifiers. So compiling a tree again shifts the identifiers that compilation makes up, and
  another seed shifts the identifiers of the session.
Imports: Paradigm.Proofs.ItemPages, Paradigm.Proofs.Relabelling.Compilation,
  Paradigm.Proofs.Renaming
Main exports: CompilesAlike, Experiment.exists_issued, Experiment.compile_alike,
  Experiment.compile_equivariant
-/
import Paradigm.Proofs.ItemPages
import Paradigm.Proofs.Relabelling.Compilation
import Paradigm.Proofs.Renaming

namespace Paradigm

/-- Two compilations, each in its session, that differ in identifiers: the second gives the renamed
document, or the refusal of the renamed node for the same cause, with the renamed warnings. Both
issue equally many identifiers and leave the registry of their session as it is. -/
structure CompilesAlike (ρ : String → String) (e e' : Experiment) (session session' : Session) :
    Prop where
  outcome : (e'.compile session').outcome
    = Outcome.rename ρ ((e.compile session).outcome.map (Document.Experiment.rename ρ))
  warnings : (e'.compile session').warnings
    = (e.compile session).warnings.map (Warning.rename ρ)
  issued : ∃ count, (e.compile session).session = session.advance count ∧
    (e'.compile session').session = session'.advance count

section Compilation

variable {ρ : String → String} {session session' : Session} {count : Nat}

/-- Compiling a tree and compiling the renamed tree, in sessions that agree on their tokens and
issue identifiers as the renaming says, differ in identifiers only. -/
theorem Experiment.compile_alike {e : Experiment}
    (hρ : Renaming ρ session.ids session'.ids count)
    (hregistry : session'.registry = session.registry)
    (hcount : (e.compile session).session.ids.last ≤ session.ids.last + count) :
    CompilesAlike ρ e (e.rename ρ) session session' := by
  rcases Experiment.compile_relabel (hρ.correspondence hregistry) e hcount with
    ⟨houtcome, hwarnings, hissued⟩ | ⟨_, _, _, token, bank, _, hunknown, hknown⟩ |
    ⟨_, _, _, _, size, slot, _, hin, hpast⟩
  · exact ⟨houtcome.eq_rename hρ.root, hwarnings.eq_rename hρ.root, hissued⟩
  -- The registries agree, and no slot is moved.
  · have hsame : session'.registry.slotOf bank token = none := by
      rw [hregistry]
      exact hunknown
    exact absurd hsame hknown
  · exact absurd hin (Nat.not_lt.mpr hpast)

/-- A compilation only issues identifiers. -/
theorem Experiment.exists_issued (e : Experiment) (session : Session) :
    ∃ count, (e.compile session).session = session.advance count := by
  have hkept : Renaming id session.ids session.ids (e.compile session).session.ids.last :=
    ⟨fun _ _ hsame => hsame, rfl, fun _ _ _ => rfl⟩
  obtain ⟨count, hissued, _⟩ :=
    (Experiment.compile_alike hkept rfl (Nat.le_add_left _ _)).issued
  exact ⟨count, hissued⟩

/-- A renaming that keeps the names of a tree leaves only the identifiers that compilation issues to
be renamed. -/
theorem Experiment.compile_alike_self {e : Experiment} {offset : Nat}
    (hsession : (e.compile session).session = session.advance count)
    (hroom : session.ids.HasRoom (offset + count))
    (hnames : ∀ kind n, session.ids.counter.toNat < n → (kind, toString n) ∉ e.names) :
    CompilesAlike (shiftNumbers session.ids.counter.toNat offset) e e session
      (session.advance offset) := by
  have hkeeps : e.rename (shiftNumbers session.ids.counter.toNat offset) = e := by
    apply Experiment.rename_eq_self
    rintro ⟨kind, name⟩ hname
    apply shiftNumbers_of_ne
    rintro n hlt rfl
    exact hnames kind n hlt hname
  have hρ : Renaming (shiftNumbers session.ids.counter.toNat offset) session.ids
      (session.advance offset).ids count := Renaming.shiftNumbers (Nat.le_refl _) hroom
  have halike := Experiment.compile_alike (e := e) hρ rfl (by rw [hsession]; rfl)
  rwa [hkeeps] at halike

/-- Compilation is equivariant under renaming, as far as the identifiers that it issues are
concerned. So compiling a tree again, if none of its names is a number above the counter, gives the
same but for a shift of the identifiers that compilation makes up; and a session that started from
another seed gives the same but for a shift of the identifiers that the session issued, as long as
the counter has room. -/
theorem Experiment.compile_equivariant (e : Experiment) (session : Session) :
    ∃ count, (e.compile session).session = session.advance count ∧
      (∀ ρ session', Renaming ρ session.ids session'.ids count →
        session'.registry = session.registry →
        CompilesAlike ρ e (e.rename ρ) session session') ∧
      (session.ids.HasRoom (count + count) →
        (∀ kind n, session.ids.counter.toNat < n → (kind, toString n) ∉ e.names) →
        CompilesAlike (shiftNumbers session.ids.counter.toNat count) e e session
          (e.compile session).session) ∧
      ∀ seed offset, seed ≤ session.ids.counter.toNat → session.ids.HasRoom (offset + count) →
        CompilesAlike (shiftNumbers seed offset) e (e.rename (shiftNumbers seed offset)) session
          (session.advance offset) := by
  obtain ⟨count, hsession⟩ := e.exists_issued session
  have hcount : (e.compile session).session.ids.last ≤ session.ids.last + count := by
    rw [hsession]
    rfl
  refine ⟨count, hsession, ?_, ?_, ?_⟩
  · intro ρ session' hρ hregistry
    exact Experiment.compile_alike hρ hregistry hcount
  · intro hroom hnames
    rw [hsession]
    exact Experiment.compile_alike_self hsession hroom hnames
  · intro seed offset hseed hroom
    exact Experiment.compile_alike (Renaming.shiftNumbers hseed hroom) rfl hcount

end Compilation

/-! ### A worked example -/

/-- The options of the cat and the dog change names, and numbers move up by five. -/
def swapPets (name : String) : String := Equiv.swap "cat" "dog" (shiftNumbers 0 5 name)

theorem swapPets_of_ne {name : String} (hcat : name ≠ "cat") (hdog : name ≠ "dog")
    (hnumber : ∀ n, 0 < n → name ≠ toString n) : swapPets name = name := by
  rw [swapPets, shiftNumbers_of_ne hnumber, Equiv.swap_apply_of_ne_of_ne hcat hdog]

theorem Renaming.swapPets {count : Nat} (hroom : Session.worked.ids.HasRoom (5 + count)) :
    Renaming swapPets Session.worked.ids (Session.worked.advance 5).ids count := by
  have hshift : Renaming (Paradigm.shiftNumbers 0 5) Session.worked.ids
      (Session.worked.advance 5).ids count := Renaming.shiftNumbers (Nat.zero_le _) hroom
  constructor
  · exact (Equiv.injective _).comp hshift.injective
  · apply swapPets_of_ne (by decide) (by decide)
    exact fun n _ => ne_toString_of_toNat?_eq_none (by cbv) n
  · intro i hpos hi
    rw [Paradigm.swapPets, hshift.issued i hpos hi]
    apply Equiv.swap_apply_of_ne_of_ne
    · exact (ne_toString_of_toNat?_eq_none (by cbv) _).symm
    · exact (ne_toString_of_toNat?_eq_none (by cbv) _).symm

/-- No name in the quiz is a number. -/
theorem Experiment.names_quiz (kind : NodeKind) (n : Nat) :
    (kind, toString n) ∉ Experiment.quiz.names := by
  have hread : Experiment.quiz.names.map (fun name => name.2.toNat?) = List.replicate 11 none := by
    cbv
  intro hname
  exact ne_toString_of_mem hread _ hname n rfl

/-- The quiz compiles alike with two options renamed, a second time, and from another seed. -/
theorem Experiment.compile_equivariant_quiz :
    ∃ count, (Experiment.quiz.compile .worked).session = Session.worked.advance count ∧
      Renaming swapPets Session.worked.ids (Session.worked.advance 5).ids count ∧
      CompilesAlike swapPets .quiz (Experiment.quiz.rename swapPets) .worked
        (Session.worked.advance 5) ∧
      Session.worked.ids.HasRoom (count + count) ∧
      (∀ kind n, Session.worked.ids.counter.toNat < n →
        (kind, toString n) ∉ Experiment.quiz.names) ∧
      CompilesAlike (shiftNumbers Session.worked.ids.counter.toNat count) .quiz .quiz .worked
        (Experiment.quiz.compile .worked).session ∧
      0 ≤ Session.worked.ids.counter.toNat ∧ Session.worked.ids.HasRoom (1000 + count) ∧
      CompilesAlike (shiftNumbers 0 1000) .quiz (Experiment.quiz.rename (shiftNumbers 0 1000))
        .worked (Session.worked.advance 1000) := by
  obtain ⟨count, hsession, hrenamed, hagain, hseeded⟩ :=
    Experiment.compile_equivariant .quiz .worked
  have hlast : (Experiment.quiz.compile .worked).session.ids.last = 4 := by cbv
  have hcount : count = 4 := by
    rw [hsession] at hlast
    have hworked : Session.worked.ids.last + count = 4 := hlast
    have hstart : Session.worked.ids.last = 0 := rfl
    omega
  subst hcount
  have hnames : ∀ kind n, Session.worked.ids.counter.toNat < n →
      (kind, toString n) ∉ Experiment.quiz.names := fun kind n _ => Experiment.names_quiz kind n
  have hroom : Session.worked.ids.HasRoom (4 + 4) := by decide
  have hrenaming : Renaming swapPets Session.worked.ids (Session.worked.advance 5).ids 4 :=
    .swapPets (by decide)
  have hseed : 0 ≤ Session.worked.ids.counter.toNat := Nat.zero_le _
  have hlarge : Session.worked.ids.HasRoom (1000 + 4) := by decide
  exact ⟨4, hsession, hrenaming, hrenamed _ _ hrenaming rfl, hroom, hnames, hagain hroom hnames,
    hseed, hlarge, hseeded 0 1000 hseed hlarge⟩

end Paradigm
