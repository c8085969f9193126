/-
Module: Paradigm.Proofs.Step
Layer: Proofs
Purpose: What a successful computation went through. Checks, expansion and resolution are written as
  sequences of steps; a sequence succeeds exactly where each of its steps does, with the state of
  one step handed to the next. Proofs about them take sequences apart by these equivalences and
  never unfold a monad.
Imports: Paradigm.Resolution, Paradigm.Tree.Expansion
Main exports: Outcome.bind_eq_ok_iff, Verdict.seq_eq_ok_iff, Step.bind_eq_ok_iff,
  Step.bind_of_ok, Step.bind_of_error, Step.pure_eq_ok_iff, Step.left, Resolving.lift_eq_ok_iff,
  Resolving.closeScope_eq_ok_iff, Expanding.issuing_eq_ok_iff, Expanding.check_eq_ok_iff
-/
import Paradigm.Resolution
import Paradigm.Tree.Expansion

namespace Paradigm

/-! ### Sequences -/

/-- A sequence of computations succeeds where both do. -/
theorem Outcome.bind_eq_ok_iff {ε α β : Type} {m : Except ε α} {f : α → Except ε β} {b : β} :
    (m >>= f) = .ok b ↔ ∃ a, m = .ok a ∧ f a = .ok b := by
  cases m <;> simp [bind, Except.bind]

theorem Outcome.pure_eq_ok_iff {ε α : Type} {a b : α} :
    (pure a : Except ε α) = .ok b ↔ a = b := by
  simp [pure, Except.pure]

/-- A check followed by another passes where both do. -/
theorem Verdict.seq_eq_ok_iff {first : Verdict} {rest : Unit → Verdict} :
    (first >>= rest) = .ok () ↔ first = .ok () ∧ rest () = .ok () := by
  rw [Outcome.bind_eq_ok_iff]
  constructor
  · intro hboth
    rcases hboth with ⟨_, hfirst, hrest⟩
    exact ⟨hfirst, hrest⟩
  · intro hboth
    rcases hboth with ⟨hfirst, hrest⟩
    exact ⟨(), hfirst, hrest⟩

/-- A sequence of steps succeeds where both do, the second in the state that the first leaves. -/
theorem Step.bind_eq_ok_iff {ε σ α β : Type} {m : EStateM ε σ α} {f : α → EStateM ε σ β}
    {s s' : σ} {b : β} :
    (m >>= f) s = .ok b s' ↔ ∃ a s₁, m s = .ok a s₁ ∧ f a s₁ = .ok b s' := by
  show EStateM.bind m f s = .ok b s' ↔ _
  unfold EStateM.bind
  cases m s with
  | error e s₁ => simp
  | ok a s₁ =>
      constructor
      · intro h
        exact ⟨a, s₁, rfl, h⟩
      · intro hboth
        rcases hboth with ⟨a', s', hok, h⟩
        cases hok
        exact h

/-- After a step that succeeds, the sequence is what follows it. -/
theorem Step.bind_of_ok {ε σ α β : Type} {m : EStateM ε σ α} {f : α → EStateM ε σ β} {s s' : σ}
    {a : α} (h : m s = .ok a s') : (m >>= f) s = f a s' := by
  show EStateM.bind m f s = _
  rw [EStateM.bind, h]

/-- A step that is refused ends the sequence. -/
theorem Step.bind_of_error {ε σ α β : Type} {m : EStateM ε σ α} {f : α → EStateM ε σ β} {s s' : σ}
    {e : ε} (h : m s = .error e s') : (m >>= f) s = .error e s' := by
  show EStateM.bind m f s = _
  rw [EStateM.bind, h]

/-- A step that only returns a value leaves the state as it is. -/
theorem Step.pure_eq_ok_iff {ε σ α : Type} {a b : α} {s s' : σ} :
    (pure a : EStateM ε σ α) s = .ok b s' ↔ a = b ∧ s = s' := by
  show EStateM.Result.ok a s = .ok b s' ↔ _
  simp

/-- The state that steps leave, whether they succeed or not. -/
def Step.left {ε σ α : Type} : EStateM.Result ε σ α → σ
  | .ok _ s => s
  | .error _ s => s

theorem Step.left_of_ok {ε σ α : Type} {result : EStateM.Result ε σ α} {value : α} {s : σ}
    (h : result = .ok value s) : Step.left result = s := by
  rw [h, Step.left]

theorem Step.left_of_error {ε σ α : Type} {result : EStateM.Result ε σ α} {error : ε} {s : σ}
    (h : result = .error error s) : Step.left result = s := by
  rw [h, Step.left]

/-! ### Steps of resolution -/

theorem Resolving.lift_eq_ok_iff {α : Type} {outcome : Except Failure α} {a : α}
    {g g' : Gathered} :
    Resolving.lift outcome g = .ok a g' ↔ outcome = .ok a ∧ g = g' := by
  cases outcome <;> simp [Resolving.lift]

theorem Resolving.warn_eq_ok_iff {warnings : List Warning} {u : Unit} {g g' : Gathered} :
    Resolving.warn warnings g = .ok u g' ↔
      { g with warnings := g.warnings ++ warnings } = g' := by
  simp [Resolving.warn]

theorem Resolving.openScope_eq_ok_iff {owner : String} {banks : Banks} {u : Unit}
    {g g' : Gathered} :
    Resolving.openScope owner banks g = .ok u g' ↔
      { g with frames := { owner := owner, banks := banks } :: g.frames } = g' := by
  simp [Resolving.openScope]

/-- A scope closes where its frame passes its check. -/
theorem Resolving.closeScope_eq_ok_iff {frame : Frame} {outer : List Frame} {u : Unit}
    {g g' : Gathered} (h : g.frames = frame :: outer) :
    Resolving.closeScope g = .ok u g' ↔ frame.check = .ok () ∧ { g with frames := outer } = g' := by
  unfold Resolving.closeScope
  rw [h]
  cases hcheck : frame.check <;> simp [hcheck]

/-! ### Steps of expansion -/

theorem Expanding.issuing_eq_ok_iff {α : Type} {m : Issuing α} {a : α} {p p' : Progress} :
    Expanding.issuing m p = .ok a p' ↔ (m p.ids).1 = a ∧ { p with ids := (m p.ids).2 } = p' := by
  show EStateM.Result.ok (m p.ids).1 { p with ids := (m p.ids).2 } = .ok a p' ↔ _
  simp

theorem Expanding.warn_eq_ok_iff {warnings : List Warning} {u : Unit} {p p' : Progress} :
    Expanding.warn warnings p = .ok u p' ↔
      { p with warnings := p.warnings ++ warnings } = p' := by
  simp [Expanding.warn]

theorem Expanding.check_eq_ok_iff {verdict : Verdict} {u : Unit} {p p' : Progress} :
    Expanding.check verdict p = .ok u p' ↔ verdict = .ok () ∧ p = p' := by
  cases verdict <;> simp [Expanding.check]

end Paradigm
