/-
Module: Paradigm.Proofs.SideBySide
Layer: Proofs
Purpose: Two runs side by side. From states that are alike, two computations come to values of which
  the one is the other changed, or are both refused in ways that correspond to each other, and leave
  states that are alike. A comparison also says which refusal of one run alone is put up with, and
  from which states of the first run on nothing is compared any more.
Imports: Paradigm.Proofs.Step
Main exports: Comparison, Results, Runs, Runs.bind, Runs.mapM, Runs.mapM_same
-/
import Paradigm.Proofs.Step

namespace Paradigm

variable {σ α β γ δ : Type}

/-- What is asked of two runs: which states are alike, and which refusals of both correspond. Where
the first run is refused in a way that is waived, or the second in one that is tolerated, or the
first has come to a state that is past comparing, nothing more is asked. -/
structure Comparison (σ : Type) where
  alike : σ → σ → Prop
  reports : Failure → Failure → Prop
  waived : Failure → Prop := fun _ => False
  tolerated : Failure → Prop := fun _ => False
  past : σ → Prop := fun _ => False

/-- Results of two runs that compare, the second value being the first one changed. -/
inductive Results (c : Comparison σ) (change : α → β) :
    EStateM.Result Failure σ α → EStateM.Result Failure σ β → Prop where
  | ok {value : α} {s s' : σ} (states : c.alike s s') :
      Results c change (.ok value s) (.ok (change value) s')
  | error {failure failure' : Failure} {s s' : σ} (report : c.reports failure failure')
      (states : c.alike s s') : Results c change (.error failure s) (.error failure' s')
  | waived {failure : Failure} {s : σ} {result' : EStateM.Result Failure σ β}
      (reason : c.waived failure) : Results c change (.error failure s) result'
  | tolerated {result : EStateM.Result Failure σ α} {failure' : Failure} {s' : σ}
      (reason : c.tolerated failure') : Results c change result (.error failure' s')
  | past {result : EStateM.Result Failure σ α} {result' : EStateM.Result Failure σ β}
      (reached : c.past (Step.left result)) : Results c change result result'

/-- Computations that from states that are alike come to results that compare. What is past
comparing stays so. -/
structure Runs (c : Comparison σ) (change : α → β) (m : EStateM Failure σ α)
    (m' : EStateM Failure σ β) : Prop where
  onward : ∀ s, c.past s → c.past (Step.left (m s))
  results : ∀ s s', c.alike s s' → Results c change (m s) (m' s')

variable {c : Comparison σ}

theorem Results.same {value : α} {s s' : σ} (states : c.alike s s') :
    Results c (fun given => given) (.ok value s) (.ok value s') :=
  .ok states

theorem Runs.pure {change : α → β} {value : α} {value' : β} (h : value' = change value) :
    Runs c change (pure value) (pure value') where
  onward := fun _ hpast => hpast
  results := by
    intro s s' hstates
    rw [h]
    exact .ok hstates

/-- Sequences compare where their parts do. -/
theorem Runs.bind {change : α → β} {next : γ → δ} {m : EStateM Failure σ α}
    {m' : EStateM Failure σ β} {k : α → EStateM Failure σ γ} {k' : β → EStateM Failure σ δ}
    (first : Runs c change m m') (rest : ∀ value, Runs c next (k value) (k' (change value))) :
    Runs c next (m >>= k) (m' >>= k') := by
  have honward : ∀ s, c.past (Step.left (m s)) → c.past (Step.left (EStateM.bind m k s)) := by
    intro s hpast
    unfold EStateM.bind
    cases hm : m s with
    | ok value t =>
        rw [hm] at hpast
        exact (rest value).onward t hpast
    | error failure t =>
        rw [hm] at hpast
        exact hpast
  constructor
  · intro s hpast
    exact honward s (first.onward s hpast)
  · intro s s' hstates
    have hpast := honward s
    show Results c next (EStateM.bind m k s) (EStateM.bind m' k' s')
    unfold EStateM.bind at hpast ⊢
    have hfirst := first.results s s' hstates
    generalize m s = result at hfirst hpast
    generalize m' s' = result' at hfirst
    cases hfirst with
    | ok states => exact (rest _).results _ _ states
    | error report states => exact .error report states
    | waived reason => exact .waived reason
    | tolerated reason => exact .tolerated reason
    | past reached => exact .past (hpast reached)

/-- Steps over a list compare where single steps do. -/
theorem Runs.mapM {given : γ → δ} {change : α → β} {step : γ → EStateM Failure σ α}
    {step' : δ → EStateM Failure σ β} (h : ∀ x, Runs c change (step x) (step' (given x)))
    (xs : List γ) : Runs c (List.map change) (xs.mapM step) ((xs.map given).mapM step') := by
  induction xs with
  | nil => exact Runs.pure rfl
  | cons x rest ih =>
      rw [List.map_cons, List.mapM_cons, List.mapM_cons]
      apply Runs.bind (h x)
      intro value
      apply Runs.bind ih
      intro others
      exact Runs.pure rfl

/-- Steps over a list that is the same in both runs. -/
theorem Runs.mapM_same {change : α → β} {step : γ → EStateM Failure σ α}
    {step' : γ → EStateM Failure σ β} (h : ∀ x, Runs c change (step x) (step' x)) (xs : List γ) :
    Runs c (List.map change) (xs.mapM step) (xs.mapM step') := by
  have hmap : Runs c (List.map change) (xs.mapM step) ((xs.map fun x => x).mapM step') :=
    Runs.mapM h xs
  rwa [List.map_id'] at hmap

end Paradigm
