import Mathlib.Data.Nat.Init
import Mathlib.Order.Nat
import Mathlib.Tactic.Push
import Akkon.ToMathlib.StepSystem

/-!
# Infinite runs, weak fairness and leads-to

What a step system does in the long run. A run is infinite; a moment at which no step is taken
leaves the state as it is, so finite runs are covered.

* `StepSystem.Run.WeaklyFair`: a process that could take a step at every moment from some time on
  takes one;
* `StepSystem.Run.Happens`: the step at a moment of the run is of a kind;
* `StepSystem.Run.iff_exists_happens`: what is brought about by steps of one kind;
* `StepSystem.Run.LeadsTo`: whenever `P` holds, `Q` holds then or later;
* `StepSystem.Run.leadsTo_of_step`: the rule for one helpful process, which keeps its step until it
  takes it;
* `StepSystem.Run.leadsTo_of_lt`: what makes a measure grow beyond every bound.
-/

namespace StepSystem

variable {State Label Proc : Type}

/-- An infinite run of a system. -/
structure Run (sys : StepSystem State Label) where
  state : ℕ → State
  /-- The step taken at a moment, if there is one. -/
  label : ℕ → Option Label
  init : sys.init (state 0)
  /-- Without a step the state stays. -/
  idle : ∀ t, label t = none → state (t + 1) = state t
  step : ∀ t l, label t = some l → sys.step (state t) l = some (state (t + 1))

/-- A process can take a step. `proc` gives the process of each label; the steps of the environment
belong to none. -/
def Enabled (sys : StepSystem State Label) (proc : Label → Option Proc) (p : Proc) (s : State) :
    Prop :=
  ∃ l, proc l = some p ∧ (sys.step s l).isSome

variable {sys : StepSystem State Label}

namespace Run

variable (run : sys.Run)

/-- A process that can take a step at every moment from some time on takes one. -/
def WeaklyFair (proc : Label → Option Proc) (p : Proc) : Prop :=
  ∀ t, (∀ u, t ≤ u → sys.Enabled proc p (run.state u)) →
    ∃ u, t ≤ u ∧ ∃ l, run.label u = some l ∧ proc l = some p

/-- Whenever `P` holds, `Q` holds then or later. -/
def LeadsTo (P Q : State → Prop) : Prop :=
  ∀ t, P (run.state t) → ∃ u, t ≤ u ∧ Q (run.state u)

/-- The step that is taken at a moment meets `A`. -/
def Happens (A : State → Label → Prop) (t : ℕ) : Prop :=
  ∃ l, run.label t = some l ∧ A (run.state t) l

theorem reachable (t : ℕ) : sys.Reachable (run.state t) := by
  induction t with
  | zero => exact .init run.init
  | succ t ih =>
    cases hlabel : run.label t with
    | none => rwa [run.idle t hlabel]
    | some l => exact .step ih trivial (run.step t l hlabel)

variable {run}

/-- What every step keeps holds from then on. -/
theorem of_le {P : State → Prop}
    (hkeep : ∀ s l s', sys.Reachable s → P s → sys.step s l = some s' → P s') {t u : ℕ}
    (htu : t ≤ u) (h : P (run.state t)) : P (run.state u) := by
  induction u, htu using Nat.le_induction with
  | base => exact h
  | succ u _ ih =>
    cases hlabel : run.label u with
    | none => rwa [run.idle u hlabel]
    | some l => exact hkeep _ _ _ (run.reachable u) ih (run.step u l hlabel)

/-- What steps of one kind bring about, and only they, and no step undoes, holds when such a step
was taken before. -/
theorem iff_exists_happens {P : State → Prop} {A : State → Label → Prop}
    (hinit : ∀ s, sys.init s → ¬ P s)
    (hstep : ∀ s l s', sys.step s l = some s' → (P s' ↔ P s ∨ A s l)) (t : ℕ) :
    P (run.state t) ↔ ∃ u < t, run.Happens A u := by
  induction t with
  | zero => exact iff_of_false (hinit _ run.init) (by simp)
  | succ t ih =>
    simp only [Nat.lt_succ_iff_lt_or_eq, or_and_right, exists_or, exists_eq_left]
    cases hlabel : run.label t with
    | none => simp [run.idle t hlabel, ih, Happens, hlabel]
    | some l => simp [hstep _ l _ (run.step t l hlabel), ih, Happens, hlabel]

namespace LeadsTo

variable {P P' Q R : State → Prop}

theorem refl : run.LeadsTo P P := fun t h => ⟨t, le_rfl, h⟩

theorem trans (hPQ : run.LeadsTo P Q) (hQR : run.LeadsTo Q R) : run.LeadsTo P R := by
  intro t hP
  obtain ⟨u, htu, hQ⟩ := hPQ t hP
  obtain ⟨v, huv, hR⟩ := hQR u hQ
  exact ⟨v, htu.trans huv, hR⟩

theorem or (hP : run.LeadsTo P Q) (hP' : run.LeadsTo P' Q) :
    run.LeadsTo (fun s => P s ∨ P' s) Q :=
  fun t h => h.elim (hP t) (hP' t)

/-- Several intermediate states. -/
theorem exists_elim {ι : Sort*} {P : ι → State → Prop} (h : ∀ i, run.LeadsTo (P i) Q) :
    run.LeadsTo (fun s => ∃ i, P i s) Q :=
  fun t ⟨i, hi⟩ => h i t hi

end LeadsTo

/-- The rule for one helpful process: while `P` holds the process can take a step, its step leads to
`Q`, and every other step keeps `P` or leads to `Q` as well. -/
theorem leadsTo_of_step {proc : Label → Option Proc} {p : Proc} {P Q : State → Prop}
    (hfair : run.WeaklyFair proc p)
    (henabled : ∀ s, sys.Reachable s → P s → sys.Enabled proc p s)
    (hkeep : ∀ s l s', sys.Reachable s → P s → sys.step s l = some s' → P s' ∨ Q s')
    (hhelp : ∀ s l s', sys.Reachable s → P s → sys.step s l = some s' → proc l = some p → Q s') :
    run.LeadsTo P Q := by
  intro t hP
  by_contra hnever
  push Not at hnever
  -- `P` holds for ever, so the process can always take its step
  have hforever : ∀ u, t ≤ u → P (run.state u) := by
    intro u htu
    induction u, htu using Nat.le_induction with
    | base => exact hP
    | succ u htu ih =>
      cases hlabel : run.label u with
      | none => rwa [run.idle u hlabel]
      | some l =>
        exact (hkeep _ _ _ (run.reachable u) ih (run.step u l hlabel)).resolve_right
          (hnever (u + 1) (by omega))
  obtain ⟨u, htu, l, hlabel, hproc⟩ :=
    hfair t fun u htu => henabled _ (run.reachable u) (hforever u htu)
  exact hnever (u + 1) (by omega)
    (hhelp _ _ _ (run.reachable u) (hforever u htu) (run.step u l hlabel) hproc)

/-- A measure that never falls, and grows whenever `P` holds, exceeds every bound, or `P` fails. -/
theorem leadsTo_of_lt {measure : State → ℕ} {P : State → Prop}
    (hgrow : ∀ d, run.LeadsTo (fun s => P s ∧ measure s = d) fun s => d < measure s)
    (bound : ℕ) : run.LeadsTo (fun _ => True) fun s => bound < measure s ∨ ¬ P s := by
  intro t _
  -- induction on the distance to the bound
  obtain ⟨k, hk⟩ : ∃ k, bound + 1 ≤ measure (run.state t) + k := ⟨bound + 1, by omega⟩
  induction k generalizing t with
  | zero => exact ⟨t, le_rfl, .inl (by omega)⟩
  | succ k ih =>
    by_cases hP : P (run.state t)
    · obtain ⟨u, htu, hu⟩ := hgrow _ t ⟨hP, rfl⟩
      obtain ⟨v, huv, hv⟩ := ih u (by omega)
      exact ⟨v, htu.trans huv, hv⟩
    · exact ⟨t, le_rfl, .inr hP⟩

end Run

end StepSystem
