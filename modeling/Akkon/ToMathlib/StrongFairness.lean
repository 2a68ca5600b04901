import Akkon.ToMathlib.FairRun

/-!
# Strong fairness

A process that waits for a lock can take its step at some moments and not at others, so weak
fairness promises it nothing. Strong fairness does: a process that can take a step again and again
takes one.

* `StepSystem.Run.StronglyFair`: the notion;
* `StepSystem.Run.LeadsTo.keeping`: what comes about while something else is kept;
* `StepSystem.Run.leadsTo_of_recurring`: the rule for a process that waits for its step;
* `StepSystem.Run.leadsTo_of_measure`: descent along a measure;
* `StepSystem.Run.along`: the run along a sequence of labels, those left out that are not enabled.
-/

namespace StepSystem

variable {State Label Proc : Type} {sys : StepSystem State Label}

namespace Run

variable (run : sys.Run)

/-- A process that can take a step again and again takes one. -/
def StronglyFair (proc : Label → Option Proc) (p : Proc) : Prop :=
  ∀ t, (∀ u, t ≤ u → ∃ v, u ≤ v ∧ sys.Enabled proc p (run.state v)) →
    ∃ u, t ≤ u ∧ ∃ l, run.label u = some l ∧ proc l = some p

variable {run} {proc : Label → Option Proc} {p : Proc} {P Q : State → Prop}

/-- What no step ends holds up to a moment at which `Q` does. -/
theorem of_le_of_never
    (hkeep : ∀ s l s', sys.Reachable s → P s → sys.step s l = some s' → P s' ∨ Q s') {t u : ℕ}
    (htu : t ≤ u) (h : P (run.state t)) (hnever : ∀ v, t ≤ v → v ≤ u → ¬ Q (run.state v)) :
    P (run.state u) := by
  induction u, htu using Nat.le_induction with
  | base => exact h
  | succ u htu ih =>
    have hu := ih fun v htv hvu => hnever v htv (hvu.trans (Nat.le_succ u))
    cases hlabel : run.label u with
    | none => rwa [run.idle u hlabel]
    | some l =>
      exact (hkeep _ _ _ (run.reachable u) hu (run.step u l hlabel)).resolve_right
        (hnever (u + 1) (htu.trans (Nat.le_succ u)) le_rfl)

/-- Progress beside what is kept: where `R` comes from `P`, it comes while `P` holds, or `Q` comes
before. -/
theorem LeadsTo.keeping {R : State → Prop} (h : run.LeadsTo P R)
    (hkeep : ∀ s l s', sys.Reachable s → P s → sys.step s l = some s' → P s' ∨ Q s') :
    run.LeadsTo P fun s => (P s ∧ R s) ∨ Q s := by
  intro t hP
  obtain ⟨u, htu, hR⟩ := h t hP
  by_cases hQ : ∃ v, t ≤ v ∧ v ≤ u ∧ Q (run.state v)
  · obtain ⟨v, htv, -, hQ⟩ := hQ
    exact ⟨v, htv, .inr hQ⟩
  · push Not at hQ
    exact ⟨u, htu, .inl ⟨of_le_of_never hkeep htu hP hQ, hR⟩⟩

/-- The rule for a process that waits for its step: while `P` holds, the step is enabled again and
again, it leads to `Q`, and every other step keeps `P` or leads to `Q` as well. -/
theorem leadsTo_of_recurring (hfair : run.StronglyFair proc p)
    (hagain : run.LeadsTo P fun s => sys.Enabled proc p s ∨ Q s)
    (hkeep : ∀ s l s', sys.Reachable s → P s → sys.step s l = some s' → P s' ∨ Q s')
    (hhelp : ∀ s l s', sys.Reachable s → P s → sys.step s l = some s' → proc l = some p → Q s') :
    run.LeadsTo P Q := by
  intro t hP
  by_contra hnever
  push Not at hnever
  have hforever (u : ℕ) (htu : t ≤ u) : P (run.state u) :=
    of_le_of_never hkeep htu hP fun v htv _ => hnever v htv
  obtain ⟨u, htu, l, hlabel, hproc⟩ := hfair t fun u htu => by
    obtain ⟨v, huv, hv⟩ := hagain u (hforever u htu)
    exact ⟨v, huv, hv.resolve_right (hnever v (htu.trans huv))⟩
  exact hnever (u + 1) (by omega)
    (hhelp _ _ _ (run.reachable u) (hforever u htu) (run.step u l hlabel) hproc)

/-- Descent: `P` leads to `Q`, or to itself with a smaller measure. -/
theorem leadsTo_of_measure (measure : State → ℕ)
    (h : ∀ d, run.LeadsTo (fun s => P s ∧ measure s = d) fun s => (P s ∧ measure s < d) ∨ Q s) :
    run.LeadsTo P Q := by
  intro t hP
  -- induction on the measure
  obtain ⟨d, hd⟩ : ∃ d, measure (run.state t) = d := ⟨_, rfl⟩
  induction d using Nat.strong_induction_on generalizing t with
  | _ d ih =>
    obtain ⟨u, htu, ⟨hu, hlt⟩ | hQ⟩ := h d t ⟨hP, hd⟩
    · obtain ⟨v, huv, hQ⟩ := ih _ hlt u hu rfl
      exact ⟨v, htu.trans huv, hQ⟩
    · exact ⟨u, htu, hQ⟩

/-! ## The run along a sequence of labels -/

/-- The states along a sequence of labels; a label that is not enabled is passed over. -/
def play (sys : StepSystem State Label) (s : State) (labels : ℕ → Label) : ℕ → State
  | 0 => s
  | t + 1 => (sys.step (play sys s labels t) (labels t)).getD (play sys s labels t)

/-- The run with these states. -/
def along (sys : StepSystem State Label) {s : State} (hs : sys.init s) (labels : ℕ → Label) :
    sys.Run where
  state := play sys s labels
  label t := if (sys.step (play sys s labels t) (labels t)).isSome then some (labels t) else none
  init := hs
  idle t h := by
    have hnone : sys.step (play sys s labels t) (labels t) = none := by
      by_contra hne
      rw [if_pos (Option.isSome_iff_ne_none.mpr hne)] at h
      cases h
    rw [play, hnone, Option.getD_none]
  step t l h := by
    split at h
    · next hsome =>
      obtain rfl := Option.some.inj h
      obtain ⟨s', hs'⟩ := Option.isSome_iff_exists.mp hsome
      rw [play, hs', Option.getD_some]
    · cases h

end Run

end StepSystem
