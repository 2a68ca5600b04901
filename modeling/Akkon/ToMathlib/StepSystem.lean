import Mathlib.Logic.Relation

/-!
# Step systems and their runs

A step system has initial states and labelled steps given by a partial function: a label that is not
enabled has no successor. Two ways of quantifying over runs are provided, with the induction rule
for each.

* `StepSystem.ReachableUnder`: the states reached by steps that all meet a condition on the state
  before the step and its label; `StepSystem.Reachable` is the case without a condition;
* `StepSystem.ReachableUnder.invariant`: an invariant of the initial states that every allowed step
  preserves holds in every state reached;
* `StepSystem.runFrom`: the state at the end of a given list of labels, which evaluates;
* `StepSystem.startingAt`: the system from one of its states on;
* `StepSystem.restrict`: the system without the steps that fail a condition, to evaluate runs
  under it;
* `EachStep`: a property of every step of a deterministic machine with outputs along a list of
  events, and `EachStep.forall_outputs`, which carries what each step establishes to the end of
  the run;
* `specOutputs_eq`: states related by a bisimulation give the same outputs;
* `Refines`: a simulation between two deterministic machines with outputs, and
  `Refines.outputs_eq`, which lifts it from one event to whole runs.
-/

/-- Initial states and partial labelled steps. -/
structure StepSystem (State Label : Type) where
  /-- The initial states. -/
  init : State → Prop
  /-- The successor under a label, `none` where the label is not enabled. -/
  step : State → Label → Option State

namespace StepSystem

variable {State Label : Type} (sys : StepSystem State Label)

/-- The states reached by steps that all meet `ok`. -/
inductive ReachableUnder (ok : State → Label → Prop) : State → Prop
  | init {s : State} : sys.init s → ReachableUnder ok s
  | step {s s' : State} {l : Label} :
    ReachableUnder ok s → ok s l → sys.step s l = some s' → ReachableUnder ok s'

/-- The states reached by any steps. -/
def Reachable (s : State) : Prop := sys.ReachableUnder (fun _ _ => True) s

variable {sys}

namespace ReachableUnder

/-- The invariant rule: what holds initially and is preserved by the allowed steps holds in every
state reached by them. -/
theorem invariant {ok : State → Label → Prop} {I : State → Prop}
    (hinit : ∀ s, sys.init s → I s)
    (hstep : ∀ s l s', I s → ok s l → sys.step s l = some s' → I s')
    {s : State} (h : sys.ReachableUnder ok s) : I s := by
  induction h with
  | init hs => exact hinit _ hs
  | step _ hok hs ih => exact hstep _ _ _ ih hok hs

/-- A weaker condition reaches more states. -/
theorem mono {ok ok' : State → Label → Prop} (hle : ∀ s l, ok s l → ok' s l) {s : State}
    (h : sys.ReachableUnder ok s) : sys.ReachableUnder ok' s := by
  induction h with
  | init hs => exact .init hs
  | step _ hok hs ih => exact .step ih (hle _ _ hok) hs

end ReachableUnder

/-- The state at the end of a list of labels. -/
def runFrom (sys : StepSystem State Label) : State → List Label → Option State
  | s, [] => some s
  | s, l :: ls => (sys.step s l).bind fun s' => runFrom sys s' ls

@[simp]
theorem runFrom_nil (s : State) : sys.runFrom s [] = some s := rfl

@[simp]
theorem runFrom_cons (s : State) (l : Label) (ls : List Label) :
    sys.runFrom s (l :: ls) = (sys.step s l).bind fun s' => sys.runFrom s' ls := rfl

/-- A run from a reachable state ends in a reachable state. -/
theorem Reachable.runFrom {s s' : State} (h : sys.Reachable s) {ls : List Label}
    (hrun : sys.runFrom s ls = some s') : sys.Reachable s' := by
  induction ls generalizing s with
  | nil =>
    cases hrun
    exact h
  | cons l ls ih =>
    obtain ⟨t, ht, hrest⟩ := Option.bind_eq_some_iff.mp hrun
    exact ih (.step h trivial ht) hrest

/-- A run that evaluates to a state with a property shows that such a state is reachable. -/
theorem exists_reachable_of_any {s : State} (hs : sys.init s) {ls : List Label} {p : State → Bool}
    (hrun : (sys.runFrom s ls).any p = true) : ∃ t, sys.Reachable t ∧ p t = true := by
  obtain ⟨t, ht, hp⟩ := (Option.any_eq_true p _).mp hrun
  exact ⟨t, Reachable.runFrom (.init hs) ht, hp⟩

/-- The same steps from one state on. -/
def startingAt (sys : StepSystem State Label) (s₀ : State) : StepSystem State Label :=
  { sys with init := (· = s₀) }

/-- The steps of a system that meet `ok`. -/
def restrict (sys : StepSystem State Label) (ok : State → Label → Prop)
    [∀ s l, Decidable (ok s l)] : StepSystem State Label where
  init := sys.init
  step s l := if ok s l then sys.step s l else none

/-- What the allowed steps alone reach is reached under the condition. -/
theorem Reachable.of_restrict {ok : State → Label → Prop} [∀ s l, Decidable (ok s l)] {s : State}
    (h : (sys.restrict ok).Reachable s) : sys.ReachableUnder ok s := by
  induction h with
  | init hs => exact .init hs
  | @step s s' l _ _ hs ih =>
    simp only [restrict] at hs
    split at hs
    · next hok => exact .step ih hok hs
    · cases hs

end StepSystem

/-! ## Deterministic machines -/

section Machine

variable {S A E O ε : Type}

/-- The outputs of a machine along a list of events, together with the state at the end. A machine
that throws has no outputs. -/
def runOutputs (step : S → E → Except ε (S × O)) : S → List E → Except ε (S × List O)
  | s, [] => .ok (s, [])
  | s, e :: es => do
    let (s', o) ← step s e
    let (s'', os) ← runOutputs step s' es
    return (s'', o :: os)

/-- A step in front of a run. -/
theorem runOutputs_cons {step : S → E → Except ε (S × O)} {s t s' : S} {e : E} {o : O}
    {es : List E} {os : List O} (hstep : step s e = .ok (t, o))
    (hrun : runOutputs step t es = .ok (s', os)) :
    runOutputs step s (e :: es) = .ok (s', o :: os) := by
  simp only [runOutputs, hstep]
  change (runOutputs step t es).bind _ = _
  rw [hrun]
  rfl

/-- Every step of the run along a list of events succeeds and meets `P`, which sees the state
before, the event, the state behind and the output. -/
def EachStep (step : S → E → Except ε (S × O)) (P : S → E → S → O → Prop) : S → List E → Prop
  | _, [] => True
  | s, e :: es => ∃ s' o, step s e = .ok (s', o) ∧ P s e s' o ∧ EachStep step P s' es

section EachStep

variable {step : S → E → Except ε (S × O)} {P Q : S → E → S → O → Prop} {s : S} {es : List E}

/-- Two properties that agree where an invariant holds, and the first of which keeps the invariant,
hold of the same runs. -/
theorem eachStep_congr {I : S → Prop}
    (hiff : ∀ s e s' o, I s → step s e = .ok (s', o) → (P s e s' o ↔ Q s e s' o))
    (hinv : ∀ s e s' o, I s → step s e = .ok (s', o) → P s e s' o → I s') (hs : I s) :
    EachStep step P s es ↔ EachStep step Q s es := by
  induction es generalizing s with
  | nil => rfl
  | cons e es ih =>
    constructor
    · rintro ⟨s', o, hstep, hP, hrest⟩
      exact ⟨s', o, hstep, (hiff s e s' o hs hstep).mp hP,
        (ih (hinv s e s' o hs hstep hP)).mp hrest⟩
    · rintro ⟨s', o, hstep, hQ, hrest⟩
      have hP := (hiff s e s' o hs hstep).mpr hQ
      exact ⟨s', o, hstep, hP, (ih (hinv s e s' o hs hstep hP)).mpr hrest⟩

theorem EachStep.mono (h : EachStep step P s es)
    (hPQ : ∀ s e s' o, step s e = .ok (s', o) → P s e s' o → Q s e s' o) :
    EachStep step Q s es := by
  induction es generalizing s with
  | nil => trivial
  | cons e es ih =>
    obtain ⟨s', o, hstep, hP, hrest⟩ := h
    exact ⟨s', o, hstep, hPQ s e s' o hstep hP, ih hrest⟩

/-- A property of the state that every step keeps holds at the end of the run. -/
theorem EachStep.invariant {I : S → Prop} (h : EachStep step P s es)
    (hkeep : ∀ s e s' o, step s e = .ok (s', o) → P s e s' o → I s → I s') (hs : I s) :
    ∃ s' os, runOutputs step s es = .ok (s', os) ∧ I s' := by
  induction es generalizing s with
  | nil => exact ⟨s, [], rfl, hs⟩
  | cons e es ih =>
    obtain ⟨t, o, hstep, hP, hrest⟩ := h
    obtain ⟨s', os, hrun, hs'⟩ := ih hrest (hkeep s e t o hstep hP hs)
    exact ⟨s', o :: os, runOutputs_cons hstep hrun, hs'⟩

/-- What each step establishes about its event and output, and later steps keep, holds of all of
them at the end of the run. -/
theorem EachStep.forall_outputs {good : S → E → O → Prop} (h : EachStep step P s es)
    (hnew : ∀ s e s' o, step s e = .ok (s', o) → P s e s' o → good s' e o)
    (hkeep : ∀ s e s' o, step s e = .ok (s', o) → P s e s' o → ∀ f q, good s f q → good s' f q) :
    ∃ s' os, runOutputs step s es = .ok (s', os) ∧ ∀ p ∈ es.zip os, good s' p.1 p.2 := by
  induction es generalizing s with
  | nil => exact ⟨s, [], rfl, by simp⟩
  | cons e es ih =>
    obtain ⟨t, o, hstep, hP, hrest⟩ := h
    obtain ⟨s', os, hrun, hgood⟩ := ih hrest
    -- what the first step establishes is carried along the rest of the run
    obtain ⟨s'', os'', hrun', hfirst⟩ := hrest.invariant
      (fun s e s' o hstep hP => hkeep s e s' o hstep hP _ _) (hnew s e t o hstep hP)
    rw [hrun] at hrun'
    cases hrun'
    refine ⟨s', o :: os, runOutputs_cons hstep hrun, ?_⟩
    rintro p hp
    rcases List.mem_cons.mp hp with rfl | hp
    · exact hfirst
    · exact hgood p hp

end EachStep

/-- The outputs of a specification along a list of events, together with the state at the end. -/
def specOutputs (spec : A → E → A × O) : A → List E → A × List O
  | a, [] => (a, [])
  | a, e :: es =>
    ((specOutputs spec (spec a e).1 es).1, (spec a e).2 :: (specOutputs spec (spec a e).1 es).2)

/-- States that a machine without exceptions cannot tell apart in one event, it cannot tell apart in
any run. -/
theorem specOutputs_eq {spec : A → E → A × O} {rel : A → A → Prop}
    (hrel : ∀ a b e, rel a b → rel (spec a e).1 (spec b e).1 ∧ (spec a e).2 = (spec b e).2)
    {a b : A} (h : rel a b) (es : List E) :
    (specOutputs spec a es).2 = (specOutputs spec b es).2 := by
  induction es generalizing a b with
  | nil => rfl
  | cons e es ih =>
    obtain ⟨hnext, hout⟩ := hrel a b e h
    rw [specOutputs, specOutputs, hout, ih hnext]

/-- `rel` is a simulation of the machine `step` by the machine `spec` on the events that are
`valid`: each event succeeds, gives the output the specification gives, and keeps the relation. -/
structure Refines (step : S → E → Except ε (S × O)) (spec : A → E → A × O) (valid : E → Prop)
    (rel : S → A → Prop) : Prop where
  /-- One event. -/
  step : ∀ s a e, rel s a → valid e →
    ∃ s', step s e = .ok (s', (spec a e).2) ∧ rel s' (spec a e).1

/-- A simulation of single events is one of whole runs. -/
theorem Refines.outputs_eq {step : S → E → Except ε (S × O)} {spec : A → E → A × O}
    {valid : E → Prop} {rel : S → A → Prop} (h : Refines step spec valid rel) {s : S} {a : A}
    (hrel : rel s a) {es : List E} (hes : ∀ e ∈ es, valid e) :
    ∃ s', runOutputs step s es = .ok (s', (specOutputs spec a es).2) ∧
      rel s' (specOutputs spec a es).1 := by
  induction es generalizing s a with
  | nil => exact ⟨s, rfl, hrel⟩
  | cons e es ih =>
    obtain ⟨s₁, hs, hrel₁⟩ := h.step s a e hrel (hes e (by simp))
    obtain ⟨s', hrun, hrel'⟩ := ih hrel₁ fun e he => hes e (by simp [he])
    exact ⟨s', runOutputs_cons hs hrun, hrel'⟩

end Machine
