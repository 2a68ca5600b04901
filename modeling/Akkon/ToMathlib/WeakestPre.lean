import Akkon.ToMathlib.Program

/-!
# Weakest preconditions of programs

A second meaning for programs, for operations whose answer is not determined: a relation `step` says
which answers an operation may get in a state and which states it may lead to.

* `Prog.Always step ok Q p s`: whatever the answers are, every operation that `p` calls from `s`
  meets `ok`, and every result meets `Q`;
* `Prog.Runs`: the runs that return, and `Prog.Always.of_runs`, `Prog.exists_runs`;
* `Prog.Always.bind`: the rule for sequences; `Prog.Always.mono`: the rule of consequence;
* `Prog.Always.invariant`: what every operation keeps holds behind every run;
* `Prog.under`: the answers with a condition on the calls, to reason about runs that meet it;
* `Prog.recording`: the answers with a record of them beside the state.
-/

namespace Prog

variable {Op : Type} {Res : Op → Type} {σ α β : Type}

/-- Every operation that a run from the state calls meets `ok`, and every result meets `Q`. -/
def Always (step : (o : Op) → σ → Res o → σ → Prop) (ok : Op → σ → Prop) (Q : α → σ → Prop) :
    Prog Op Res α → σ → Prop
  | ret a, s => Q a s
  | op o k, s => ok o s ∧ ∀ r t, step o s r t → Always step ok Q (k r) t

/-- The runs that return. -/
inductive Runs (step : (o : Op) → σ → Res o → σ → Prop) : Prog Op Res α → σ → α → σ → Prop
  | ret (a : α) (s : σ) : Runs step (ret a) s a s
  | op {o : Op} {k : Res o → Prog Op Res α} {s t s' : σ} {r : Res o} {a : α} :
    step o s r t → Runs step (k r) t a s' → Runs step (op o k) s a s'

variable {step : (o : Op) → σ → Res o → σ → Prop} {ok ok' : Op → σ → Prop} {Q Q' : α → σ → Prop}

/-- What holds behind the first part of a sequence has to be enough for the second one. -/
theorem Always.bind {R : β → σ → Prop} {p : Prog Op Res β} {f : β → Prog Op Res α} {s : σ}
    (hp : Always step ok R p s) (hf : ∀ b t, R b t → Always step ok Q (f b) t) :
    Always step ok Q (p >>= f) s := by
  induction p generalizing s with
  | ret b => exact hf b s hp
  | op o k ih => exact ⟨hp.1, fun r t hstep => ih r (hp.2 r t hstep)⟩

theorem always_bind {p : Prog Op Res β} {f : β → Prog Op Res α} {s : σ} :
    Always step ok Q (p >>= f) s ↔ Always step ok (fun b t => Always step ok Q (f b) t) p s := by
  refine ⟨fun h => ?_, fun h => h.bind fun _ _ hf => hf⟩
  induction p generalizing s with
  | ret b => exact h
  | op o k ih => exact ⟨h.1, fun r t hstep => ih r (h.2 r t hstep)⟩

theorem Always.mono {p : Prog Op Res α} {s : σ} (h : Always step ok Q p s)
    (hok : ∀ o s, ok o s → ok' o s) (hQ : ∀ a s, Q a s → Q' a s) : Always step ok' Q' p s := by
  induction p generalizing s with
  | ret a => exact hQ a s h
  | op o k ih => exact ⟨hok o s h.1, fun r t hstep => ih r (h.2 r t hstep)⟩

/-- Operations that are harmless in every state. -/
theorem Always.of_allOps {P : Op → Prop} (hP : ∀ o s, P o → ok o s) {p : Prog Op Res α}
    (hp : AllOps P p) (s : σ) : Always step ok (fun _ _ => True) p s := by
  induction p generalizing s with
  | ret a => trivial
  | op o k ih => exact ⟨hP o s hp.1, fun r t _ => ih r (hp.2 r) t⟩

/-- What every operation keeps holds behind every run. -/
theorem Always.invariant {I : σ → Prop} (hI : ∀ o s r t, step o s r t → I s → I t)
    {p : Prog Op Res α} {s : σ} (h : Always step ok Q p s) (hs : I s) :
    Always step ok (fun a t => Q a t ∧ I t) p s := by
  induction p generalizing s with
  | ret a => exact ⟨h, hs⟩
  | op o k ih => exact ⟨h.1, fun r t hstep => ih r (h.2 r t hstep) (hI o s r t hstep hs)⟩

/-- The result of a run. -/
theorem Always.of_runs {p : Prog Op Res α} {s s' : σ} {a : α} (h : Always step ok Q p s)
    (hrun : Runs step p s a s') : Q a s' := by
  induction hrun with
  | ret a s => exact h
  | op hstep _ ih => exact ih (h.2 _ _ hstep)

/-- A run of a sequence. -/
theorem Runs.bind {p : Prog Op Res β} {f : β → Prog Op Res α} {s t s' : σ} {b : β} {a : α}
    (hp : Runs step p s b t) (hf : Runs step (f b) t a s') : Runs step (p >>= f) s a s' := by
  induction hp with
  | ret b s => exact hf
  | op hstep _ ih => exact .op hstep (ih hf)

/-- Where every operation that is called has an answer, there is a run that returns. -/
theorem exists_runs (htotal : ∀ o s, ok o s → ∃ r t, step o s r t) {p : Prog Op Res α} {s : σ}
    (h : Always step ok Q p s) : ∃ a s', Runs step p s a s' ∧ Q a s' := by
  induction p generalizing s with
  | ret a => exact ⟨a, s, .ret a s, h⟩
  | op o k ih =>
    obtain ⟨r, t, hstep⟩ := htotal o s h.1
    obtain ⟨a, s', hrun, hQ⟩ := ih r (h.2 r t hstep)
    exact ⟨a, s', .op hstep hrun, hQ⟩

/-- The answers to the calls that meet a condition. -/
def under (allowed : Op → σ → Prop) (step : (o : Op) → σ → Res o → σ → Prop) :
    (o : Op) → σ → Res o → σ → Prop :=
  fun o s r t => allowed o s ∧ step o s r t

/-- There are fewer runs that meet a condition. -/
theorem Always.under {allowed : Op → σ → Prop} {p : Prog Op Res α} {s : σ}
    (h : Always step ok Q p s) : Always (Prog.under allowed step) ok Q p s := by
  induction p generalizing s with
  | ret a => exact h
  | op o k ih => exact ⟨h.1, fun r t hstep => ih r (h.2 r t hstep.2)⟩

/-- The answers, with a record of them that no answer depends on. -/
def recording {τ : Type} (record : τ → (o : Op) → Res o → τ)
    (step : (o : Op) → σ → Res o → σ → Prop) : (o : Op) → σ × τ → Res o → σ × τ → Prop :=
  fun o s r t => step o s.1 r t.1 ∧ t.2 = record s.2 o r

/-- What holds without the record holds with it. -/
theorem Always.recording {τ : Type} (record : τ → (o : Op) → Res o → τ) {p : Prog Op Res α} {s : σ}
    (h : Always step ok Q p s) (t : τ) :
    Always (Prog.recording record step) (fun o s => ok o s.1) (fun a s => Q a s.1) p (s, t) := by
  induction p generalizing s t with
  | ret a => exact h
  | op o k ih => exact ⟨h.1, fun r u hstep => ih r (h.2 r u.1 hstep.1) u.2⟩

/-- Every run can be recorded. -/
theorem Runs.recording {τ : Type} (record : τ → (o : Op) → Res o → τ) {p : Prog Op Res α}
    {s s' : σ} {a : α} (h : Runs step p s a s') (t : τ) :
    ∃ t', Runs (Prog.recording record step) p (s, t) a (s', t') := by
  induction h generalizing t with
  | ret a s => exact ⟨t, .ret a (s, t)⟩
  | @op o _ _ u _ r _ hstep _ ih =>
    obtain ⟨t', hrun⟩ := ih (record t o r)
    exact ⟨t', .op (t := (u, record t o r)) ⟨hstep, rfl⟩ hrun⟩

/-- The run without the record. -/
theorem Runs.of_recording {τ : Type} {record : τ → (o : Op) → Res o → τ} {p : Prog Op Res α}
    {s s' : σ × τ} {a : α} (h : Runs (Prog.recording record step) p s a s') :
    Runs step p s.1 a s'.1 := by
  induction h with
  | ret a s => exact .ret a s.1
  | op hstep _ ih => exact .op hstep.1 ih

end Prog
