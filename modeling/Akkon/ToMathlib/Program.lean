import Mathlib.Control.Basic
import Mathlib.Logic.Function.Basic
import Akkon.ToMathlib.StepSystem

/-!
# Programs over a signature of operations

A program is a tree: it returns, or it calls an operation and goes on with the answer. The
operations are left open, so one program text can be given a sequential meaning (`Prog.run`, where a
handler answers each operation and changes a state) and, operation by operation, a concurrent one.

* `Prog.AllOps`: a property of every operation a program can call, and `Prog.allOps_bind`;
* `Prog.run_rel`: a reflexive and transitive relation kept by each operation is kept by the run;
* `Prog.run_isOk`: a program whose operations never fail runs to its end;
* `Prog.Calls`, `Prog.Precedes`, `Prog.Last`, `Prog.AtMostOnce`: which operations a program can
  call, in which order and how often;
* `Prog.Ends`, `Prog.run_of_ends`: a program with a single operation of a kind, its last one;
* `Prog.Reaches`: a program that calls an operation of a kind in any case;
* `Prog.interpret`: a program over another signature, each operation replaced by a program;
* `Pool`: programs that run side by side, interleaved operation by operation.
-/

/-- A program that returns an `α` and calls operations `o : Op` answered by a `Res o`. -/
inductive Prog (Op : Type) (Res : Op → Type) (α : Type) : Type
  /-- Return a value. -/
  | ret (a : α)
  /-- Call an operation and go on with its answer. -/
  | op (o : Op) (k : Res o → Prog Op Res α)

namespace Prog

variable {Op : Type} {Res : Op → Type} {α β γ : Type}

/-- Sequencing. -/
def bind : Prog Op Res α → (α → Prog Op Res β) → Prog Op Res β
  | ret a, f => f a
  | op o k, f => op o fun r => (k r).bind f

instance : Monad (Prog Op Res) where
  pure := ret
  bind := bind

/-- A single operation. -/
def call (o : Op) : Prog Op Res (Res o) := op o ret

@[simp]
theorem pure_eq (a : α) : (pure a : Prog Op Res α) = ret a := rfl

@[simp]
theorem ret_bind (a : α) (f : α → Prog Op Res β) : (ret a >>= f) = f a := rfl

@[simp]
theorem op_bind (o : Op) (k : Res o → Prog Op Res α) (f : α → Prog Op Res β) :
    (op o k >>= f) = op o fun r => k r >>= f := rfl

@[simp]
theorem call_bind (o : Op) (f : Res o → Prog Op Res β) : (call o >>= f) = op o f := rfl

theorem bind_ret (p : Prog Op Res α) : p >>= ret = p := by
  induction p with
  | ret a => rfl
  | op o k ih => exact congrArg (op o) (funext ih)

theorem bind_assoc (p : Prog Op Res α) (f : α → Prog Op Res β) (g : β → Prog Op Res γ) :
    p >>= f >>= g = p >>= fun a => f a >>= g := by
  induction p with
  | ret a => rfl
  | op o k ih => exact congrArg (op o) (funext ih)

instance : LawfulMonad (Prog Op Res) :=
  LawfulMonad.mk' _ (fun p => bind_ret p) (fun _ _ => rfl) bind_assoc

/-! ## Sequential runs -/

section Run

variable {σ ε : Type} (h : (o : Op) → σ → Except ε (Res o × σ))

/-- The run of a program against a handler that answers each operation in a state. -/
def run : Prog Op Res α → σ → Except ε (α × σ)
  | ret a, s => .ok (a, s)
  | op o k, s =>
    match h o s with
    | .ok (r, s') => (k r).run s'
    | .error e => .error e

@[simp]
theorem run_ret (a : α) (s : σ) : (ret a : Prog Op Res α).run h s = .ok (a, s) := rfl

theorem run_op_ok {o : Op} {k : Res o → Prog Op Res α} {s s' : σ} {r : Res o}
    (hop : h o s = .ok (r, s')) : (op o k).run h s = (k r).run h s' := by
  simp only [run, hop]

theorem run_op_error {o : Op} {k : Res o → Prog Op Res α} {s : σ} {e : ε}
    (hop : h o s = .error e) : (op o k).run h s = .error e := by
  simp only [run, hop]

/-- A sequence goes on with the result and the state of its first part. -/
theorem run_bind_ok {p : Prog Op Res α} {f : α → Prog Op Res β} {s s' : σ} {a : α}
    (hrun : p.run h s = .ok (a, s')) : (p >>= f).run h s = (f a).run h s' := by
  induction p generalizing s with
  | ret b =>
    cases hrun
    rfl
  | op o k ih =>
    rw [op_bind]
    cases hop : h o s with
    | error e =>
      rw [run_op_error h hop] at hrun
      cases hrun
    | ok p =>
      obtain ⟨r, t⟩ := p
      rw [run_op_ok h hop] at hrun ⊢
      exact ih r hrun

/-! ## Properties of every operation -/

/-- Every operation the program can call meets `P`, whatever the answers are. -/
def AllOps (P : Op → Prop) : Prog Op Res α → Prop
  | ret _ => True
  | op o k => P o ∧ ∀ r, AllOps P (k r)

@[simp]
theorem allOps_ret (P : Op → Prop) (a : α) : AllOps P (ret a : Prog Op Res α) := trivial

@[simp]
theorem allOps_op {P : Op → Prop} {o : Op} {k : Res o → Prog Op Res α} :
    AllOps P (op o k) ↔ P o ∧ ∀ r, AllOps P (k r) := Iff.rfl

theorem AllOps.bind {P : Op → Prop} {p : Prog Op Res α} {f : α → Prog Op Res β}
    (hp : AllOps P p) (hf : ∀ a, AllOps P (f a)) : AllOps P (p >>= f) := by
  induction p with
  | ret a => exact hf a
  | op o k ih => exact ⟨hp.1, fun r => ih r (hp.2 r)⟩

theorem AllOps.mono {P Q : Op → Prop} (hPQ : ∀ o, P o → Q o) {p : Prog Op Res α}
    (hp : AllOps P p) : AllOps Q p := by
  induction p with
  | ret a => trivial
  | op o k ih => exact ⟨hPQ o hp.1, fun r => ih r (hp.2 r)⟩

theorem allOps_true (p : Prog Op Res α) : AllOps (fun _ => True) p := by
  induction p with
  | ret a => trivial
  | op o k ih => exact ⟨trivial, ih⟩

/-- A reflexive and transitive relation that each operation of the program keeps is kept by its
run. -/
theorem run_rel {P : Op → Prop} {R : σ → σ → Prop} (hrefl : ∀ s, R s s)
    (htrans : ∀ s t u, R s t → R t u → R s u)
    (hop : ∀ o s r s', P o → h o s = .ok (r, s') → R s s')
    {p : Prog Op Res α} (hp : AllOps P p) {s s' : σ} {a : α} (hrun : p.run h s = .ok (a, s')) :
    R s s' := by
  induction p generalizing s with
  | ret b =>
    cases hrun
    exact hrefl _
  | op o k ih =>
    cases hr : h o s with
    -- a run that has returned met no error
    | error e => rw [run_op_error h hr] at hrun; cases hrun
    | ok rs =>
      obtain ⟨r, t⟩ := rs
      rw [run_op_ok h hr] at hrun
      exact htrans _ _ _ (hop o s r t hp.1 hr) (ih r (hp.2 r) hrun)

/-- A program whose operations never fail runs to its end. -/
theorem run_isOk {P : Op → Prop} (hop : ∀ o s, P o → ∃ r, h o s = .ok r)
    {p : Prog Op Res α} (hp : AllOps P p) (s : σ) : ∃ r, p.run h s = .ok r := by
  induction p generalizing s with
  | ret a => exact ⟨(a, s), rfl⟩
  | op o k ih =>
    obtain ⟨⟨r, t⟩, hr⟩ := hop o s hp.1
    rw [run_op_ok h hr]
    exact ih r (hp.2 r) t

end Run

/-! ## Which operations are called, and in which order -/

/-- The program can call the operation. -/
def Calls (p : Prog Op Res α) (o : Op) : Prop := ¬ AllOps (· ≠ o) p

/-- What a program can call behind its first operation, it can call. -/
theorem Calls.of_op {o o' : Op} {k : Res o → Prog Op Res α} {r : Res o} (h : (k r).Calls o') :
    (op o k).Calls o' :=
  fun hall => h (hall.2 r)

/-- The operation in front is called. -/
theorem calls_head (o : Op) (k : Res o → Prog Op Res α) : (op o k).Calls o := fun hall => hall.1 rfl

/-- No operation with `b` is called before one with `a`. -/
def Precedes (a b : Op → Prop) : Prog Op Res α → Prop
  | ret _ => True
  | op o k => a o ∨ (¬ b o ∧ ∀ r, Precedes a b (k r))

theorem Precedes.of_allOps {a b : Op → Prop} {p : Prog Op Res α} (h : AllOps (fun o => ¬ b o) p) :
    Precedes a b p := by
  induction p with
  | ret _ => trivial
  | op o k ih => exact Or.inr ⟨h.1, fun r => ih r (h.2 r)⟩

theorem Precedes.bind {a b : Op → Prop} {p : Prog Op Res α} {f : α → Prog Op Res β}
    (hp : Precedes a b p) (hf : ∀ x, Precedes a b (f x)) : Precedes a b (p >>= f) := by
  induction p with
  | ret x => exact hf x
  | op o k ih => exact hp.imp_right fun h => ⟨h.1, fun r => ih r (h.2 r)⟩

/-- An operation with `a` is the last one: behind it the program returns. -/
def Last (a : Op → Prop) : Prog Op Res α → Prop
  | ret _ => True
  | op o k => (a o → ∀ r, ∃ x, k r = ret x) ∧ ∀ r, Last a (k r)

theorem Last.of_allOps {a : Op → Prop} {p : Prog Op Res α} (h : AllOps (fun o => ¬ a o) p) :
    Last a p := by
  induction p with
  | ret _ => trivial
  | op o k ih => exact ⟨fun ha => absurd ha h.1, fun r => ih r (h.2 r)⟩

/-- In front of a program, operations without `a` do not matter. -/
theorem Last.bind {a : Op → Prop} {p : Prog Op Res α} {f : α → Prog Op Res β}
    (hp : AllOps (fun o => ¬ a o) p) (hf : ∀ x, Last a (f x)) : Last a (p >>= f) := by
  induction p with
  | ret x => exact hf x
  | op o k ih => exact ⟨fun ha => absurd ha hp.1, fun r => ih r (hp.2 r)⟩

/-- An operation with `a` is called once at most. -/
def AtMostOnce (a : Op → Prop) : Prog Op Res α → Prop
  | ret _ => True
  | op o k => (a o → ∀ r, AllOps (fun o => ¬ a o) (k r)) ∧ ∀ r, AtMostOnce a (k r)

theorem AtMostOnce.of_allOps {a : Op → Prop} {p : Prog Op Res α} (h : AllOps (fun o => ¬ a o) p) :
    AtMostOnce a p := by
  induction p with
  | ret _ => trivial
  | op o k ih => exact ⟨fun ha => absurd ha h.1, fun r => ih r (h.2 r)⟩

/-- In front of a program, operations without `a` do not matter. -/
theorem AtMostOnce.bind {a : Op → Prop} {p : Prog Op Res α} {f : α → Prog Op Res β}
    (hp : AllOps (fun o => ¬ a o) p) (hf : ∀ x, AtMostOnce a (f x)) : AtMostOnce a (p >>= f) := by
  induction p with
  | ret x => exact hf x
  | op o k ih => exact ⟨fun ha => absurd ha hp.1, fun r => ih r (hp.2 r)⟩

/-- Operations with `P`, and behind them one with `a`, the last one. -/
def Ends (P a : Op → Prop) : Prog Op Res α → Prop
  | ret _ => False
  | op o k => (a o ∧ ∀ r, ∃ x, k r = ret x) ∨ (P o ∧ ∀ r, Ends P a (k r))

/-- In front of the last operation there may be any program of operations with `P`. -/
theorem Ends.bind {P a : Op → Prop} {p : Prog Op Res α} {f : α → Prog Op Res β}
    (hp : AllOps P p) (hf : ∀ x, Ends P a (f x)) : Ends P a (p >>= f) := by
  induction p with
  | ret x => exact hf x
  | op o k ih => exact Or.inr ⟨hp.1, fun r => ih r (hp.2 r)⟩

theorem Ends.mono {P Q a : Op → Prop} (hPQ : ∀ o, P o → Q o) {p : Prog Op Res α}
    (hp : Ends P a p) : Ends Q a p := by
  induction p with
  | ret x => exact hp
  | op o k ih => exact hp.imp_right fun h => ⟨hPQ o h.1, fun r => ih r (h.2 r)⟩

/-- Nothing else is called. -/
theorem Ends.allOps {P a : Op → Prop} {p : Prog Op Res α} (hp : Ends P a p) :
    AllOps (fun o => P o ∨ a o) p := by
  induction p with
  | ret x => trivial
  | op o k ih =>
    rcases hp with ⟨hlast, hret⟩ | ⟨hop, hrest⟩
    · refine ⟨Or.inr hlast, fun r => ?_⟩
      obtain ⟨x, hx⟩ := hret r
      rw [hx]
      trivial
    · exact ⟨Or.inl hop, fun r => ih r (hrest r)⟩

/-- The result may be changed behind the last operation. -/
theorem Ends.map {P a : Op → Prop} {p : Prog Op Res α} (hp : Ends P a p) (g : α → β) :
    Ends P a (p >>= fun x => ret (g x)) := by
  induction p with
  | ret x => exact hp.elim
  | op o k ih =>
    rcases hp with ⟨hlast, hret⟩ | ⟨hop, hrest⟩
    · refine Or.inl ⟨hlast, fun r => ?_⟩
      obtain ⟨x, hx⟩ := hret r
      refine ⟨g x, ?_⟩
      change (k r >>= fun x => ret (g x)) = _
      rw [hx, ret_bind]
    · exact Or.inr ⟨hop, fun r => ih r (hrest r)⟩

/-- Where `P` keeps an invariant and the last operation turns it into `Q`, the run ends with `Q`. -/
theorem run_of_ends {σ ε : Type} (h : (o : Op) → σ → Except ε (Res o × σ)) {P a : Op → Prop}
    {I Q : σ → Prop} (hP : ∀ o s, P o → I s → ∃ r s', h o s = .ok (r, s') ∧ I s')
    (ha : ∀ o s, a o → I s → ∃ r s', h o s = .ok (r, s') ∧ Q s')
    {p : Prog Op Res α} (hp : Ends P a p) {s : σ} (hs : I s) :
    ∃ x s', p.run h s = .ok (x, s') ∧ Q s' := by
  induction p generalizing s with
  | ret x => exact hp.elim
  | op o k ih =>
    rcases hp with ⟨hlast, hret⟩ | ⟨hop, hrest⟩
    · obtain ⟨r, s', hr, hQ⟩ := ha o s hlast hs
      obtain ⟨x, hx⟩ := hret r
      refine ⟨x, s', ?_, hQ⟩
      rw [run_op_ok h hr, hx, run_ret]
    · obtain ⟨r, s', hr, hI⟩ := hP o s hop hs
      rw [run_op_ok h hr]
      exact ih r (hrest r) hI

/-- An operation with `a` is called, whatever the answers are. -/
def Reaches (a : Op → Prop) : Prog Op Res α → Prop
  | ret _ => False
  | op o k => a o ∨ ∀ r, Reaches a (k r)

/-- It may be called behind any program. -/
theorem Reaches.bind {a : Op → Prop} (p : Prog Op Res α) {f : α → Prog Op Res β}
    (hf : ∀ x, Reaches a (f x)) : Reaches a (p >>= f) := by
  induction p with
  | ret x => exact hf x
  | op o k ih => exact .inr ih

theorem Reaches.mono {a b : Op → Prop} (hab : ∀ o, a o → b o) {p : Prog Op Res α}
    (hp : Reaches a p) : Reaches b p := by
  induction p with
  | ret x => exact hp
  | op o k ih => exact hp.imp (hab o) fun h r => ih r (h r)

/-- The last operation is reached. -/
theorem Ends.reaches {P a : Op → Prop} {p : Prog Op Res α} (hp : Ends P a p) : Reaches a p := by
  induction p with
  | ret x => exact hp
  | op o k ih => exact hp.imp And.left fun h r => ih r (h.2 r)

/-- The operation a program is about to call. -/
def head : Prog Op Res α → Option Op
  | ret _ => none
  | op o _ => some o

end Prog

/-! ## Programs over another signature -/

namespace Prog

section Interpret

variable {Op Op' : Type} {Res : Op → Type} {Res' : Op' → Type} {α β : Type}
  (f : (o : Op) → Prog Op' Res' (Res o))

/-- Every operation replaced by a program. -/
def interpret : Prog Op Res α → Prog Op' Res' α
  | ret a => ret a
  | op o k => f o >>= fun r => (k r).interpret

theorem interpret_bind (p : Prog Op Res α) (g : α → Prog Op Res β) :
    (p >>= g).interpret f = p.interpret f >>= fun a => (g a).interpret f := by
  induction p with
  | ret a => rfl
  | op o k ih =>
    change (f o >>= fun r => (k r >>= g).interpret f) = _
    simp only [ih]
    exact (bind_assoc _ _ _).symm

/-- A last operation is replaced by a program that ends in one. -/
theorem Ends.interpret {P a : Op → Prop} {Q b : Op' → Prop} (hP : ∀ o, P o → AllOps Q (f o))
    (ha : ∀ o, a o → Ends Q b (f o)) {p : Prog Op Res α} (hp : Ends P a p) :
    Ends Q b (p.interpret f) := by
  induction p with
  | ret x => exact hp.elim
  | op o k ih =>
    rcases hp with ⟨hlast, hret⟩ | ⟨hop, hrest⟩
    · -- behind the last operation there is only the result
      obtain ⟨x, hx⟩ := Classical.skolem.mp hret
      have hmap := (ha o hlast).map x
      simpa only [Prog.interpret, hx] using hmap
    · exact .bind (hP o hop) fun r => ih r (hrest r)

end Interpret

end Prog

/-! ## Programs side by side -/

/-- A shared state, and what is left of the program of each thread. -/
structure Pool (Op : Type) (Res : Op → Type) (σ ι : Type) where
  shared : σ
  threads : ι → Prog Op Res Unit

namespace Pool

variable {Op : Type} {Res : Op → Type} {σ ι E : Type} [DecidableEq ι]

/-- One operation of a thread; `answer` may depend on the thread and on its environment. -/
def step (answer : ι → E → (o : Op) → σ → Option (Res o × σ)) (p : Pool Op Res σ ι) (l : ι × E) :
    Option (Pool Op Res σ ι) :=
  match p.threads l.1 with
  | .ret _ => none
  | .op o k => (answer l.1 l.2 o p.shared).map fun r =>
      ⟨r.2, Function.update p.threads l.1 (k r.1)⟩

/-- The step of a thread whose next operation is answered. -/
theorem step_eq_some {answer : ι → E → (o : Op) → σ → Option (Res o × σ)} {p : Pool Op Res σ ι}
    {i : ι} {env : E} {o : Op} {k : Res o → Prog Op Res Unit} {r : Res o} {s : σ}
    (hthread : p.threads i = .op o k) (hanswer : answer i env o p.shared = some (r, s)) :
    step answer p (i, env) = some ⟨s, Function.update p.threads i (k r)⟩ := by
  simp only [step, hthread, hanswer, Option.map_some]

/-- The pool as a step system, from a shared state and a program for each thread. -/
def system (answer : ι → E → (o : Op) → σ → Option (Res o × σ)) (start : Pool Op Res σ ι) :
    StepSystem (Pool Op Res σ ι) (ι × E) where
  init p := p = start
  step := step answer

end Pool
