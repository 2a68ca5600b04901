import Akkon.ToMathlib.Program

/-!
# Programs under interference

A program that runs beside others. In front of each of its operations, and behind the last one, the
others may have changed the state as far as the relation `rely` lets them; a relation `answers` says
which answers an operation may get and which states it may lead to.

* `Prog.Secured rely answers ok Q p s`: whatever the others do and whatever the answers are, every
  operation that `p` calls from `s` on meets `ok`, and every result meets `Q`;
* `Prog.Secured.of_rely`: the others cannot change that; `Prog.Secured.answered`: an operation of
  the program does not either;
* `Prog.Secured.of_allOps`, `Prog.Secured.bind`, `Prog.Secured.mono`: the rules to build up
  programs.
-/

namespace Prog

variable {Op : Type} {Res : Op → Type} {σ α β : Type}

/-- Every operation that the program calls from the state on meets `ok`, and every result meets `Q`,
whatever the others do. -/
def Secured (rely : σ → σ → Prop) (answers : (o : Op) → σ → Res o → σ → Prop)
    (ok : Op → σ → Prop) (Q : α → σ → Prop) : Prog Op Res α → σ → Prop
  | ret a, s => ∀ s', rely s s' → Q a s'
  | op o k, s =>
    ∀ s', rely s s' → ok o s' ∧ ∀ r t, answers o s' r t → Secured rely answers ok Q (k r) t

variable {rely : σ → σ → Prop} {answers : (o : Op) → σ → Res o → σ → Prop} {ok ok' : Op → σ → Prop}
  {Q Q' : α → σ → Prop}

/-- What the others do is provided for. -/
theorem Secured.of_rely (htrans : ∀ s t u, rely s t → rely t u → rely s u) {p : Prog Op Res α}
    {s t : σ} (h : Secured rely answers ok Q p s) (hst : rely s t) :
    Secured rely answers ok Q p t := by
  cases p with
  | ret a => exact fun u htu => h u (htrans s t u hst htu)
  | op o k => exact fun u htu => h u (htrans s t u hst htu)

section Refl

variable (hrefl : ∀ s, rely s s) {o : Op} {k : Res o → Prog Op Res α} {s : σ}
include hrefl

/-- The next operation meets `ok`. -/
theorem Secured.head (h : Secured rely answers ok Q (op o k) s) : ok o s := (h s (hrefl s)).1

/-- An answer leads to a secured program. -/
theorem Secured.answered (h : Secured rely answers ok Q (op o k) s) {r : Res o} {t : σ}
    (hanswer : answers o s r t) : Secured rely answers ok Q (k r) t :=
  (h s (hrefl s)).2 r t hanswer

/-- What holds behind the first part of a sequence has to be enough for the second one. -/
theorem Secured.bind {R : β → σ → Prop} {p : Prog Op Res β} {f : β → Prog Op Res α}
    (hp : Secured rely answers ok R p s)
    (hf : ∀ b t, R b t → Secured rely answers ok Q (f b) t) :
    Secured rely answers ok Q (p >>= f) s := by
  induction p generalizing s with
  | ret b => exact hf b s (hp s (hrefl s))
  | op o k ih =>
    exact fun s' hs' => ⟨(hp s' hs').1, fun r t hanswer => ih r ((hp s' hs').2 r t hanswer)⟩

end Refl

/-- Operations that are harmless in every state. -/
theorem Secured.of_allOps {P : Op → Prop} (hP : ∀ o s, P o → ok o s) {p : Prog Op Res α}
    (hp : AllOps P p) (s : σ) : Secured rely answers ok (fun _ _ => True) p s := by
  induction p generalizing s with
  | ret a => exact fun _ _ => trivial
  | op o k ih => exact fun s' _ => ⟨hP o s' hp.1, fun r t _ => ih r (hp.2 r) t⟩

theorem Secured.mono (hok : ∀ o s, ok o s → ok' o s) (hQ : ∀ a s, Q a s → Q' a s)
    {p : Prog Op Res α} {s : σ} (h : Secured rely answers ok Q p s) :
    Secured rely answers ok' Q' p s := by
  induction p generalizing s with
  | ret a => exact fun s' hs' => hQ a s' (h s' hs')
  | op o k ih =>
    exact fun s' hs' =>
      ⟨hok o s' (h s' hs').1, fun r t hanswer => ih r ((h s' hs').2 r t hanswer)⟩

end Prog
