import Akkon.ToMathlib.StepSystem

/-!
# Machines with parts that do not interfere

A deterministic machine whose events are each addressed to one of its parts. A part is unaffected by
the events of the others when it gives the outputs of a machine of its own that sees nothing but the
events addressed to it.

* `eventsOf`, `outputsOf`: the events of a part along a run, and the outputs they gave;
* `Unwinds`: what has to be shown of single events, those of the part and those of the others;
* `Unwinds.outputsOf_eq`: it carries over to whole runs.
-/

section Unwinding

variable {ι S A E O : Type} [DecidableEq ι]

/-- The events addressed to a part. -/
def eventsOf (part : ι) (es : List (ι × E)) : List E :=
  (es.filter (·.1 = part)).map Prod.snd

/-- The outputs that the events addressed to a part gave. -/
def outputsOf (part : ι) (es : List (ι × E)) (os : List O) : List O :=
  ((es.zip os).filter (·.1.1 = part)).map Prod.snd

section Lists

variable {part other : ι} {e : E} {o : O} {es : List (ι × E)} {os : List O}

@[simp]
theorem eventsOf_cons_self : eventsOf part ((part, e) :: es) = e :: eventsOf part es := by
  simp [eventsOf]

@[simp]
theorem eventsOf_cons_of_ne (h : other ≠ part) :
    eventsOf part ((other, e) :: es) = eventsOf part es := by
  simp [eventsOf, h]

@[simp]
theorem outputsOf_cons_self :
    outputsOf part ((part, e) :: es) (o :: os) = o :: outputsOf part es os := by
  simp [outputsOf]

@[simp]
theorem outputsOf_cons_of_ne (h : other ≠ part) :
    outputsOf part ((other, e) :: es) (o :: os) = outputsOf part es os := by
  simp [outputsOf, h]

end Lists

/-- `rel` relates the whole machine to a machine of the one part: an event of the part gives the
same output on both sides, and an event of another part keeps the relation. The invariant is of the
whole machine. -/
structure Unwinds (step : S → ι × E → S × O) (spec : A → E → A × O) (part : ι)
    (valid : ι × E → Prop) (inv : S → Prop) (rel : S → A → Prop) : Prop where
  keeps : ∀ s e, inv s → valid e → inv (step s e).1
  own : ∀ s a e, inv s → rel s a → valid (part, e) →
    rel (step s (part, e)).1 (spec a e).1 ∧ (step s (part, e)).2 = (spec a e).2
  others : ∀ s a other e, inv s → rel s a → valid (other, e) → other ≠ part →
    rel (step s (other, e)).1 a

/-- Along every run the part gives the outputs of its own machine. -/
theorem Unwinds.outputsOf_eq {step : S → ι × E → S × O} {spec : A → E → A × O} {part : ι}
    {valid : ι × E → Prop} {inv : S → Prop} {rel : S → A → Prop}
    (h : Unwinds step spec part valid inv rel) {s : S} {a : A} (hs : inv s) (hrel : rel s a)
    {es : List (ι × E)} (hes : ∀ e ∈ es, valid e) :
    outputsOf part es (specOutputs step s es).2 = (specOutputs spec a (eventsOf part es)).2 := by
  induction es generalizing s a with
  | nil => rfl
  | cons event es ih =>
    obtain ⟨other, e⟩ := event
    have hvalid := hes (other, e) (by simp)
    have hrest : ∀ e ∈ es, valid e := fun e he => hes e (by simp [he])
    have hs' := h.keeps s (other, e) hs hvalid
    rw [specOutputs]
    by_cases hpart : other = part
    · subst hpart
      obtain ⟨hnext, hout⟩ := h.own s a e hs hrel hvalid
      rw [outputsOf_cons_self, eventsOf_cons_self, specOutputs, hout, ih hs' hnext hrest]
    · rw [outputsOf_cons_of_ne hpart, eventsOf_cons_of_ne hpart]
      exact ih hs' (h.others s a other e hs hrel hvalid hpart) hrest

end Unwinding
