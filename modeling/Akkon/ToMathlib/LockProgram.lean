import Mathlib.Data.Fintype.Defs
import Mathlib.Logic.Function.Basic
import Mathlib.Logic.Relation
import Akkon.ToMathlib.StepSystem

/-!
# Threads that lock mutexes

The locking of a threaded program: every thread runs a block-structured program whose only effects
are the mutexes it holds, with branches and loops taken freely. Parts of a program can be named as
regions, so that a statement can speak of what a thread is in the middle of.

* `LockProg`: the programs; `Frame`: what is left to do, innermost first;
* `Threads.step`: one step of one thread, where a taken mutex blocks all but the owner of a
  recursive one;
* `Threads.SelfLock`, `Threads.WaitsFor`: a thread at a mutex it holds itself, and one thread at a
  mutex another holds;
* `Exclusive`: a mutex has one owner, `Exclusive.step`;
* `StackOrdered`: outside some regions, mutexes are taken in increasing rank, `StackOrdered.next`;
* `Threads.not_waitsFor_cycle`: in a state without a thread in these regions no threads wait in a
  circle;
* `Apart`: two regions of which no two threads are in both, `Apart.step`.
-/

/-- The mutexes a program locks, with the branches and the loops around them. -/
inductive LockProg (Mutex Region : Type) : Type
  | skip
  | seq (p q : LockProg Mutex Region)
  /-- Either branch. -/
  | choice (p q : LockProg Mutex Region)
  /-- Any number of rounds. -/
  | loop (p : LockProg Mutex Region)
  /-- A `lock_guard` and the scope it guards. -/
  | locked (l : Mutex) (p : LockProg Mutex Region)
  /-- A part of the program that has a name. -/
  | during (r : Region) (p : LockProg Mutex Region)

/-- An entry of the stack of a thread. -/
inductive Frame (Mutex Region : Type) : Type
  | run (p : LockProg Mutex Region)
  /-- The end of a scope that holds a mutex. -/
  | unlock (l : Mutex)
  /-- The end of a region. -/
  | leave (r : Region)

namespace Frame

variable {Mutex Region : Type}

/-- The mutexes a stack still has to release. -/
def held : List (Frame Mutex Region) → List Mutex
  | [] => []
  | unlock l :: k => l :: held k
  | run _ :: k => held k
  | leave _ :: k => held k

/-- The regions a stack still has to leave. -/
def active : List (Frame Mutex Region) → List Region
  | [] => []
  | leave r :: k => r :: active k
  | run _ :: k => active k
  | unlock _ :: k => active k

/-- The mutex a thread locks next. -/
def wanted : List (Frame Mutex Region) → Option Mutex
  | run (.locked l _) :: _ => some l
  | _ => none

/-- The region a thread enters next. -/
def entered : List (Frame Mutex Region) → Option Region
  | run (.during r _) :: _ => some r
  | _ => none

/-- One step of a stack. `free` tells which mutexes can be locked, `c` which branch is taken. -/
def next (free : Mutex → Bool) (c : Bool) :
    List (Frame Mutex Region) → Option (List (Frame Mutex Region))
  | [] => none
  | run .skip :: k => some k
  | run (.seq p q) :: k => some (run p :: run q :: k)
  | run (.choice p q) :: k => some (run (if c then p else q) :: k)
  | run (.loop p) :: k => some (if c then run p :: run (.loop p) :: k else k)
  | run (.locked l p) :: k => if free l then some (run p :: unlock l :: k) else none
  | run (.during r p) :: k => some (run p :: leave r :: k)
  | unlock _ :: k => some k
  | leave _ :: k => some k

/-- The steps of a stack, one constructor for each. -/
inductive Next (free : Mutex → Bool) :
    List (Frame Mutex Region) → List (Frame Mutex Region) → Prop
  | skip {k} : Next free (run .skip :: k) k
  | seq {p q k} : Next free (run (.seq p q) :: k) (run p :: run q :: k)
  | left {p q k} : Next free (run (.choice p q) :: k) (run p :: k)
  | right {p q k} : Next free (run (.choice p q) :: k) (run q :: k)
  | again {p k} : Next free (run (.loop p) :: k) (run p :: run (.loop p) :: k)
  | done {p k} : Next free (run (.loop p) :: k) k
  | lock {l p k} : free l → Next free (run (.locked l p) :: k) (run p :: Frame.unlock l :: k)
  | enter {r p k} : Next free (run (.during r p) :: k) (run p :: Frame.leave r :: k)
  | unlock {l k} : Next free (Frame.unlock l :: k) k
  | leave {r k} : Next free (Frame.leave r :: k) k

variable {free : Mutex → Bool} {c : Bool} {k k' : List (Frame Mutex Region)}

/-- A computed step is one of them. -/
theorem next_cases (h : next free c k = some k') : Next free k k' := by
  match k, h with
  | run .skip :: _, rfl => exact .skip
  | run (.seq _ _) :: _, rfl => exact .seq
  | run (.choice _ _) :: _, rfl =>
    cases c
    · exact .right
    · exact .left
  | run (.loop _) :: _, rfl =>
    cases c
    · exact .done
    · exact .again
  | run (.locked l _) :: _, h =>
    by_cases hfree : free l
    · rw [next, if_pos hfree] at h
      cases h
      exact .lock hfree
    · rw [next, if_neg hfree] at h
      cases h
  | run (.during _ _) :: _, rfl => exact .enter
  | Frame.unlock _ :: _, rfl => exact .unlock
  | Frame.leave _ :: _, rfl => exact .leave

/-- A step adds at most the mutex it locks, which was free. -/
theorem mem_held_of_next (h : Next free k k') {l : Mutex} (hl : l ∈ held k') :
    l ∈ held k ∨ free l := by
  cases h with
  | lock hfree =>
    rcases List.mem_cons.mp hl with rfl | hl
    · exact Or.inr hfree
    · exact Or.inl hl
  | unlock => exact Or.inl (List.mem_cons_of_mem _ hl)
  | _ => exact Or.inl hl

/-- A step adds at most the region it enters. -/
theorem mem_active_of_next (h : Next free k k') {r : Region} (hr : r ∈ active k') :
    r ∈ active k ∨ entered k = some r := by
  cases h with
  | enter =>
    rcases List.mem_cons.mp hr with rfl | hr
    · exact Or.inr rfl
    · exact Or.inl hr
  | leave => exact Or.inl (List.mem_cons_of_mem _ hr)
  | _ => exact Or.inl hr

end Frame

open Frame

/-- What is left to do for each thread. -/
abbrev Threads (ι Mutex Region : Type) := ι → List (Frame Mutex Region)

namespace Threads

variable {ι Mutex Region : Type} [DecidableEq ι] [Fintype ι] [DecidableEq Mutex]

/-- A thread can lock a mutex that no other thread holds, and that it does not hold itself unless
the mutex is recursive. -/
def free (recursive : Mutex → Bool) (t : Threads ι Mutex Region) (i : ι) (l : Mutex) : Bool :=
  decide (∀ j, l ∈ held (t j) → j = i ∧ recursive l)

/-- A step of one thread, with the branch it takes. -/
def step (recursive : Mutex → Bool) (t : Threads ι Mutex Region) (a : ι × Bool) :
    Option (Threads ι Mutex Region) :=
  (next (free recursive t a.1) a.2 (t a.1)).map (Function.update t a.1)

/-- The threads as a step system, from a program for each. -/
def system (recursive : Mutex → Bool) (main : ι → LockProg Mutex Region) :
    StepSystem (Threads ι Mutex Region) (ι × Bool) where
  init t := t = fun i => [run (main i)]
  step := step recursive

/-- A thread is about to lock a mutex it holds and that is not recursive. -/
def SelfLock (recursive : Mutex → Bool) (t : Threads ι Mutex Region) (i : ι) : Prop :=
  ∃ l, wanted (t i) = some l ∧ l ∈ held (t i) ∧ recursive l = false

/-- A thread is about to lock a mutex that another thread holds. -/
def WaitsFor (t : Threads ι Mutex Region) (i j : ι) : Prop :=
  i ≠ j ∧ ∃ l, wanted (t i) = some l ∧ l ∈ held (t j)

variable {recursive : Mutex → Bool} {t t' : Threads ι Mutex Region} {a : ι × Bool}

/-- What a step of one thread does to the others and to itself. -/
theorem step_cases (h : step recursive t a = some t') :
    Next (free recursive t a.1) (t a.1) (t' a.1) ∧ ∀ j, j ≠ a.1 → t' j = t j := by
  obtain ⟨k, hk, rfl⟩ := Option.map_eq_some_iff.mp h
  refine ⟨?_, fun j hj => Function.update_of_ne hj _ _⟩
  rw [Function.update_self]
  exact next_cases hk

/-- A property of single stacks that every step of a stack keeps is kept by the threads. -/
theorem forall_step {P : List (Frame Mutex Region) → Prop}
    (hnext : ∀ free k k', P k → Next free k k' → P k')
    (ht : ∀ i, P (t i)) (h : step recursive t a = some t') : ∀ i, P (t' i) := by
  obtain ⟨hself, hothers⟩ := step_cases h
  intro i
  -- only the stack of the stepping thread changes
  by_cases hi : i = a.1
  · rw [hi]
    exact hnext _ _ _ (ht a.1) hself
  · rw [hothers i hi]
    exact ht i

/-! ### One owner -/

/-- No mutex is held by two threads. -/
def Exclusive (t : Threads ι Mutex Region) : Prop :=
  ∀ i j l, l ∈ held (t i) → l ∈ held (t j) → i = j

theorem Exclusive.step (ht : Exclusive t) (h : Threads.step recursive t a = some t') :
    Exclusive t' := by
  obtain ⟨hself, hothers⟩ := step_cases h
  -- what the stepping thread holds afterwards, no other thread held before
  have howner : ∀ j l, j ≠ a.1 → l ∈ held (t' a.1) → l ∉ held (t j) := by
    intro j l hj hl hlj
    rcases mem_held_of_next hself hl with hl | hfree
    · exact hj (ht j a.1 l hlj hl)
    · exact hj (of_decide_eq_true hfree j hlj).1
  intro i j l hi hj
  by_cases hia : i = a.1 <;> by_cases hja : j = a.1
  · rw [hia, hja]
  · subst hia
    rw [hothers j hja] at hj
    exact absurd hj (howner j l hja hi)
  · subst hja
    rw [hothers i hia] at hi
    exact absurd hi (howner i l hia hj)
  · rw [hothers i hia] at hi
    rw [hothers j hja] at hj
    exact ht i j l hi hj

/-! ### Regions that exclude each other -/

/-- No two threads, and no single one, are in the two regions at the same time. -/
def Apart (r r' : Region) (t : Threads ι Mutex Region) : Prop :=
  ∀ i j, r ∈ active (t i) → r' ∉ active (t j)

/-- The step does not enter one of the regions while a thread is in the other. -/
def KeepsApart (r r' : Region) (t : Threads ι Mutex Region) (a : ι × Bool) : Prop :=
  (entered (t a.1) = some r → ∀ j, r' ∉ active (t j)) ∧
    (entered (t a.1) = some r' → ∀ j, r ∉ active (t j))

instance KeepsApart.decidable [DecidableEq Region] (r r' : Region) (t : Threads ι Mutex Region)
    (a : ι × Bool) : Decidable (KeepsApart r r' t a) :=
  inferInstanceAs (Decidable (_ ∧ _))

/-- Two regions stay apart under the steps that keep them so. -/
theorem Apart.step {r r' : Region} (hne : r ≠ r') (ht : Apart r r' t) (hok : KeepsApart r r' t a)
    (h : Threads.step recursive t a = some t') : Apart r r' t' := by
  obtain ⟨hself, hothers⟩ := step_cases h
  -- a region active behind the step was active before, or the stepping thread enters it
  have hbefore : ∀ i q, q ∈ active (t' i) →
      q ∈ active (t i) ∨ (i = a.1 ∧ entered (t a.1) = some q) := by
    intro i q hq
    by_cases hi : i = a.1
    · subst hi
      exact (mem_active_of_next hself hq).imp_right fun h => ⟨rfl, h⟩
    · rw [hothers i hi] at hq
      exact Or.inl hq
  intro i j hi hj
  rcases hbefore i r hi with hi | ⟨-, hentered⟩ <;> rcases hbefore j r' hj with hj | ⟨-, hentered'⟩
  · exact ht i j hi hj
  · exact hok.2 hentered' i hi
  · exact hok.1 hentered j hj
  · rw [hentered] at hentered'
    exact hne (Option.some.inj hentered')

end Threads

/-! ## Ordered locking -/

section Ordered

variable {ι Mutex Region : Type} (exempt : Region → Bool) (rank : Mutex → ℕ)
  (recursive : Mutex → Bool)

/-- Under the mutexes `held`, the program takes mutexes in increasing rank, except that it takes a
recursive one again and except in the regions that are `exempt`. -/
def Ordered : List Mutex → LockProg Mutex Region → Prop
  | _, .skip => True
  | held, .seq p q => Ordered held p ∧ Ordered held q
  | held, .choice p q => Ordered held p ∧ Ordered held q
  | held, .loop p => Ordered held p
  | held, .locked l p =>
    ((recursive l = true ∧ l ∈ held) ∨ ∀ h ∈ held, rank h < rank l) ∧ Ordered (l :: held) p
  | held, .during r p => exempt r = true ∨ Ordered held p

instance Ordered.decidable [DecidableEq Mutex] : (held : List Mutex) → (p : LockProg Mutex Region) →
    Decidable (Ordered exempt rank recursive held p)
  | _, .skip => inferInstanceAs (Decidable True)
  | held, .seq p q => @instDecidableAnd _ _ (decidable held p) (decidable held q)
  | held, .choice p q => @instDecidableAnd _ _ (decidable held p) (decidable held q)
  | held, .loop p => decidable held p
  | held, .locked l p => @instDecidableAnd _ _ inferInstance (decidable (l :: held) p)
  | held, .during _ p => @instDecidableOr _ _ inferInstance (decidable held p)

/-- Every program on the stack is ordered under what the stack below it holds, outside the exempt
regions. -/
def StackOrdered : List (Frame Mutex Region) → Prop
  | [] => True
  | .run p :: k =>
    ((∃ r ∈ active k, exempt r = true) ∨ Ordered exempt rank recursive (held k) p) ∧ StackOrdered k
  | .unlock _ :: k => StackOrdered k
  | .leave _ :: k => StackOrdered k

variable {exempt rank recursive} {free : Mutex → Bool} {k k' : List (Frame Mutex Region)}

theorem StackOrdered.next (hk : StackOrdered exempt rank recursive k) (h : Next free k k') :
    StackOrdered exempt rank recursive k' := by
  cases h with
  | skip => exact hk.2
  | seq =>
    obtain ⟨hp, hk⟩ := hk
    exact ⟨hp.imp_right And.left, hp.imp_right And.right, hk⟩
  | left => exact ⟨hk.1.imp_right And.left, hk.2⟩
  | right => exact ⟨hk.1.imp_right And.right, hk.2⟩
  | again => exact ⟨hk.1, hk⟩
  | done => exact hk.2
  | lock => exact ⟨hk.1.imp_right And.right, hk.2⟩
  -- a program in an exempt region needs no order
  | enter =>
    obtain ⟨hp, hk⟩ := hk
    refine ⟨?_, hk⟩
    rcases hp with ⟨r, hr, hexempt⟩ | hexempt | hp
    · exact Or.inl ⟨r, List.mem_cons_of_mem _ hr, hexempt⟩
    · exact Or.inl ⟨_, List.mem_cons_self, hexempt⟩
    · exact Or.inr hp
  | unlock => exact hk
  | leave => exact hk

/-- Outside the exempt regions, the mutex a thread waits for is above all it holds, unless it is
recursive and held already. -/
theorem StackOrdered.wanted (hk : StackOrdered exempt rank recursive k)
    (hout : ∀ r ∈ active k, exempt r = false) {l : Mutex} (hl : wanted k = some l) :
    (recursive l = true ∧ l ∈ held k) ∨ ∀ h ∈ held k, rank h < rank l := by
  match k, hl with
  | .run (.locked _ _) :: _, rfl =>
    refine (hk.1.resolve_left ?_).1
    rintro ⟨r, hr, hexempt⟩
    rw [hout r hr] at hexempt
    cases hexempt

namespace Threads

variable {t : Threads ι Mutex Region}

/-- Threads that lock in order never wait for themselves. -/
theorem not_selfLock (hk : ∀ i, StackOrdered exempt rank recursive (t i))
    (hout : ∀ i, ∀ r ∈ active (t i), exempt r = false) (i : ι) : ¬ SelfLock recursive t i := by
  rintro ⟨l, hl, hheld, hrec⟩
  rcases (hk i).wanted (hout i) hl with ⟨hrec', -⟩ | habove
  · rw [hrec] at hrec'
    cases hrec'
  · exact lt_irrefl _ (habove l hheld)

/-- Along a chain of waiting threads the awaited ranks grow. -/
theorem exists_held_of_transGen (ht : Exclusive t)
    (hk : ∀ i, StackOrdered exempt rank recursive (t i))
    (hout : ∀ i, ∀ r ∈ active (t i), exempt r = false)
    {i j : ι} (h : Relation.TransGen (WaitsFor t) i j) :
    ∃ l₀ l, Frame.wanted (t i) = some l₀ ∧ l ∈ held (t j) ∧ rank l₀ ≤ rank l := by
  induction h with
  | single hij =>
    obtain ⟨-, l, hl, hheld⟩ := hij
    exact ⟨l, l, hl, hheld, le_rfl⟩
  | @tail j m _ hjm ih =>
    obtain ⟨l₀, l, hl₀, hheld, hle⟩ := ih
    obtain ⟨hne, l', hl', hheld'⟩ := hjm
    refine ⟨l₀, l', hl₀, hheld', hle.trans (le_of_lt ?_)⟩
    rcases (hk j).wanted (hout j) hl' with ⟨-, hown⟩ | habove
    · -- a mutex of its own does not make a thread wait for another one
      exact absurd (ht j m l' hown hheld') hne
    · exact habove l hheld

/-- Threads that lock in order never wait in a circle. -/
theorem not_waitsFor_cycle (ht : Exclusive t)
    (hk : ∀ i, StackOrdered exempt rank recursive (t i))
    (hout : ∀ i, ∀ r ∈ active (t i), exempt r = false)
    (i : ι) : ¬ Relation.TransGen (WaitsFor t) i i := by
  intro h
  obtain ⟨l₀, l, hl₀, hheld, hle⟩ := exists_held_of_transGen ht hk hout h
  rcases (hk i).wanted (hout i) hl₀ with ⟨-, hown⟩ | habove
  · -- the first thread of the chain waits for another one
    obtain ⟨j, ⟨hne, l₁, hl₁, hheld₁⟩, -⟩ := Relation.TransGen.head'_iff.mp h
    rw [hl₀] at hl₁
    cases hl₁
    exact hne (ht i j l₀ hown hheld₁)
  · exact absurd (habove l hheld) (not_lt.mpr hle)

end Threads

end Ordered
