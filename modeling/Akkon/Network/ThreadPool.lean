import Mathlib.Data.Fintype.Basic
import Mathlib.Data.List.Nodup
import Akkon.ToMathlib.StrongFairness

/-!
# `network::ThreadPool`

The thread pool of `Server.h`, one critical section of `m_queue_mutex` or one action outside of it
at a time: calls of `enqueue` from any threads, the workers, and the destructor. A worker in
`m_cv.wait` goes on when it is notified, or spuriously.

Next to the members of the pool the state numbers the calls of `enqueue` and keeps what became of
them: which were accepted or came too late, and which tasks were taken from the queue and executed,
in order. No step reads this history, and `Sound` speaks of the steps themselves.

* `Step`, `step_spec`: all that one step does;
* `Inv`, `inv_of_reachable`: the invariant of the pool;
* `moves`: on a fair run a queue that is not empty is taken from;
* `Accepts`, `Takes`, `Executes`: the steps in the life of a task, and `mem_accepted_iff` and its
  like, which read the history as the steps of the run;
* `Sound`: what holds of the steps of every run: nothing is lost, duplicated or reordered;
* `sound_and_executed`: every run is sound, and on a fair one every accepted task is executed.
-/

/-- A call of `enqueue`. The calls are numbered by their critical sections. -/
structure ThreadPool.Call (Task : Type) where
  id : ℕ
  task : Task
  deriving DecidableEq, Repr

/-- Where a worker is. -/
inductive ThreadPool.Worker (Task : Type)
  /-- In front of the test under the lock, for the first time or because it has been woken up. -/
  | testing
  /-- Blocked in `m_cv.wait`. -/
  | waiting
  /-- In front of `task()`, which it has moved from the queue. -/
  | holding (call : Call Task)
  /-- In `task()`. -/
  | running (call : Call Task)
  | exited
  deriving DecidableEq, Repr

/-- Where the destructor is. -/
inductive ThreadPool.Destructor
  | notCalled
  /-- In front of `notify_all`. -/
  | notifying
  /-- In front of the join of a worker, or behind the last one. -/
  | joining (i : ℕ)
  | returned
  deriving DecidableEq, Repr

open ThreadPool in
/-- `ThreadPool` with `n` workers. -/
structure ThreadPool (Task : Type) (n : ℕ) where
  m_tasks : List (Call Task)
  m_stop : Bool
  m_workers : Fin n → Worker Task
  /-- The calls of `enqueue` that are in front of `notify_one`. -/
  notifying : ℕ
  destructor : Destructor
  /-- The number of calls of `enqueue` so far. -/
  calls : ℕ
  accepted : List (Call Task)
  /-- The calls that found `m_stop` set. -/
  rejected : List (Call Task)
  dequeued : List (Call Task)
  /-- The calls whose task has been called. -/
  executed : List (Call Task)

namespace ThreadPool

variable {Task : Type} {n : ℕ}

/-! ## The steps -/

/-- The pool behind its constructor. -/
def new : ThreadPool Task n where
  m_tasks := []
  m_stop := false
  m_workers _ := .testing
  notifying := 0
  destructor := .notCalled
  calls := 0
  accepted := []
  rejected := []
  dequeued := []
  executed := []

/-- A worker goes on to another place. -/
def setWorker (s : ThreadPool Task n) (w : Fin n) (place : Worker Task) : ThreadPool Task n :=
  { s with m_workers := Function.update s.m_workers w place }

/-- The critical section of `enqueue`. -/
def enqueue (s : ThreadPool Task n) (task : Task) : ThreadPool Task n :=
  if s.m_stop then
    { s with calls := s.calls + 1, rejected := s.rejected ++ [⟨s.calls, task⟩] }
  else
    { s with
      m_tasks := s.m_tasks ++ [⟨s.calls, task⟩]
      notifying := s.notifying + 1
      calls := s.calls + 1
      accepted := s.accepted ++ [⟨s.calls, task⟩] }

/-- The critical section of a worker: it waits, returns, or takes a task. -/
def test (s : ThreadPool Task n) (w : Fin n) : ThreadPool Task n :=
  match s.m_tasks with
  | [] => s.setWorker w (if s.m_stop then .exited else .waiting)
  | call :: tasks =>
    { s.setWorker w (.holding call) with m_tasks := tasks, dequeued := s.dequeued ++ [call] }

/-- One step of a worker. -/
def work (s : ThreadPool Task n) (w : Fin n) : Option (ThreadPool Task n) :=
  match s.m_workers w with
  | .testing => some (s.test w)
  | .waiting => none
  | .holding call => some { s.setWorker w (.running call) with executed := s.executed ++ [call] }
  | .running _ => some (s.setWorker w .testing)
  | .exited => none

/-- A worker that waits. -/
def Worker.isWaiting : Worker Task → Bool
  | .waiting => true
  | _ => false

/-- A worker whose thread has returned. -/
def Worker.hasExited : Worker Task → Bool
  | .exited => true
  | _ => false

/-- `notify_one` wakes one of the workers that wait, if there are any. -/
def notifyOne (s : ThreadPool Task n) : Option (Fin n) → Option (ThreadPool Task n)
  | some w =>
    if (s.m_workers w).isWaiting then
      some { s.setWorker w .testing with notifying := s.notifying - 1 }
    else none
  | none =>
    if ∃ w, (s.m_workers w).isWaiting then none else some { s with notifying := s.notifying - 1 }

/-- `notify_all` wakes all of them. -/
def notifyAll (s : ThreadPool Task n) : ThreadPool Task n :=
  { s with
    m_workers := fun w => if (s.m_workers w).isWaiting then .testing else s.m_workers w
    destructor := .joining 0 }

/-- One step of the loop of joins. -/
def join (s : ThreadPool Task n) (i : ℕ) : Option (ThreadPool Task n) :=
  if h : i < n then
    if (s.m_workers ⟨i, h⟩).hasExited then some { s with destructor := .joining (i + 1) } else none
  else some { s with destructor := .returned }

/-- The steps. -/
inductive Label (Task : Type) (n : ℕ)
  /-- The critical section of a call of `enqueue`. -/
  | enqueue (task : Task)
  /-- The end of a call of `enqueue`, with the worker that is woken up. -/
  | notifyOne (woken : Option (Fin n))
  | spuriousWakeup (w : Fin n)
  | worker (w : Fin n)
  /-- The critical section of the destructor. -/
  | stop
  | notifyAll
  | join
  deriving DecidableEq, Repr

/-- One step. Behind its destructor the pool is not there to be called any more. -/
def step (s : ThreadPool Task n) : Label Task n → Option (ThreadPool Task n)
  | .enqueue task => if s.destructor = .returned then none else some (s.enqueue task)
  | .notifyOne woken => if s.notifying = 0 then none else s.notifyOne woken
  | .spuriousWakeup w =>
    if (s.m_workers w).isWaiting then some (s.setWorker w .testing) else none
  | .worker w => s.work w
  | .stop =>
    if s.destructor = .notCalled then some { s with m_stop := true, destructor := .notifying }
    else none
  | .notifyAll => if s.destructor = .notifying then some s.notifyAll else none
  | .join =>
    match s.destructor with
    | .joining i => s.join i
    | _ => none

/-- The pool as a step system. -/
def system (Task : Type) (n : ℕ) : StepSystem (ThreadPool Task n) (Label Task n) where
  init s := s = new
  step := step

/-! ## What a step does -/

/-- All that a step can do, with what it has tested. -/
inductive Step (s : ThreadPool Task n) : Label Task n → ThreadPool Task n → Prop
  | accept {task : Task} : s.destructor ≠ .returned → s.m_stop = false →
    Step s (.enqueue task)
      { s with
        m_tasks := s.m_tasks ++ [⟨s.calls, task⟩]
        notifying := s.notifying + 1
        calls := s.calls + 1
        accepted := s.accepted ++ [⟨s.calls, task⟩] }
  | reject {task : Task} : s.destructor ≠ .returned → s.m_stop = true →
    Step s (.enqueue task)
      { s with calls := s.calls + 1, rejected := s.rejected ++ [⟨s.calls, task⟩] }
  | wakeOne {w : Fin n} : 0 < s.notifying → s.m_workers w = .waiting →
    Step s (.notifyOne (some w)) { s.setWorker w .testing with notifying := s.notifying - 1 }
  | wakeNone : 0 < s.notifying → (∀ w, s.m_workers w ≠ .waiting) →
    Step s (.notifyOne none) { s with notifying := s.notifying - 1 }
  | spurious {w : Fin n} : s.m_workers w = .waiting →
    Step s (.spuriousWakeup w) (s.setWorker w .testing)
  | wait {w : Fin n} : s.m_workers w = .testing → s.m_tasks = [] → s.m_stop = false →
    Step s (.worker w) (s.setWorker w .waiting)
  | exit {w : Fin n} : s.m_workers w = .testing → s.m_tasks = [] → s.m_stop = true →
    Step s (.worker w) (s.setWorker w .exited)
  | take {w : Fin n} {call : Call Task} {tasks : List (Call Task)} :
    s.m_workers w = .testing → s.m_tasks = call :: tasks →
    Step s (.worker w)
      { s.setWorker w (.holding call) with m_tasks := tasks, dequeued := s.dequeued ++ [call] }
  | call {w : Fin n} {call : Call Task} : s.m_workers w = .holding call →
    Step s (.worker w) { s.setWorker w (.running call) with executed := s.executed ++ [call] }
  | done {w : Fin n} {call : Call Task} : s.m_workers w = .running call →
    Step s (.worker w) (s.setWorker w .testing)
  | stop : s.destructor = .notCalled →
    Step s .stop { s with m_stop := true, destructor := .notifying }
  | wakeAll : s.destructor = .notifying → Step s .notifyAll s.notifyAll
  | join {i : ℕ} (h : i < n) : s.destructor = .joining i → s.m_workers ⟨i, h⟩ = .exited →
    Step s .join { s with destructor := .joining (i + 1) }
  | leave {i : ℕ} : s.destructor = .joining i → n ≤ i →
    Step s .join { s with destructor := .returned }

theorem Worker.isWaiting_iff {place : Worker Task} : place.isWaiting = true ↔ place = .waiting := by
  cases place <;> simp [isWaiting]

theorem Worker.hasExited_iff {place : Worker Task} : place.hasExited = true ↔ place = .exited := by
  cases place <;> simp [hasExited]

/-- A worker's step is one of those it can take at its place. -/
theorem step_of_work {s s' : ThreadPool Task n} {w : Fin n} (h : s.work w = some s') :
    Step s (.worker w) s' := by
  unfold work at h
  -- One case for each place of the worker; a waiting one and one that has exited do no step.
  cases hplace : s.m_workers w with
  | testing =>
    simp only [hplace, Option.some.injEq] at h
    subst h
    cases htasks : s.m_tasks with
    | nil =>
      cases hstop : s.m_stop with
      | false =>
        have := Step.wait hplace htasks hstop
        simpa [test, htasks, hstop] using this
      | true =>
        have := Step.exit hplace htasks hstop
        simpa [test, htasks, hstop] using this
    | cons call tasks =>
      have := Step.take hplace htasks
      simpa [test, htasks] using this
  | waiting => simp [hplace] at h
  | holding call =>
    simp only [hplace, Option.some.injEq] at h
    exact h ▸ .call hplace
  | running call =>
    simp only [hplace, Option.some.injEq] at h
    exact h ▸ .done hplace
  | exited => simp [hplace] at h

theorem step_spec {s s' : ThreadPool Task n} {l : Label Task n} (h : s.step l = some s') :
    Step s l s' := by
  -- A step of the program is one of the rules, with the guard that the branch has checked.
  cases l with
  | enqueue task =>
    simp only [step, enqueue] at h
    split_ifs at h with hreturned hstop <;> cases h
    · exact .reject hreturned hstop
    · exact .accept hreturned (by simpa using hstop)
  -- Without a waiting worker the notification is lost.
  | notifyOne woken =>
    cases woken with
    | none =>
      simp only [step, notifyOne] at h
      split_ifs at h with hzero hwaits
      cases h
      refine .wakeNone (by omega) fun w hw => hwaits ⟨w, Worker.isWaiting_iff.mpr hw⟩
    | some w =>
      simp only [step, notifyOne] at h
      split_ifs at h with hzero hwaits
      cases h
      exact .wakeOne (by omega) (Worker.isWaiting_iff.mp hwaits)
  | spuriousWakeup w =>
    simp only [step] at h
    split_ifs at h with hwaits
    cases h
    exact .spurious (Worker.isWaiting_iff.mp hwaits)
  | worker w => exact step_of_work h
  | stop =>
    simp only [step] at h
    split_ifs at h with hcalled
    cases h
    exact .stop hcalled
  | notifyAll =>
    simp only [step] at h
    split_ifs at h with hnotify
    cases h
    exact .wakeAll hnotify
  | join =>
    simp only [step] at h
    split at h
    · next i hjoin =>
      unfold join at h
      split_ifs at h with hlt hexited
      · cases h
        exact .join hlt hjoin (Worker.hasExited_iff.mp hexited)
      · cases h
        exact .leave hjoin (by omega)
    · cases h

/-! ## The invariant -/

/-- The queue and the calls. -/
structure History (s : ThreadPool Task n) : Prop where
  /-- Tasks leave the queue in the order they came in. -/
  order : s.accepted = s.dequeued ++ s.m_tasks
  /-- No two calls are the same. -/
  nodup : (s.accepted ++ s.rejected).Nodup
  id_lt : ∀ call ∈ s.accepted ++ s.rejected, call.id < s.calls

/-- The tasks taken from the queue: each has been called, or one worker holds it. -/
structure Taken (s : ThreadPool Task n) : Prop where
  mem_dequeued_iff : ∀ call,
    call ∈ s.dequeued ↔ call ∈ s.executed ∨ ∃ w, s.m_workers w = .holding call
  not_mem_executed : ∀ w call, s.m_workers w = .holding call → call ∉ s.executed
  eq_of_holding : ∀ w w' call,
    s.m_workers w = .holding call → s.m_workers w' = .holding call → w = w'
  nodup : s.executed.Nodup

/-- The places of the workers and of the destructor. -/
structure Places (s : ThreadPool Task n) : Prop where
  /-- A worker returns only when the pool has been stopped and the queue is empty. -/
  exited : ∀ w, s.m_workers w = .exited → s.m_stop = true ∧ s.m_tasks = []
  stop_iff : s.m_stop = true ↔ s.destructor ≠ .notCalled
  joined : ∀ i, s.destructor = .joining i → ∀ w : Fin n, w < i → s.m_workers w = .exited
  returned : s.destructor = .returned → ∀ w, s.m_workers w = .exited
  /-- No wakeup is lost: while there is a task, a worker is awake or about to be woken up. -/
  awake : s.m_tasks ≠ [] →
    (∃ w, s.m_workers w ≠ .waiting) ∨ 0 < s.notifying ∨ s.destructor = .notifying

variable {s s' : ThreadPool Task n} {l : Label Task n}

@[simp]
theorem setWorker_m_workers (w : Fin n) (place : Worker Task) (w' : Fin n) :
    (s.setWorker w place).m_workers w' = if w' = w then place else s.m_workers w' := by
  simp [setWorker, Function.update_apply]

theorem history_step (h : History s) (hstep : Step s l s') : History s' := by
  obtain ⟨horder, hnodup, hlt⟩ := h
  -- The number of a call is new, because all calls so far have smaller ones.
  have hfresh : ∀ task, (⟨s.calls, task⟩ : Call Task) ∉ s.accepted ++ s.rejected := by
    intro task hmem
    exact Nat.lt_irrefl _ (hlt _ hmem)
  have hlt' : ∀ call ∈ s.accepted ++ s.rejected, call.id < s.calls + 1 :=
    fun call hmem => Nat.lt_succ_of_lt (hlt call hmem)
  cases hstep with
  | @accept task _ _ =>
    refine ⟨by simp [horder], ?_, ?_⟩
    · rw [List.append_assoc, List.singleton_append, List.nodup_middle]
      exact List.nodup_cons.mpr ⟨hfresh task, hnodup⟩
    · intro call hmem
      rw [List.append_assoc, List.singleton_append, List.mem_append, List.mem_cons, or_left_comm,
        ← List.mem_append] at hmem
      rcases hmem with rfl | hmem
      · exact Nat.lt_succ_self _
      · exact hlt' call hmem
  | @reject task _ _ =>
    refine ⟨horder, ?_, ?_⟩
    · rw [← List.append_assoc]
      exact hnodup.append (List.nodup_singleton _) (List.disjoint_singleton.mpr (hfresh task))
    · intro call hmem
      rw [← List.append_assoc, List.mem_append, List.mem_singleton] at hmem
      rcases hmem with hmem | rfl
      · exact hlt' call hmem
      · exact Nat.lt_succ_self _
  | take _ htasks => exact ⟨by simp [horder, htasks, setWorker], hnodup, hlt⟩
  | _ => exact ⟨horder, hnodup, hlt⟩

/-- Steps that neither take a task nor call one. -/
theorem Taken.congr (h : Taken s) (hdequeued : s'.dequeued = s.dequeued)
    (hexecuted : s'.executed = s.executed)
    (hholding : ∀ w call, s'.m_workers w = .holding call ↔ s.m_workers w = .holding call) :
    Taken s' := by
  obtain ⟨hmem, hnot, heq, hnodup⟩ := h
  constructor
  · simpa only [hdequeued, hexecuted, hholding] using hmem
  · simpa only [hexecuted, hholding] using hnot
  · simpa only [hholding] using heq
  · rwa [hexecuted]

/-- A worker that goes from one place to another and has no task at either. -/
theorem holding_setWorker_iff {w : Fin n} {place : Worker Task}
    (hold : ∀ call, s.m_workers w ≠ .holding call) (hnew : ∀ call, place ≠ .holding call)
    (w' : Fin n) (call : Call Task) :
    (s.setWorker w place).m_workers w' = .holding call ↔ s.m_workers w' = .holding call := by
  rw [setWorker_m_workers]
  split_ifs with hw
  · subst hw
    exact iff_of_false (hnew call) (hold call)
  · rfl

/-- A task at the head of the queue has not been taken. -/
theorem not_mem_dequeued_of_head (h : History s) {call : Call Task} {tasks : List (Call Task)}
    (htasks : s.m_tasks = call :: tasks) : call ∉ s.dequeued := by
  have hnodup := h.nodup.of_append_left
  rw [h.order, htasks] at hnodup
  exact fun hmem => (List.disjoint_of_nodup_append hnodup) hmem List.mem_cons_self

theorem taken_take (hhist : History s) (h : Taken s) {w : Fin n} {call : Call Task}
    {tasks : List (Call Task)} (hplace : s.m_workers w = .testing)
    (htasks : s.m_tasks = call :: tasks) :
    Taken { s.setWorker w (.holding call) with
      m_tasks := tasks, dequeued := s.dequeued ++ [call] } := by
  have hnew := not_mem_dequeued_of_head hhist htasks
  obtain ⟨hmem, hnot, heq, hnodup⟩ := h
  -- The worker holds the task now, and the others hold what they held.
  have hholding : ∀ w' call', (s.setWorker w (.holding call)).m_workers w' = .holding call' ↔
      (w' = w ∧ call' = call) ∨ s.m_workers w' = .holding call' := by
    intro w' call'
    rw [setWorker_m_workers]
    split_ifs with hw
    · subst hw
      simp [hplace, eq_comm]
    · simp [hw]
  refine ⟨fun call' => ?_, fun w' call' h' => ?_, fun w₁ w₂ call' h₁ h₂ => ?_, hnodup⟩
  · -- what was taken out is executed or held
    show call' ∈ s.dequeued ++ [call] ↔ call' ∈ s.executed ∨
      ∃ w', (s.setWorker w (.holding call)).m_workers w' = .holding call'
    rw [List.mem_append, List.mem_singleton, hmem]
    simp only [hholding]
    constructor
    · rintro ((hexec | ⟨w', hw'⟩) | rfl)
      · exact .inl hexec
      · exact .inr ⟨w', .inr hw'⟩
      · exact .inr ⟨w, .inl ⟨rfl, rfl⟩⟩
    · rintro (hexec | ⟨w', ⟨-, rfl⟩ | hw'⟩)
      · exact .inl (.inl hexec)
      · exact .inr rfl
      · exact .inl (.inr ⟨w', hw'⟩)
  · rcases (hholding w' call').mp h' with ⟨-, rfl⟩ | h'
    · exact fun hexec => hnew ((hmem call').mpr (.inl hexec))
    · exact hnot w' call' h'
  · -- the new task is held by no other worker
    rcases (hholding w₁ call').mp h₁ with ⟨hw₁, hcall⟩ | hold₁
    · rcases (hholding w₂ call').mp h₂ with ⟨hw₂, -⟩ | hold₂
      · rw [hw₁, hw₂]
      · exact absurd ((hmem call).mpr (.inr ⟨w₂, hcall ▸ hold₂⟩)) hnew
    · rcases (hholding w₂ call').mp h₂ with ⟨-, hcall⟩ | hold₂
      · exact absurd ((hmem call).mpr (.inr ⟨w₁, hcall ▸ hold₁⟩)) hnew
      · exact heq w₁ w₂ call' hold₁ hold₂

theorem taken_call (h : Taken s) {w : Fin n} {call : Call Task}
    (hplace : s.m_workers w = .holding call) :
    Taken { s.setWorker w (.running call) with executed := s.executed ++ [call] } := by
  obtain ⟨hmem, hnot, heq, hnodup⟩ := h
  -- The worker runs the task now; the others hold what they held.
  have hholding : ∀ w' call', (s.setWorker w (.running call)).m_workers w' = .holding call' ↔
      w' ≠ w ∧ s.m_workers w' = .holding call' := by
    intro w' call'
    rw [setWorker_m_workers]
    split_ifs with hw <;> simp [hw]
  refine ⟨fun call' => ?_, fun w' call' h' => ?_, fun w₁ w₂ call' h₁ h₂ => ?_, ?_⟩
  · show call' ∈ s.dequeued ↔ call' ∈ s.executed ++ [call] ∨
      ∃ w', (s.setWorker w (.running call)).m_workers w' = .holding call'
    rw [List.mem_append, List.mem_singleton, hmem]
    simp only [hholding]
    constructor
    · rintro (hexec | ⟨w', hw'⟩)
      · exact .inl (.inl hexec)
      · by_cases hw : w' = w
        · rw [hw, hplace] at hw'
          exact .inl (.inr (Worker.holding.inj hw').symm)
        · exact .inr ⟨w', hw, hw'⟩
    · rintro ((hexec | rfl) | ⟨w', -, hw'⟩)
      · exact .inl hexec
      · exact .inr ⟨w, hplace⟩
      · exact .inr ⟨w', hw'⟩
  · -- no other worker holds the task that was executed just now
    obtain ⟨hw, hold⟩ := (hholding w' call').mp h'
    rw [List.mem_append, List.mem_singleton]
    rintro (hexec | hcall)
    · exact hnot w' call' hold hexec
    · exact hw (heq w' w call (hcall ▸ hold) hplace)
  · exact heq w₁ w₂ call' ((hholding w₁ call').mp h₁).2 ((hholding w₂ call').mp h₂).2
  · exact hnodup.append (List.nodup_singleton _)
      (List.disjoint_singleton.mpr (hnot w call hplace))

theorem taken_step (hhist : History s) (h : Taken s) (hstep : Step s l s') : Taken s' := by
  cases hstep with
  | take hplace htasks => exact taken_take hhist h hplace htasks
  | call hplace => exact taken_call h hplace
  | wakeOne _ hplace =>
    exact h.congr rfl rfl (holding_setWorker_iff (by simp [hplace]) (by simp))
  | spurious hplace => exact h.congr rfl rfl (holding_setWorker_iff (by simp [hplace]) (by simp))
  | wait hplace _ _ => exact h.congr rfl rfl (holding_setWorker_iff (by simp [hplace]) (by simp))
  | exit hplace _ _ => exact h.congr rfl rfl (holding_setWorker_iff (by simp [hplace]) (by simp))
  | done hplace => exact h.congr rfl rfl (holding_setWorker_iff (by simp [hplace]) (by simp))
  | wakeAll _ =>
    refine h.congr rfl rfl fun w call => ?_
    simp only [notifyAll]
    split_ifs with hwaits
    · simp [Worker.isWaiting_iff.mp hwaits]
    · rfl
  | _ => exact h.congr rfl rfl fun _ _ => Iff.rfl

/-- A step of one worker, or of a thread that wakes it up. -/
theorem Places.of_worker (h : Places s) {w : Fin n} (hold : s.m_workers w ≠ .exited)
    (hother : ∀ w', w' ≠ w → s'.m_workers w' = s.m_workers w') (hstop : s'.m_stop = s.m_stop)
    (hdestructor : s'.destructor = s.destructor) (htasks : s.m_tasks = [] → s'.m_tasks = [])
    (hexit : s'.m_workers w = .exited → s'.m_stop = true ∧ s'.m_tasks = [])
    (hawake : s'.m_tasks = [] ∨ s'.m_workers w ≠ .waiting) : Places s' := by
  obtain ⟨hexited, hstopped, hjoined, hreturned, -⟩ := h
  refine ⟨fun w' hw' => ?_, ?_, fun i hi w' hw' => ?_, fun hdone w' => ?_, fun hne => ?_⟩
  · by_cases hw : w' = w
    · subst hw
      exact hexit hw'
    · rw [hother w' hw] at hw'
      rw [hstop]
      exact ⟨(hexited w' hw').1, htasks (hexited w' hw').2⟩
  · rw [hstop, hdestructor, hstopped]
  · have hexitedw := hjoined i (hdestructor ▸ hi) w' hw'
    rw [hother w' fun hw => hold (hw ▸ hexitedw), hexitedw]
  · exact absurd (hreturned (hdestructor ▸ hdone) w) hold
  · exact .inl ⟨w, hawake.resolve_left hne⟩

theorem places_step (hn : 0 < n) (h : Places s) (hstep : Step s l s') : Places s' := by
  have hother {w : Fin n} {place : Worker Task} (w' : Fin n) (hw : w' ≠ w) :
      (s.setWorker w place).m_workers w' = s.m_workers w' := by
    rw [setWorker_m_workers, if_neg hw]
  have hself {w : Fin n} {place : Worker Task} : (s.setWorker w place).m_workers w = place := by
    rw [setWorker_m_workers, if_pos rfl]
  cases hstep with
  | wakeOne _ hplace =>
    exact h.of_worker (by simp [hplace]) hother rfl rfl id (by simp) (.inr (by simp))
  | spurious hplace =>
    exact h.of_worker (by simp [hplace]) hother rfl rfl id (by simp) (.inr (by simp))
  | wait hplace htasks _ =>
    exact h.of_worker (by simp [hplace]) hother rfl rfl id (by simp) (.inl htasks)
  | exit hplace htasks hstop =>
    exact h.of_worker (by simp [hplace]) hother rfl rfl id (fun _ => ⟨hstop, htasks⟩) (.inl htasks)
  | take hplace htasks =>
    exact h.of_worker (by simp [hplace]) hother rfl rfl (by simp [htasks]) (by simp)
      (.inr (by simp))
  | call hplace =>
    exact h.of_worker (by simp [hplace]) hother rfl rfl id (by simp) (.inr (by simp))
  | done hplace =>
    exact h.of_worker (by simp [hplace]) hother rfl rfl id (by simp) (.inr (by simp))
  | accept hreturned hstop =>
    -- no worker has returned yet, so the new task is not added behind one
    obtain ⟨hexited, hstopped, hjoined, -, -⟩ := h
    have hrunning : ∀ w, s.m_workers w ≠ .exited := fun w hw => by
      rw [(hexited w hw).1] at hstop
      cases hstop
    exact ⟨fun w hw => absurd hw (hrunning w), hstopped, hjoined,
      fun hdone => absurd hdone hreturned, fun _ => .inr (.inl (Nat.succ_pos _))⟩
  | reject _ _ =>
    obtain ⟨hexited, hstopped, hjoined, hreturned, hawake⟩ := h
    exact ⟨hexited, hstopped, hjoined, hreturned, hawake⟩
  | wakeNone _ hnone =>
    obtain ⟨hexited, hstopped, hjoined, hreturned, -⟩ := h
    exact ⟨hexited, hstopped, hjoined, hreturned, fun _ => .inl ⟨⟨0, hn⟩, hnone _⟩⟩
  | stop hcalled =>
    obtain ⟨hexited, -, hjoined, hreturned, -⟩ := h
    refine ⟨fun w hw => ⟨rfl, (hexited w hw).2⟩, by simp, by simp, by simp, fun _ => by simp⟩
  | wakeAll hnotify =>
    obtain ⟨hexited, hstopped, -, -, -⟩ := h
    have hplace : ∀ w, s.notifyAll.m_workers w = .exited → s.m_workers w = .exited := by
      intro w hw
      simp only [notifyAll] at hw
      split_ifs at hw
      exact hw
    have hwake : ∀ w, s.notifyAll.m_workers w ≠ .waiting := by
      intro w hw
      simp only [notifyAll] at hw
      split_ifs at hw with hwaits
      exact hwaits (Worker.isWaiting_iff.mpr hw)
    refine ⟨fun w hw => hexited w (hplace w hw), ?_, ?_, ?_, fun _ => .inl ⟨⟨0, hn⟩, hwake _⟩⟩
    · simp [notifyAll, hstopped, hnotify]
    · intro i hi w hw
      cases hi
      exact absurd hw (Nat.not_lt_zero _)
    · simp [notifyAll]
  | @join i hlt hjoin hexit =>
    obtain ⟨hexited, hstopped, hjoined, -, hawake⟩ := h
    refine ⟨hexited, by simpa [hjoin] using hstopped, fun k hk w hw => ?_, by simp, fun hne => ?_⟩
    · cases hk
      rcases Nat.lt_succ_iff_lt_or_eq.mp hw with hw | rfl
      · exact hjoined i hjoin w hw
      · exact hexit
    · simpa [hjoin] using hawake hne
  | @leave i hjoin hle =>
    obtain ⟨hexited, hstopped, hjoined, -, hawake⟩ := h
    have hall : ∀ w, s.m_workers w = .exited := fun w => hjoined i hjoin w (by omega)
    refine ⟨hexited, by simpa [hjoin] using hstopped, by simp, fun _ => hall, fun hne => ?_⟩
    exact absurd (hexited ⟨0, hn⟩ (hall _)).2 hne

/-- The invariant of the pool. -/
structure Inv (s : ThreadPool Task n) : Prop where
  history : History s
  taken : Taken s
  places : Places s

theorem inv_of_reachable (hn : 0 < n) (h : (system Task n).Reachable s) : Inv s := by
  refine h.invariant ?_ ?_
  · rintro _ rfl
    exact ⟨⟨rfl, List.nodup_nil, by simp [new]⟩, ⟨by simp [new], by simp [new], by simp [new],
      List.nodup_nil⟩, ⟨by simp [new], by simp [new], by simp [new], by simp [new], by simp [new]⟩⟩
  · intro s l s' hinv _ hstep
    have hstep := step_spec hstep
    exact ⟨history_step hinv.history hstep, taken_step hinv.history hinv.taken hstep,
      places_step hn hinv.places hstep⟩

/-! ## Progress -/

/-- Who takes a step: the threads that the operating system has to schedule. When `enqueue` is
called, when the destructor is called and when a worker wakes up spuriously is left open. -/
inductive Process (n : ℕ)
  | worker (w : Fin n)
  | notifier
  | destructor

/-- The thread that takes a step. -/
def process : Label Task n → Option (Process n)
  | .worker w => some (.worker w)
  | .notifyOne _ => some .notifier
  | .notifyAll => some .destructor
  | .join => some .destructor
  | _ => none

/-- A run on which every thread that can go on does so at some time; tasks return. -/
def Fair (run : (system Task n).Run) : Prop := ∀ p, run.WeaklyFair process p

/-- There are tasks, and `d` have been taken. -/
def Pending (d : ℕ) (s : ThreadPool Task n) : Prop := s.m_tasks ≠ [] ∧ s.dequeued.length = d

/-- Another task has been taken. -/
def Moved (d : ℕ) (s : ThreadPool Task n) : Prop := d < s.dequeued.length

variable {d : ℕ}

/-- No step loses a task. -/
theorem pending_step (h : Pending d s) (hstep : Step s l s') : Pending d s' ∨ Moved d s' := by
  obtain ⟨hne, hlen⟩ := h
  cases hstep with
  | accept => exact .inl ⟨by simp, hlen⟩
  | take => exact .inr (by simp [Moved, hlen])
  | _ => exact .inl ⟨hne, hlen⟩

/-- A worker changes its place by its own step, or by being woken up. -/
theorem m_workers_step (hstep : Step s l s') (w : Fin n) :
    s'.m_workers w = s.m_workers w ∨ l = .worker w ∨
      s.m_workers w = .waiting ∧ s'.m_workers w = .testing := by
  have hset {w' : Fin n} {place : Worker Task} :
      (s.setWorker w' place).m_workers w = s.m_workers w ∨
        w = w' ∧ (s.setWorker w' place).m_workers w = place := by
    rw [setWorker_m_workers]
    split_ifs with hw
    · exact .inr ⟨hw, rfl⟩
    · exact .inl rfl
  cases hstep with
  | wakeOne _ hplace => exact hset.imp_right fun ⟨hw, hnew⟩ => .inr ⟨hw ▸ hplace, hnew⟩
  | spurious hplace => exact hset.imp_right fun ⟨hw, hnew⟩ => .inr ⟨hw ▸ hplace, hnew⟩
  | wait => exact hset.imp_right fun ⟨hw, _⟩ => .inl (hw ▸ rfl)
  | exit => exact hset.imp_right fun ⟨hw, _⟩ => .inl (hw ▸ rfl)
  | take => exact hset.imp_right fun ⟨hw, _⟩ => .inl (hw ▸ rfl)
  | call => exact hset.imp_right fun ⟨hw, _⟩ => .inl (hw ▸ rfl)
  | done => exact hset.imp_right fun ⟨hw, _⟩ => .inl (hw ▸ rfl)
  | wakeAll =>
    by_cases hwaits : (s.m_workers w).isWaiting
    · exact .inr (.inr ⟨Worker.isWaiting_iff.mp hwaits, by simp [notifyAll, hwaits]⟩)
    · exact .inl (by simp [notifyAll, hwaits])
  | _ => exact .inl rfl

/-- A worker at a place where it does not wait keeps it until its own step. -/
theorem m_workers_step_of_ne (hstep : Step s l s') {w : Fin n} (hne : s.m_workers w ≠ .waiting) :
    s'.m_workers w = s.m_workers w ∨ l = .worker w :=
  (m_workers_step hstep w).imp_right fun h => h.resolve_right fun hw => hne hw.1

theorem eq_worker_of_process {l : Label Task n} {w : Fin n}
    (h : process l = some (.worker w)) : l = .worker w := by
  cases l <;> simp_all [process]

section Liveness

variable {run : (system Task n).Run}

/-- A worker at a place where it does not wait keeps the place until its own step, which it takes at
some time. -/
theorem leadsTo_of_work (hfair : Fair run) {w : Fin n} {place : Worker Task}
    {B Q : ThreadPool Task n → Prop} (hne : place ≠ .waiting)
    (hsome : ∀ s : ThreadPool Task n, s.m_workers w = place → (s.work w).isSome)
    (hkeep : ∀ s l s', B s → Step s l s' → B s' ∨ Q s')
    (hwork : ∀ s s', B s → s.m_workers w = place → Step s (.worker w) s' → Q s') :
    run.LeadsTo (fun s => B s ∧ s.m_workers w = place) Q := by
  refine StepSystem.Run.leadsTo_of_step (hfair (.worker w)) ?_ ?_ ?_
  · rintro s - ⟨-, hplace⟩
    exact ⟨.worker w, rfl, hsome s hplace⟩
  · rintro s l s' - ⟨hB, hplace⟩ hstep
    have hstep := step_spec hstep
    rcases m_workers_step_of_ne hstep (hplace ▸ hne) with hsame | rfl
    · exact (hkeep s l s' hB hstep).imp_left fun hB' => ⟨hB', hsame.trans hplace⟩
    · exact .inr (hwork s s' hB hplace hstep)
  · rintro s l s' - ⟨hB, hplace⟩ hstep hprocess
    obtain rfl := eq_worker_of_process hprocess
    exact hwork s s' hB hplace (step_spec hstep)

/-- A worker at its test takes a task. -/
theorem leadsTo_of_testing (hfair : Fair run) (d : ℕ) (w : Fin n) :
    run.LeadsTo (fun s => Pending d s ∧ s.m_workers w = .testing) (Moved d) := by
  refine leadsTo_of_work hfair (by simp) (fun s hplace => by simp [work, hplace])
    (fun s l s' => pending_step) ?_
  rintro s s' ⟨hne, hlen⟩ hplace hstep
  cases hstep with
  | wait _ htasks => exact absurd htasks hne
  | exit _ htasks => exact absurd htasks hne
  | take => simp [Moved, hlen]
  | call hplace' => simp [hplace] at hplace'
  | done hplace' => simp [hplace] at hplace'

/-- A worker in a task comes back to its test. -/
theorem leadsTo_of_running (hfair : Fair run) (d : ℕ) (w : Fin n) (call : Call Task) :
    run.LeadsTo (fun s => Pending d s ∧ s.m_workers w = .running call) (Moved d) := by
  have hback : run.LeadsTo (fun s => Pending d s ∧ s.m_workers w = .running call)
      fun s => (Pending d s ∧ s.m_workers w = .testing) ∨ Moved d s := by
    refine leadsTo_of_work hfair (by simp) (fun s hplace => by simp [work, hplace])
      (fun s l s' h hstep => (pending_step h hstep).imp_right .inr) ?_
    intro s s' h hplace hstep
    cases hstep with
    | wait hplace' => simp [hplace] at hplace'
    | exit hplace' => simp [hplace] at hplace'
    | take hplace' => simp [hplace] at hplace'
    | call hplace' => simp [hplace] at hplace'
    | done => exact .inl ⟨h, by simp⟩
  exact hback.trans ((leadsTo_of_testing hfair d w).or .refl)

/-- The step of a worker that holds a task. -/
theorem holding_work {w : Fin n} {call : Call Task} (hplace : s.m_workers w = .holding call)
    (hstep : Step s (.worker w) s') :
    s' = { s.setWorker w (.running call) with executed := s.executed ++ [call] } := by
  cases hstep with
  | wait hplace' => simp [hplace] at hplace'
  | exit hplace' => simp [hplace] at hplace'
  | take hplace' => simp [hplace] at hplace'
  | call hplace' =>
    rw [hplace] at hplace'
    rw [Worker.holding.inj hplace']
  | done hplace' => simp [hplace] at hplace'

/-- A worker that holds a task calls it and comes back to its test. -/
theorem leadsTo_of_holding (hfair : Fair run) (d : ℕ) (w : Fin n) (call : Call Task) :
    run.LeadsTo (fun s => Pending d s ∧ s.m_workers w = .holding call) (Moved d) := by
  have hcall : run.LeadsTo (fun s => Pending d s ∧ s.m_workers w = .holding call)
      fun s => (Pending d s ∧ s.m_workers w = .running call) ∨ Moved d s := by
    refine leadsTo_of_work hfair (by simp) (fun s hplace => by simp [work, hplace])
      (fun s l s' h hstep => (pending_step h hstep).imp_right .inr) ?_
    intro s s' h hplace hstep
    rw [holding_work hplace hstep]
    exact .inl ⟨h, by simp⟩
  exact hcall.trans ((leadsTo_of_running hfair d w call).or .refl)

/-- A worker that is awake takes a task, once it comes to its test. -/
theorem leadsTo_of_awake (hn : 0 < n) (hfair : Fair run) (d : ℕ) (w : Fin n) :
    run.LeadsTo (fun s => Pending d s ∧ s.m_workers w ≠ .waiting) (Moved d) := by
  rintro t ⟨hpending, hne⟩
  cases hplace : (run.state t).m_workers w with
  | testing => exact leadsTo_of_testing hfair d w t ⟨hpending, hplace⟩
  | waiting => exact absurd hplace hne
  | holding call => exact leadsTo_of_holding hfair d w call t ⟨hpending, hplace⟩
  | running call => exact leadsTo_of_running hfair d w call t ⟨hpending, hplace⟩
  | exited =>
    -- the queue was empty when the worker returned
    have hinv : Inv (run.state t) := inv_of_reachable hn (run.reachable t)
    exact absurd (hinv.places.exited w hplace).2 hpending.1

/-- It is enough that some worker is awake at some time, whichever it is. -/
theorem leadsTo_of_wakes (hn : 0 < n) (hfair : Fair run) {d : ℕ} {B : ThreadPool Task n → Prop}
    (hwake : run.LeadsTo B
      fun s => (∃ w, Pending d s ∧ s.m_workers w ≠ .waiting) ∨ Moved d s) :
    run.LeadsTo B (Moved d) := by
  have hawake := StepSystem.Run.LeadsTo.exists_elim fun w => leadsTo_of_awake hn hfair d w
  exact hwake.trans (hawake.or .refl)

/-- The end of a call of `enqueue` leaves a worker awake. -/
theorem exists_awake_of_notifyOne (hn : 0 < n) {woken : Option (Fin n)}
    (hstep : Step s (.notifyOne woken) s') : ∃ w, s'.m_workers w ≠ .waiting := by
  cases hstep with
  | @wakeOne w _ _ => exact ⟨w, by simp⟩
  | wakeNone _ hnone => exact ⟨⟨0, hn⟩, hnone _⟩

/-- The other steps leave the call where it is. -/
theorem notifying_step (hstep : Step s l s') (hl : ∀ woken, l ≠ .notifyOne woken) :
    s.notifying ≤ s'.notifying := by
  cases hstep with
  | accept => exact Nat.le_succ _
  | @wakeOne w _ _ => exact absurd rfl (hl (some w))
  | wakeNone => exact absurd rfl (hl none)
  | _ => exact le_rfl

/-- A call of `enqueue` that is in front of `notify_one` wakes a worker up, if all of them wait. -/
theorem leadsTo_of_notifying (hn : 0 < n) (hfair : Fair run) (d : ℕ) :
    run.LeadsTo (fun s => Pending d s ∧ 0 < s.notifying) (Moved d) := by
  -- Behind a notification some worker is awake: the woken one, or one that did not wait.
  have hnotify : ∀ (s s' : ThreadPool Task n) (woken : Option (Fin n)), Pending d s →
      Step s (.notifyOne woken) s' →
        (∃ w, Pending d s' ∧ s'.m_workers w ≠ .waiting) ∨ Moved d s' := by
    intro s s' woken hpending hstep
    obtain ⟨w, hw⟩ := exists_awake_of_notifyOne hn hstep
    exact (pending_step hpending hstep).imp_left fun h => ⟨w, h, hw⟩
  apply leadsTo_of_wakes hn hfair
  refine StepSystem.Run.leadsTo_of_step (hfair .notifier) ?_ ?_ ?_
  · rintro s - ⟨-, hpos⟩
    by_cases hwaits : ∃ w, (s.m_workers w).isWaiting
    · obtain ⟨w, hw⟩ := hwaits
      exact ⟨.notifyOne (some w), rfl, by simp [system, step, notifyOne, hw, hpos.ne']⟩
    · exact ⟨.notifyOne none, rfl, by simp [system, step, notifyOne, hwaits, hpos.ne']⟩
  · -- any other step leaves the call in front of its notification
    rintro s l s' - ⟨hpending, hpos⟩ hstep
    have hstep := step_spec hstep
    by_cases hl : ∃ woken, l = .notifyOne woken
    · obtain ⟨woken, rfl⟩ := hl
      exact .inr (hnotify s s' woken hpending hstep)
    · have hpos' := hpos.trans_le (notifying_step hstep fun woken h => hl ⟨woken, h⟩)
      exact (pending_step hpending hstep).imp (fun h => ⟨h, hpos'⟩) .inr
  · rintro s l s' - ⟨hpending, -⟩ hstep hprocess
    cases l with
    | notifyOne woken => exact hnotify s s' woken hpending (step_spec hstep)
    | _ => simp [process] at hprocess

/-- The destructor in front of `notify_all` wakes the workers up. -/
theorem leadsTo_of_stopping (hn : 0 < n) (hfair : Fair run) (d : ℕ) :
    run.LeadsTo (fun s => Pending d s ∧ s.destructor = .notifying) (Moved d) := by
  have hnotify : ∀ s : ThreadPool Task n, Pending d s →
      (∃ w, Pending d s.notifyAll ∧ s.notifyAll.m_workers w ≠ .waiting) ∨
        Moved d s.notifyAll := by
    intro s hpending
    refine .inl ⟨⟨0, hn⟩, hpending, fun hw => ?_⟩
    simp only [notifyAll] at hw
    split_ifs at hw with hwaits
    exact hwaits (Worker.isWaiting_iff.mpr hw)
  apply leadsTo_of_wakes hn hfair
  refine StepSystem.Run.leadsTo_of_step (hfair .destructor) ?_ ?_ ?_
  · rintro s - ⟨-, hstop⟩
    exact ⟨.notifyAll, rfl, by simp [system, step, hstop]⟩
  · -- no step of another process takes this turn from the destructor
    rintro s l s' - ⟨hpending, hstop⟩ hstep
    have hstep := step_spec hstep
    have hpending' := pending_step hpending hstep
    cases hstep with
    | stop hcalled => simp [hstop] at hcalled
    | wakeAll => exact .inr (hnotify s hpending)
    | join _ hjoin => simp [hstop] at hjoin
    | leave hjoin => simp [hstop] at hjoin
    | _ => exact hpending'.imp (fun h => ⟨h, hstop⟩) .inr
  · rintro s l s' - ⟨hpending, hstop⟩ hstep hprocess
    have hstep := step_spec hstep
    cases hstep with
    | wakeAll => exact hnotify s hpending
    | join _ hjoin => simp [hstop] at hjoin
    | leave hjoin => simp [hstop] at hjoin
    | _ => simp [process] at hprocess

/-- While there are tasks, one is taken at some time. -/
theorem moves (hn : 0 < n) (hfair : Fair run) (d : ℕ) : run.LeadsTo (Pending d) (Moved d) := by
  intro t hpending
  have hinv : Inv (run.state t) := inv_of_reachable hn (run.reachable t)
  rcases hinv.places.awake hpending.1 with ⟨w, hne⟩ | hpos | hstop
  · exact leadsTo_of_awake hn hfair d w t ⟨hpending, hne⟩
  · exact leadsTo_of_notifying hn hfair d t ⟨hpending, hpos⟩
  · exact leadsTo_of_stopping hn hfair d t ⟨hpending, hstop⟩

/-- The accepted calls stay, in their order. -/
theorem accepted_prefix_of_le {t u : ℕ} (htu : t ≤ u) :
    (run.state t).accepted <+: (run.state u).accepted := by
  refine StepSystem.Run.of_le
    (P := fun s : ThreadPool Task n => (run.state t).accepted <+: s.accepted)
    ?_ htu (List.prefix_refl _)
  intro s l s' _ h hstep
  have hstep := step_spec hstep
  cases hstep with
  | accept => exact h.trans (List.prefix_append _ _)
  | _ => exact h

/-- Every accepted task is taken from the queue at some time. -/
theorem exists_mem_dequeued (hn : 0 < n) (hfair : Fair run) {t : ℕ} {call : Call Task}
    (hmem : call ∈ (run.state t).accepted) : ∃ u, t ≤ u ∧ call ∈ (run.state u).dequeued := by
  -- the queue is taken from until it is past the call
  have hgrow : ∀ d, run.LeadsTo (fun s => call ∈ s.m_tasks ∧ s.dequeued.length = d)
      fun s => d < s.dequeued.length :=
    fun d t h => moves hn hfair d t ⟨List.ne_nil_of_mem h.1, h.2⟩
  obtain ⟨u, htu, hu⟩ := StepSystem.Run.leadsTo_of_lt hgrow (run.state t).accepted.length t trivial
  have hinv : Inv (run.state u) := inv_of_reachable hn (run.reachable u)
  have horder := hinv.history.order
  have hprefix : (run.state t).accepted <+: (run.state u).accepted := accepted_prefix_of_le htu
  refine ⟨u, htu, ?_⟩
  rcases hu with hlt | hnot
  · rw [horder] at hprefix
    have hle := List.prefix_of_prefix_length_le hprefix (List.prefix_append _ _) (by omega)
    exact hle.subset hmem
  · have hmem' := hprefix.subset hmem
    rw [horder, List.mem_append] at hmem'
    exact hmem'.resolve_right hnot

/-- A task that a worker holds is called. -/
theorem leadsTo_executed (hfair : Fair run) (w : Fin n) (call : Call Task) :
    run.LeadsTo (fun s => s.m_workers w = .holding call) fun s => call ∈ s.executed := by
  have hcall : run.LeadsTo (fun s => True ∧ s.m_workers w = .holding call)
      fun s => call ∈ s.executed := by
    refine leadsTo_of_work hfair (by simp) (fun s hplace => by simp [work, hplace])
      (fun _ _ _ _ _ => .inl trivial) ?_
    intro s s' _ hplace hstep
    rw [holding_work hplace hstep]
    exact List.mem_append_right _ (List.mem_singleton_self _)
  exact fun t h => hcall t ⟨trivial, h⟩

/-- On a fair run every accepted task is executed. -/
theorem exists_mem_executed (hn : 0 < n) (hfair : Fair run) {t : ℕ} {call : Call Task}
    (hmem : call ∈ (run.state t).accepted) : ∃ u, t ≤ u ∧ call ∈ (run.state u).executed := by
  obtain ⟨u, htu, hu⟩ := exists_mem_dequeued hn hfair hmem
  have hinv : Inv (run.state u) := inv_of_reachable hn (run.reachable u)
  rcases (hinv.taken.mem_dequeued_iff call).mp hu with hexec | ⟨w, hw⟩
  · exact ⟨u, htu, hexec⟩
  · obtain ⟨v, huv, hv⟩ := leadsTo_executed hfair w call u hw
    exact ⟨v, htu.trans huv, hv⟩

end Liveness

/-! ## Soundness -/

section Runs

/-- The critical section of a call of `enqueue`. -/
def Enqueues (call : Call Task) (s : ThreadPool Task n) (l : Label Task n) : Prop :=
  l = .enqueue call.task ∧ call.id = s.calls

/-- The call comes before the stop. -/
def Accepts (call : Call Task) (s : ThreadPool Task n) (l : Label Task n) : Prop :=
  Enqueues call s l ∧ s.m_stop = false

/-- The call comes after the stop. -/
def Rejects (call : Call Task) (s : ThreadPool Task n) (l : Label Task n) : Prop :=
  Enqueues call s l ∧ s.m_stop = true

/-- A worker moves the task out of the queue. -/
def Takes (call : Call Task) (s : ThreadPool Task n) (l : Label Task n) : Prop :=
  ∃ w tasks, l = .worker w ∧ s.m_workers w = .testing ∧ s.m_tasks = call :: tasks

/-- A worker calls the task. -/
def Executes (call : Call Task) (s : ThreadPool Task n) (l : Label Task n) : Prop :=
  ∃ w, l = .worker w ∧ s.m_workers w = .holding call

/-- What holds of the steps of a run. -/
structure Sound (run : (system Task n).Run) : Prop where
  /-- The calls of `enqueue` are told apart. -/
  distinct : ∀ call t t', run.Happens (Enqueues call) t → run.Happens (Enqueues call) t' → t = t'
  /-- No task is executed twice. -/
  once : ∀ call t t', run.Happens (Executes call) t → run.Happens (Executes call) t' → t = t'
  /-- A task that is executed was taken from the queue before. -/
  taken : ∀ call u, run.Happens (Executes call) u → ∃ t < u, run.Happens (Takes call) t
  /-- A task that is taken from the queue was enqueued before. -/
  enqueued : ∀ call u, run.Happens (Takes call) u → ∃ t < u, run.Happens (Accepts call) t
  /-- A task that comes after the stop is never executed. -/
  refused : ∀ call t, run.Happens (Rejects call) t → ∀ u, ¬ run.Happens (Executes call) u
  /-- Tasks are taken in the order in which they were enqueued. -/
  order : ∀ first second t t', run.Happens (Accepts first) t → run.Happens (Accepts second) t' →
    t < t' → ∀ u', run.Happens (Takes second) u' → ∃ u < u', run.Happens (Takes first) u
  /-- When the destructor has returned, the queue is empty and every accepted task was executed. -/
  drained : ∀ u, (run.state u).destructor = .returned → (run.state u).m_tasks = [] ∧
    ∀ call t, t < u → run.Happens (Accepts call) t → ∃ v < u, run.Happens (Executes call) v

variable {run : (system Task n).Run} {call first second : Call Task} {t t' u u' : ℕ}

/-- The steps in the history. -/
theorem mem_accepted_iff (t : ℕ) :
    call ∈ (run.state t).accepted ↔ ∃ u < t, run.Happens (Accepts call) u := by
  refine run.iff_exists_happens (P := fun s : ThreadPool Task n => call ∈ s.accepted)
    (by rintro _ rfl; simp [new]) (fun s l s' hstep => ?_) t
  cases step_spec hstep with
  | accept _ hstop => cases call; simp [Accepts, Enqueues, hstop, and_comm, eq_comm]
  | reject _ hstop => simp [Accepts, hstop]
  | _ => simp [Accepts, Enqueues, notifyAll, setWorker]

theorem mem_rejected_iff (t : ℕ) :
    call ∈ (run.state t).rejected ↔ ∃ u < t, run.Happens (Rejects call) u := by
  refine run.iff_exists_happens (P := fun s : ThreadPool Task n => call ∈ s.rejected)
    (by rintro _ rfl; simp [new]) (fun s l s' hstep => ?_) t
  cases step_spec hstep with
  | accept _ hstop => simp [Rejects, hstop]
  | reject _ hstop => cases call; simp [Rejects, Enqueues, hstop, and_comm, eq_comm]
  | _ => simp [Rejects, Enqueues, notifyAll, setWorker]

theorem mem_dequeued_iff (t : ℕ) :
    call ∈ (run.state t).dequeued ↔ ∃ u < t, run.Happens (Takes call) u := by
  refine run.iff_exists_happens (P := fun s : ThreadPool Task n => call ∈ s.dequeued)
    (by rintro _ rfl; simp [new]) (fun s l s' hstep => ?_) t
  cases step_spec hstep with
  | wait _ htasks => simp [Takes, htasks, setWorker]
  | exit _ htasks => simp [Takes, htasks, setWorker]
  | take hplace htasks => simp [Takes, hplace, htasks, eq_comm]
  | call hplace => simp [Takes, hplace, setWorker]
  | done hplace => simp [Takes, hplace, setWorker]
  | _ => simp [Takes, notifyAll, setWorker]

theorem mem_executed_iff (t : ℕ) :
    call ∈ (run.state t).executed ↔ ∃ u < t, run.Happens (Executes call) u := by
  refine run.iff_exists_happens (P := fun s : ThreadPool Task n => call ∈ s.executed)
    (by rintro _ rfl; simp [new]) (fun s l s' hstep => ?_) t
  cases step_spec hstep with
  | wait hplace => simp [Executes, hplace, setWorker]
  | exit hplace => simp [Executes, hplace, setWorker]
  | take hplace => simp [Executes, hplace, setWorker]
  | call hplace => simp [Executes, hplace, eq_comm]
  | done hplace => simp [Executes, hplace, setWorker]
  | _ => simp [Executes, notifyAll, setWorker]

/-- What a call of `enqueue` does to the history. -/
theorem history_enqueue {task : Task} (h : s.step (.enqueue task) = some s') :
    s'.calls = s.calls + 1 ∧
      (s.m_stop = false → s'.accepted = s.accepted ++ [⟨s.calls, task⟩]) := by
  cases step_spec h with
  | accept => exact ⟨rfl, fun _ => rfl⟩
  | reject _ hstop => exact ⟨rfl, fun hstop' => by simp [hstop] at hstop'⟩

/-- A call has a number that no later one gets. -/
theorem lt_calls_of_happens (h : run.Happens (Enqueues call) t) (htu : t < u) :
    call.id < (run.state u).calls := by
  obtain ⟨l, hlabel, rfl, hid⟩ := h
  refine StepSystem.Run.of_le (P := fun s : ThreadPool Task n => call.id < s.calls) ?_ htu ?_
  · intro s l s' _ hlt hstep
    cases step_spec hstep with
    | accept => exact Nat.lt_succ_of_lt hlt
    | reject => exact Nat.lt_succ_of_lt hlt
    | _ => exact hlt
  · rw [hid, (history_enqueue (run.step t _ hlabel)).1]
    exact Nat.lt_succ_self _

theorem eq_of_happens_enqueues (h : run.Happens (Enqueues call) t)
    (h' : run.Happens (Enqueues call) t') : t = t' := by
  have hnot {t t' : ℕ} (h : run.Happens (Enqueues call) t) (h' : run.Happens (Enqueues call) t') :
      ¬ t < t' := by
    intro hlt
    obtain ⟨l, -, -, hid⟩ := h'
    exact (lt_calls_of_happens h hlt).ne hid
  exact le_antisymm (not_lt.mp (hnot h' h)) (not_lt.mp (hnot h h'))

section Invariant

variable (hinv : ∀ u, Inv (run.state u))
include hinv

/-- A worker that holds a task has taken it, and has not called it. -/
theorem exists_takes (h : run.Happens (Executes call) u) :
    (∃ t < u, run.Happens (Takes call) t) ∧ ¬ ∃ t < u, run.Happens (Executes call) t := by
  obtain ⟨l, -, w, -, hplace⟩ := h
  rw [← mem_dequeued_iff, ← mem_executed_iff]
  exact ⟨((hinv u).taken.mem_dequeued_iff call).mpr (.inr ⟨w, hplace⟩),
    (hinv u).taken.not_mem_executed w call hplace⟩

/-- A task at the head of the queue was enqueued before the stop. -/
theorem exists_accepts (h : run.Happens (Takes call) u) :
    ∃ t < u, run.Happens (Accepts call) t := by
  obtain ⟨l, -, w, tasks, -, -, htasks⟩ := h
  rw [← mem_accepted_iff, (hinv u).history.order, htasks]
  exact List.mem_append_right _ List.mem_cons_self

theorem not_executes_of_rejects (h : run.Happens (Rejects call) t) :
    ¬ run.Happens (Executes call) u := by
  intro hexec
  obtain ⟨v, hvu, htakes⟩ := (exists_takes hinv hexec).1
  obtain ⟨t', htv, haccepts⟩ := exists_accepts hinv htakes
  -- some time later the history has the call on both lists
  have hrejected := (mem_rejected_iff (t + u + 1)).mpr ⟨t, by omega, h⟩
  have haccepted := (mem_accepted_iff (t + u + 1)).mpr ⟨t', by omega, haccepts⟩
  exact List.disjoint_of_nodup_append (hinv _).history.nodup haccepted hrejected

/-- The queue is first in, first out. -/
theorem exists_takes_of_lt (h : run.Happens (Accepts first) t)
    (h' : run.Happens (Accepts second) t') (htt' : t < t') (htakes : run.Happens (Takes second) u') :
    ∃ u < u', run.Happens (Takes first) u := by
  have hfirst := (mem_accepted_iff t').mpr ⟨t, htt', h⟩
  rw [← mem_dequeued_iff]
  -- the second call was accepted before it was taken
  obtain ⟨t'', htu', haccepts⟩ := exists_accepts hinv htakes
  obtain rfl := eq_of_happens_enqueues (haccepts.imp fun _ h => h.imp_right And.left)
    (h'.imp fun _ h => h.imp_right And.left)
  obtain ⟨l, hlabel, ⟨rfl, hid⟩, hstop⟩ := h'
  obtain ⟨l', -, w, tasks, -, -, htasks⟩ := htakes
  have hnew : (run.state (t'' + 1)).accepted = (run.state t'').accepted ++ [second] := by
    rw [(history_enqueue (run.step t'' _ hlabel)).2 hstop, ← hid]
  -- what is in front of it among the accepted calls is what was taken before
  have hprefix : (run.state (t'' + 1)).accepted <+: (run.state u').accepted :=
    accepted_prefix_of_le (Nat.succ_le_of_lt htu')
  obtain ⟨rest, hrest⟩ := hprefix
  rw [hnew, (hinv u').history.order, htasks, List.append_assoc, List.singleton_append] at hrest
  have hnodup := (hinv u').history.nodup.of_append_left
  rw [(hinv u').history.order, htasks, List.nodup_middle, List.nodup_cons, List.mem_append,
    not_or] at hnodup
  rw [((List.append_cons_inj_of_notMem hnodup.1.1 hnodup.1.2).mp hrest.symm).1]
  exact hfirst

/-- The workers have all returned, so none of them holds a task. -/
theorem drained_of_returned (hn : 0 < n) (h : (run.state u).destructor = .returned) :
    (run.state u).m_tasks = [] ∧
      ∀ call t, t < u → run.Happens (Accepts call) t → ∃ v < u, run.Happens (Executes call) v := by
  have hexited := (hinv u).places.returned h
  have hempty := ((hinv u).places.exited ⟨0, hn⟩ (hexited _)).2
  refine ⟨hempty, fun call t htu haccepts => ?_⟩
  have hmem := (mem_accepted_iff u).mpr ⟨t, htu, haccepts⟩
  rw [(hinv u).history.order, hempty, List.append_nil, (hinv u).taken.mem_dequeued_iff] at hmem
  rw [← mem_executed_iff]
  refine hmem.resolve_right ?_
  rintro ⟨w, hw⟩
  rw [hexited w] at hw
  cases hw

theorem sound_of_inv (hn : 0 < n) : Sound run where
  distinct _ _ _ := eq_of_happens_enqueues
  once call t t' h h' := by
    have hnot := (exists_takes hinv h).2
    have hnot' := (exists_takes hinv h').2
    exact le_antisymm (not_lt.mp fun hlt => hnot ⟨t', hlt, h'⟩)
      (not_lt.mp fun hlt => hnot' ⟨t, hlt, h⟩)
  taken _ _ h := (exists_takes hinv h).1
  enqueued _ _ := exists_accepts hinv
  refused _ _ h _ := not_executes_of_rejects hinv h
  order _ _ _ _ h h' htt' _ := exists_takes_of_lt hinv h h' htt'
  drained _ := drained_of_returned hinv hn

end Invariant

end Runs

/-- A pool with a worker loses, duplicates and reorders no task: every run is sound, and on a fair
run every task that is enqueued before the stop is executed exactly once. -/
theorem sound_and_executed (hn : 0 < n) (run : (system Task n).Run) :
    Sound run ∧ (Fair run → ∀ call t, run.Happens (Accepts call) t →
      ∃! u, run.Happens (Executes call) u) := by
  have hsound : Sound run := sound_of_inv (fun u => inv_of_reachable hn (run.reachable u)) hn
  refine ⟨hsound, fun hfair call t haccepts => ?_⟩
  have hmem := (mem_accepted_iff (t + 1)).mpr ⟨t, Nat.lt_succ_self t, haccepts⟩
  obtain ⟨u, -, hexecuted⟩ := exists_mem_executed hn hfair hmem
  obtain ⟨v, -, hv⟩ := (mem_executed_iff u).mp hexecuted
  exact ⟨v, hv, fun v' hv' => hsound.once call v' v hv' hv⟩

/-! ## A run -/

/-- Nobody can take a step any more. -/
structure AtRest (s : ThreadPool Task n) : Prop where
  destructor : s.destructor = .returned
  notifying : s.notifying = 0
  m_workers : ∀ w, s.m_workers w = .exited

theorem AtRest.step_eq_none (h : AtRest s) (l : Label Task n) : s.step l = none := by
  cases l with
  | spuriousWakeup w => simp [step, h.m_workers, Worker.isWaiting]
  | worker w => simp [step, work, h.m_workers]
  | _ => simp [step, h.destructor, h.notifying]

/-- The two workers take a task each, and the one that came second is called first. The pool is
stopped meanwhile, and a late task is refused. -/
def stoppedLabels : List (Label ℕ 2) :=
  let w₀ : Fin 2 := ⟨0, Nat.two_pos⟩
  let w₁ : Fin 2 := ⟨1, Nat.one_lt_two⟩
  [.enqueue 7, .enqueue 8, .notifyOne none, .notifyOne none, .worker w₁, .worker w₀, .stop,
    .enqueue 9, .worker w₀, .worker w₁, .notifyAll, .worker w₀, .worker w₁, .worker w₀, .worker w₁,
    .join, .join, .join]

/-- The run with these steps. -/
def stoppedRun : (system ℕ 2).Run :=
  .along (system ℕ 2) (s := new) rfl fun t => stoppedLabels.getD t .join

theorem fair_stoppedRun : Fair stoppedRun := by
  have hrest : AtRest (stoppedRun.state 18) :=
    ⟨by decide +kernel, by decide +kernel, by decide +kernel⟩
  intro p t henabled
  -- nothing is enabled from the end on
  obtain ⟨l, -, hsome⟩ := henabled (t + 18) (Nat.le_add_right t 18)
  have hlater : AtRest (stoppedRun.state (t + 18)) := by
    refine StepSystem.Run.of_le (P := AtRest) ?_ (Nat.le_add_left 18 t) hrest
    intro s l s' _ h hstep
    exact absurd ((h.step_eq_none l).symm.trans hstep) nofun
  exact absurd hsome (by simp [system, hlater.step_eq_none])

theorem sound_and_executed_stoppedRun :
    Sound stoppedRun ∧ (∃! u, stoppedRun.Happens (Executes ⟨0, 7⟩) u) ∧
      (∃! u, stoppedRun.Happens (Executes ⟨1, 8⟩) u) ∧
      stoppedRun.Happens (Rejects ⟨2, 9⟩) 7 ∧ ∀ u, ¬ stoppedRun.Happens (Executes ⟨2, 9⟩) u := by
  obtain ⟨hsound, hexecuted⟩ := sound_and_executed Nat.two_pos stoppedRun
  have hfirst : stoppedRun.Happens (Accepts ⟨0, 7⟩) 0 := ⟨.enqueue 7, rfl, ⟨rfl, rfl⟩, rfl⟩
  have hsecond : stoppedRun.Happens (Accepts ⟨1, 8⟩) 1 := ⟨.enqueue 8, rfl, ⟨rfl, rfl⟩, rfl⟩
  have hlate : stoppedRun.Happens (Rejects ⟨2, 9⟩) 7 := ⟨.enqueue 9, rfl, ⟨rfl, rfl⟩, rfl⟩
  exact ⟨hsound, hexecuted fair_stoppedRun _ 0 hfirst, hexecuted fair_stoppedRun _ 1 hsecond, hlate,
    hsound.refused _ 7 hlate⟩

end ThreadPool
