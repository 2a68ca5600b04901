import Akkon.TestSuite.Rules

/-!
# What `cleanup` leaves behind

The framework holds the pid of a child in `m_instances` only, under a tracker id that is drawn at
random, and `createInstance` writes over an instance with the same one.

* `Move`, `Moves`: what the framework does to the processes and to `m_instances`, each thing that
  happens with what it needs;
* `Held`: every child belongs to an instance that is running. `Unheld`: no instance has the pid;
* `Held.moves`, `Unheld.moves`: both are kept, the first one as long as no tracker id comes twice;
* `moves_isRunning`, `moves_createInstance`, `moves_stopInstance`, …: the member functions make such
  moves and no others;
* `Drawn`: the tracker ids that are drawn in a run;
* `nothing_left`, `left_behind`: behind `cleanup` there is no child where no tracker id was drawn
  twice, and one forever where one was.
-/

namespace TestSuite

open Cpp Prog

/-- A key that is found is one of the keys. -/
theorem Map.mem_keys_of_find {α : Type} {m : Map α} {key : Bytes} {value : α}
    (h : m.find key = some value) : key ∈ m.map (·.1) := by
  induction m with
  | nil => cases h
  | cons entry m ih =>
    rw [List.map_cons, List.mem_cons]
    rw [Map.find] at h
    split_ifs at h with heq
    · exact .inl heq.symm
    · exact .inr (ih h)

/-! ## Moves -/

/-- What may happen to the instances and to the processes, and the tracker ids that are taken. -/
inductive Move (m : Instances) (host : Host) : List Bytes → Instances → Host → Prop
  /-- Something happens between two calls. -/
  | passes {host' : Host} : host.Env host' → Move m host [] m host'
  /-- A child that has ended is reaped, and its instance is stopped. -/
  | reaps {tracker_id : Bytes} {info : InstanceInfo} {wstatus : WStatus} :
    m.find tracker_id = some info → host.procs info.pid = .child (some wstatus) →
    Move m host [] (m.setStatus tracker_id .stopped) (host.reap info.pid wstatus)
  /-- There is no child for an instance, and it is stopped. -/
  | misses {tracker_id : Bytes} {info : InstanceInfo} :
    m.find tracker_id = some info → ¬ host.IsChild info.pid →
    Move m host [] (m.setStatus tracker_id .stopped) host
  /-- A new instance is written, without a pid. -/
  | registers {tracker_id : Bytes} {info : InstanceInfo} : info.pid = -1 →
    Move m host [tracker_id] (m.set tracker_id info) host
  /-- It could not be started. -/
  | fails {tracker_id : Bytes} {info info' : InstanceInfo} : m.find tracker_id = some info →
    info.pid = -1 → info'.pid = -1 → Move m host [] (m.set tracker_id info') host
  /-- It gets a child. -/
  | starts {tracker_id : Bytes} {info info' : InstanceInfo} : m.find tracker_id = some info →
    info.pid = -1 → 0 < info'.pid → info'.status = .running → host.procs info'.pid = .free →
    Move m host [] (m.set tracker_id info') (host.start info'.pid)
  /-- The instances are forgotten, none of which is running with a pid. -/
  | clears : (∀ tracker_id info, m.find tracker_id = some info → info.status = .running →
    info.pid = -1) → Move m host [] [] host

/-- One move after another. -/
inductive Moves (m : Instances) (host : Host) : List Bytes → Instances → Host → Prop
  | refl : Moves m host [] m host
  | tail {ids ids' : List Bytes} {m₁ m₂ : Instances} {host₁ host₂ : Host} :
    Moves m host ids m₁ host₁ → Move m₁ host₁ ids' m₂ host₂ → Moves m host (ids ++ ids') m₂ host₂

variable {m m' m₁ : Instances} {host host' host₁ : Host} {ids ids' : List Bytes}
  {tracker_id : Bytes} {info : InstanceInfo} {pid : ℤ}

theorem Move.moves (h : Move m host ids m' host') : Moves m host ids m' host' := .tail .refl h

theorem Moves.trans (h : Moves m host ids m₁ host₁) (h' : Moves m₁ host₁ ids' m' host') :
    Moves m host (ids ++ ids') m' host' := by
  induction h' with
  | refl => rwa [List.append_nil]
  | tail _ hmove ih =>
    rw [← List.append_assoc]
    exact .tail ih hmove

/-- A sequence in which the second part takes no tracker id. -/
theorem Moves.then (h : Moves m host ids m₁ host₁) (h' : Moves m₁ host₁ [] m' host') :
    Moves m host ids m' host' :=
  ids.append_nil ▸ h.trans h'

theorem Moves.passes (h : host.Env host') : Moves m host [] m host' := (Move.passes h).moves

/-! ## Children with an instance -/

/-- Every child belongs to an instance that is running, and tracker ids are from the list. -/
structure Held (ids : List Bytes) (m : Instances) (host : Host) : Prop where
  child : ∀ pid, host.IsChild pid → 0 < pid ∧
    ∃ tracker_id info, m.find tracker_id = some info ∧ info.pid = pid ∧ info.status = .running
  taken : ∀ tracker_id info, m.find tracker_id = some info → tracker_id ∈ ids

namespace Host

variable {wstatus : WStatus} {other : ℤ}

theorem isChild_reap_iff : (host.reap pid wstatus).IsChild other ↔
    other ≠ pid ∧ host.IsChild other := by
  by_cases hother : other = pid
  · subst hother
    exact iff_of_false (not_isChild_reap _ _ _) fun h => h.1 rfl
  · simp only [IsChild, reap, Function.update_of_ne hother]
    exact ⟨fun h => ⟨hother, h⟩, And.right⟩

theorem isChild_start_iff : (host.start pid).IsChild other ↔ other = pid ∨ host.IsChild other := by
  by_cases hother : other = pid
  · subst hother
    exact iff_of_true (isChild_start _ _) (.inl rfl)
  · simp only [IsChild, start, Function.update_of_ne hother]
    exact ⟨.inr, fun h => h.resolve_left hother⟩

theorem procs_start (host : Host) (pid : ℤ) : (host.start pid).procs pid = .child none :=
  Function.update_self ..

theorem not_isChild_of_free (h : host.procs pid = .free) : ¬ host.IsChild pid := by
  rintro ⟨ended, hended⟩
  rw [h] at hended
  cases hended

end Host

namespace Held

/-- A change to an instance that has no child leaves the others held. -/
theorem child_set (hheld : Held ids m host) (hfind : m.find tracker_id = some info)
    (hnone : ∀ pid, host'.IsChild pid → host.IsChild pid ∧ pid ≠ info.pid)
    (info' : InstanceInfo) :
    ∀ pid, host'.IsChild pid → 0 < pid ∧ ∃ other info₁,
      (m.set tracker_id info').find other = some info₁ ∧ info₁.pid = pid ∧
        info₁.status = .running := by
  intro pid hchild
  obtain ⟨hbefore, hne⟩ := hnone pid hchild
  obtain ⟨hpos, other, info₁, hother, hpid, hrunning⟩ := hheld.child pid hbefore
  refine ⟨hpos, other, info₁, ?_, hpid, hrunning⟩
  -- the instance of the child is another one
  have hdiff : tracker_id ≠ other := by
    rintro rfl
    rw [hfind, Option.some.injEq] at hother
    exact hne (hother ▸ hpid.symm)
  rw [Map.find_set, if_neg hdiff]
  exact hother

/-- No tracker id is new behind a change to an instance that is there. -/
theorem taken_set (hheld : Held ids m host) (hfind : m.find tracker_id = some info)
    (info' : InstanceInfo) :
    ∀ other info₁, (m.set tracker_id info').find other = some info₁ → other ∈ ids := by
  intro other info₁ hother
  rw [Map.find_set] at hother
  split_ifs at hother with heq
  · exact heq ▸ hheld.taken _ _ hfind
  · exact hheld.taken _ _ hother

/-- What one move keeps. A tracker id that is taken is a new one. -/
theorem move (hheld : Held ids m host) (hmove : Move m host ids' m' host')
    (hnew : ∀ tracker_id ∈ ids', tracker_id ∉ ids) : Held (ids ++ ids') m' host' := by
  cases hmove with
  | passes henv =>
    rw [List.append_nil]
    exact ⟨fun pid hchild => hheld.child pid (henv.isChild_iff.mp hchild), hheld.taken⟩
  | reaps hfind hended =>
    rw [List.append_nil]
    refine ⟨hheld.child_set hfind (fun pid hchild => ?_) _, hheld.taken_set hfind _⟩
    exact (Host.isChild_reap_iff.mp hchild).symm
  | misses hfind hnone =>
    rw [List.append_nil]
    refine ⟨hheld.child_set hfind (fun pid hchild => ⟨hchild, ?_⟩) _, hheld.taken_set hfind _⟩
    rintro rfl
    exact hnone hchild
  | @registers tracker_id info _ =>
    have hfresh : tracker_id ∉ ids := hnew tracker_id (List.mem_singleton_self _)
    constructor
    · intro pid hchild
      obtain ⟨hpos, other, info₁, hother, hpid, hrunning⟩ := hheld.child pid hchild
      refine ⟨hpos, other, info₁, ?_, hpid, hrunning⟩
      have hdiff : tracker_id ≠ other := by
        rintro rfl
        exact hfresh (hheld.taken _ _ hother)
      rw [Map.find_set, if_neg hdiff]
      exact hother
    · intro other info₁ hother
      rw [Map.find_set] at hother
      split_ifs at hother with heq
      · exact heq ▸ List.mem_append_right _ (List.mem_singleton_self _)
      · exact List.mem_append_left _ (hheld.taken _ _ hother)
  | fails hfind hpid _ =>
    rw [List.append_nil]
    refine ⟨hheld.child_set hfind (fun pid hchild => ⟨hchild, ?_⟩) _, hheld.taken_set hfind _⟩
    have hpos := (hheld.child pid hchild).1
    omega
  | @starts tracker_id info info' hfind hpid hpos hrunning _ =>
    rw [List.append_nil]
    refine ⟨fun pid hchild => ?_, hheld.taken_set hfind _⟩
    rcases Host.isChild_start_iff.mp hchild with rfl | hbefore
    · exact ⟨hpos, tracker_id, info', Map.find_set_self _ _ _, rfl, hrunning⟩
    · refine hheld.child_set hfind (fun pid hchild => ⟨hchild, ?_⟩) _ pid hbefore
      have hpos := (hheld.child pid hchild).1
      omega
  | clears hidle =>
    rw [List.append_nil]
    refine ⟨fun pid hchild => ?_, fun _ _ hfind => nomatch hfind⟩
    obtain ⟨hpos, other, info, hother, hpid, hrunning⟩ := hheld.child pid hchild
    have hnone := hidle other info hother hrunning
    omega

/-- As long as no tracker id comes twice, no child is lost. -/
theorem moves (hheld : Held ids m host) (hmoves : Moves m host ids' m' host')
    (hids : (ids ++ ids').Nodup) : Held (ids ++ ids') m' host' := by
  induction hmoves with
  | refl => rwa [List.append_nil]
  | tail _ hmove ih =>
    rw [← List.append_assoc] at hids ⊢
    have hparts := List.nodup_append.mp hids
    refine (ih hparts.1).move hmove fun tracker_id hlast hfirst => ?_
    exact hparts.2.2 tracker_id hfirst tracker_id hlast rfl

end Held

/-! ## Children without one -/

/-- A child whose pid no instance has. -/
structure Unheld (pid : ℤ) (m : Instances) (host : Host) : Prop where
  child : host.IsChild pid
  pos : 0 < pid
  ne : ∀ tracker_id info, m.find tracker_id = some info → info.pid ≠ pid

namespace Unheld

theorem ne_set (h : Unheld pid m host) {info' : InstanceInfo} (hne : info'.pid ≠ pid) :
    ∀ other info₁, (m.set tracker_id info').find other = some info₁ → info₁.pid ≠ pid := by
  intro other info₁ hother
  rw [Map.find_set] at hother
  split_ifs at hother with heq
  · rwa [← Option.some.inj hother]
  · exact h.ne other info₁ hother

theorem ne_setStatus (h : Unheld pid m host) (hfind : m.find tracker_id = some info)
    (status : Status) :
    ∀ other info₁, (m.setStatus tracker_id status).find other = some info₁ → info₁.pid ≠ pid := by
  have hne := h.ne _ _ hfind
  rw [Instances.setStatus, hfind]
  exact h.ne_set hne

/-- The framework cannot do anything to it. -/
theorem move (h : Unheld pid m host) (hmove : Move m host ids m' host') : Unheld pid m' host' := by
  have hpos := h.pos
  cases hmove with
  | passes henv => exact ⟨henv.isChild_iff.mpr h.child, hpos, h.ne⟩
  | reaps hfind _ =>
    have hne := h.ne _ _ hfind
    exact ⟨Host.isChild_reap_iff.mpr ⟨hne.symm, h.child⟩, hpos, h.ne_setStatus hfind _⟩
  | misses hfind _ => exact ⟨h.child, hpos, h.ne_setStatus hfind _⟩
  | registers hpid => exact ⟨h.child, hpos, h.ne_set (by omega)⟩
  | fails _ _ hpid => exact ⟨h.child, hpos, h.ne_set (by omega)⟩
  | starts _ _ _ _ hfree =>
    refine ⟨Host.isChild_start_iff.mpr (.inr h.child), hpos, h.ne_set ?_⟩
    -- `fork` does not return the pid of a child
    rintro rfl
    exact Host.not_isChild_of_free hfree h.child
  | clears _ => exact ⟨h.child, hpos, fun _ _ hfind => nomatch hfind⟩

theorem moves (h : Unheld pid m host) (hmoves : Moves m host ids m' host') :
    Unheld pid m' host' := by
  induction hmoves with
  | refl => exact h
  | tail _ hmove ih => exact ih.move hmove

end Unheld

/-! ## The member functions -/

/-- No loop runs out of fuel. -/
def Fueled : SysOp → Host → Prop
  | .spin, _ => False
  | _, _ => True

theorem Fueled.of_quiet (o : SysOp) (host : Host) (h : o.Quiet) : Fueled o host := by
  cases o with
  | spin => exact h.elim
  | _ => trivial

/-- Whatever the answers are, there are only moves, and no tracker id is taken. -/
abbrev MakesMoves {α : Type} (f : α → Instances) (m : Instances) (p : Sys α) (host : Host) : Prop :=
  Always Host.step Fueled (fun a host' => Moves m host [] (f a) host') p host

variable {nohang : Bool} {result : WaitResult}

/-- What `waitpid` has returned, and what the member functions make of it. -/
theorem Move.of_waits (hfind : m.find tracker_id = some info)
    (hwaits : host.Waits info.pid nohang result host') (hresult : result ≠ .running) :
    Move m host [] (m.setStatus tracker_id .stopped) host' := by
  cases hwaits with
  | running _ _ => exact absurd rfl hresult
  | collected hended => exact .reaps hfind hended
  | echild hnone => exact .misses hfind hnone

/-- A sleep is only time. -/
theorem Host.env_of_sleep {ms : ℕ} {r : Unit} (h : host.step (.sleep ms) r host') :
    host.Env host' := by
  obtain ⟨now, henv, clock, hclock, rfl⟩ := h
  exact ⟨henv.procs, henv.reaped, henv.clock.trans ((Nat.le_add_right _ _).trans hclock)⟩

theorem moves_aside {α : Type} {p : Sys α} (h : p.AllOps SysOp.Aside) (m : Instances)
    (host : Host) : MakesMoves (fun _ => m) m p host :=
  (always_aside Fueled.of_quiet h).mono (fun _ _ h => h) fun _ _ henv => .passes henv

/-- An instance that is not running, or has no pid. -/
def Idle (m : Instances) (tracker_id : Bytes) : Prop :=
  ∀ info, m.find tracker_id = some info → info.status = .running → info.pid = -1

theorem idle_setStatus (hfind : m.find tracker_id = some info) :
    Idle (m.setStatus tracker_id .stopped) tracker_id := by
  intro info' hfind' hrunning
  rw [Instances.find_setStatus hfind, Option.some.injEq] at hfind'
  subst hfind'
  cases hrunning

/-- To stop an instance leaves the others idle. -/
theorem Idle.setStatus (hfind : m.find tracker_id = some info) {other : Bytes}
    (h : Idle m other) : Idle (m.setStatus tracker_id .stopped) other := by
  by_cases heq : tracker_id = other
  · exact heq ▸ idle_setStatus hfind
  · intro info' hfind'
    rw [Instances.setStatus, Map.find_set, if_neg heq] at hfind'
    exact h info' hfind'

/-- A poll. The instance is idle behind it, or nothing has been changed. -/
theorem moves_isRunning (m : Instances) (tracker_id : Bytes) (host : Host) :
    Always Host.step Fueled (fun r host' => Moves m host [] r.1 host' ∧
      (∀ other, Idle m other → Idle r.1 other) ∧ (r.2 = false → Idle r.1 tracker_id))
      (isRunning m tracker_id) host := by
  by_cases hpid : ∀ info, m.find tracker_id = some info → info.pid = -1
  · have hidle : Idle m tracker_id := fun info hfind _ => hpid info hfind
    rw [isRunning, getStatus]
    cases hfind : m.find tracker_id with
    | none => exact ⟨.refl, fun _ h => h, fun _ => hidle⟩
    | some info =>
      -- the clock and the log are read, and that is all
      refine ⟨trivial, fun now _ hnow => ?_⟩
      obtain ⟨first, hfirst, rfl⟩ := hnow
      refine ⟨trivial, fun lines _ hlines => ?_⟩
      obtain ⟨second, hsecond, rfl⟩ := hlines
      show Always _ _ _ ((if info.pid = -1 then _ else _) >>= _) _
      rw [if_pos (hpid info hfind)]
      exact ⟨.passes (hfirst.trans hsecond), fun _ h => h, fun _ => hidle⟩
  · push Not at hpid
    obtain ⟨info, hfind, hpid⟩ := hpid
    -- however `waitpid` finds the child gone, the instance is stopped
    have hidle : Idle (m.setStatus tracker_id .stopped) tracker_id := idle_setStatus hfind
    have hothers (other : Bytes) (h : Idle m other) :
        Idle (m.setStatus tracker_id .stopped) other := h.setStatus hfind
    refine always_isRunning Fueled.of_quiet hfind hpid ?_ ?_ ?_
    · intro host' henv _
      refine ⟨.passes henv, fun _ h => h, fun hfalse info' hfind' hrunning => ?_⟩
      obtain rfl : info = info' := Option.some.inj (hfind.symm.trans hfind')
      rw [hrunning] at hfalse
      cases hfalse
    · intro now wstatus henv hended
      exact ⟨(Moves.passes henv).then (Move.reaps hfind hended).moves, hothers, fun _ => hidle⟩
    · intro host' henv hnone
      exact ⟨(Moves.passes henv).then (Move.misses hfind hnone).moves, hothers, fun _ => hidle⟩

theorem moves_getStatus (m : Instances) (tracker_id : Bytes) (host : Host) :
    MakesMoves Prod.fst m (getStatus m tracker_id) host := by
  -- `isRunning` is `getStatus` and changes nothing more
  have hpoll := always_bind.mp (moves_isRunning m tracker_id host)
  exact hpoll.mono (fun _ _ h => h) fun _ _ h => h.1

theorem moves_getExitCode (m : Instances) (tracker_id : Bytes) (host : Host) :
    MakesMoves Prod.fst m (getExitCode m tracker_id) host :=
  (moves_getStatus m tracker_id host).bind fun _ _ h => h

theorem moves_waitForInstance (m : Instances) (tracker_id : Bytes) (timeout_ms : ℤ) (host : Host) :
    MakesMoves Prod.fst m (waitForInstance m tracker_id timeout_ms) host := by
  let I (m' : Instances) (host' : Host) : Prop := Moves m host [] m' host'
  have hpasses (m' : Instances) (host₁ host₂ : Host) (henv : host₁.Env host₂) (h : I m' host₁) :
      I m' host₂ := h.then (.passes henv)
  have hpoll (m' : Instances) (now : Host) (h : I m' now) : Always Host.step Fueled
      (fun r host' => if r.2 then I r.1 host' else I r.1 host') (isRunning m' tracker_id) now :=
    (moves_isRunning m' tracker_id now).mono (fun _ _ h => h) fun r host' hpolled => by
      rw [ite_self]
      exact Moves.then h hpolled.1
  refine (always_waitForInstance Fueled.of_quiet hpoll hpasses hpasses (fun _ _ h => h)
    (Moves.refl : I m host)).mono (fun _ _ h => h) fun r host' h => ?_
  rwa [ite_self] at h

/-! ### Stopping and killing -/

theorem moves_graceLoop (hfind : m.find tracker_id = some info) (n : ℕ) (host : Host) :
    MakesMoves Prod.fst m (graceLoop m tracker_id info.pid n) host := by
  induction n generalizing host with
  | zero => exact .refl
  | succ n ih =>
    refine ⟨trivial, fun result host₁ ⟨now, hnow, hwaits⟩ => ?_⟩
    by_cases hresult : result = .running
    · subst hresult
      obtain rfl : host₁ = now := by
        cases hwaits
        rfl
      refine ⟨trivial, fun _ host₂ hsleep => ?_⟩
      have henv := hnow.trans (Host.env_of_sleep hsleep)
      exact (ih host₂).mono (fun _ _ h => h) fun _ _ h => (Moves.passes henv).then h
    · have hmove := Move.of_waits hfind hwaits hresult
      have hstopped := (Moves.passes hnow).then hmove.moves
      cases result with
      | running => exact absurd rfl hresult
      | collected wstatus => exact hstopped
      | echild => exact hstopped

/-- What `stopInstance` does where nothing was collected. -/
theorem moves_terminate (hfind : m.find tracker_id = some info) (host : Host) :
    MakesMoves Prod.fst m (Sys.kill info.pid .SIGTERM >>= fun failed =>
      match failed with
      | none => graceLoop m tracker_id info.pid 20
      | some .ESRCH => return (m.setStatus tracker_id .stopped, true)
      | some _ => return (m, false)) host := by
  refine ⟨trivial, fun failed host' ⟨now, henv, hanswer⟩ => ?_⟩
  obtain ⟨hchild, _, rfl⟩ := hanswer
  cases failed with
  | none =>
    exact (moves_graceLoop hfind 20 host').mono (fun _ _ h => h)
      fun _ _ h => (Moves.passes henv).then h
  | some errno =>
    cases errno with
    | ESRCH =>
      -- a child can be sent a signal
      have hnone : ¬ host'.IsChild info.pid := fun h => nomatch hchild h
      exact (Moves.passes henv).then (Move.misses hfind hnone).moves
    | EPERM => exact .passes henv

theorem moves_stopFound (hfind : m.find tracker_id = some info) (host : Host) :
    MakesMoves Prod.fst m (stopFound m tracker_id info.pid) host := by
  refine ⟨trivial, fun result host' ⟨now, henv, hwaits⟩ => ?_⟩
  cases hwaits with
  | collected hended => exact (Moves.passes henv).then (Move.reaps hfind hended).moves
  | running _ _ =>
    exact (moves_terminate hfind host').mono (fun _ _ h => h)
      fun _ _ h => (Moves.passes henv).then h
  | echild _ =>
    exact (moves_terminate hfind host').mono (fun _ _ h => h)
      fun _ _ h => (Moves.passes henv).then h

theorem moves_stopInstance (m : Instances) (tracker_id : Bytes) (host : Host) :
    MakesMoves Prod.fst m (stopInstance m tracker_id) host := by
  rw [stopInstance]
  cases hfind : m.find tracker_id with
  | none => exact .refl
  | some info =>
    show MakesMoves _ _ (if info.pid = -1 then _ else _) _
    split_ifs
    · exact .refl
    · refine ⟨trivial, fun _ host' ⟨now, henv, heq⟩ => ?_⟩
      obtain rfl := heq
      exact (moves_stopFound hfind host').mono (fun _ _ h => h)
        fun _ _ h => (Moves.passes henv).then h

/-- `killInstance` waits for the end of the process, and the instance is idle behind it. -/
theorem moves_killInstance (m : Instances) (tracker_id : Bytes) (host : Host) :
    Always Host.step Fueled (fun r host' => Moves m host [] r.1 host' ∧
      (∀ other, Idle m other → Idle r.1 other) ∧ Idle r.1 tracker_id)
      (killInstance m tracker_id) host := by
  rw [killInstance]
  cases hfind : m.find tracker_id with
  | none => exact ⟨.refl, fun _ h => h, fun info hinfo => nomatch hfind.symm.trans hinfo⟩
  | some info =>
    show Always _ _ _ (if info.pid = -1 then _ else _) _
    split_ifs with hpid
    · refine ⟨.refl, fun _ h => h, fun info' hfind' _ => ?_⟩
      obtain rfl : info = info' := Option.some.inj (hfind.symm.trans hfind')
      exact hpid
    · refine ⟨trivial, fun _ _ ⟨first, hfirst, heq⟩ => ?_⟩
      obtain rfl := heq
      refine ⟨trivial, fun _ _ ⟨second, hsecond, _, _, heq⟩ => ?_⟩
      obtain rfl := heq
      refine ⟨trivial, fun result host' ⟨third, hthird, hwaits⟩ => ?_⟩
      have henv := (hfirst.trans hsecond).trans hthird
      -- without `WNOHANG` it does not return while the child runs
      have hresult : result ≠ .running := by
        rintro rfl
        cases hwaits with
        | running _ hnohang => cases hnohang
      refine ⟨(Moves.passes henv).then (Move.of_waits hfind hwaits hresult).moves, ?_, ?_⟩
      · exact fun _ h => h.setStatus hfind
      · exact idle_setStatus hfind

/-! ### `cleanup` -/

/-- Behind the loop the instances are idle that it has been through. -/
theorem moves_cleanupLoop (ids : List Bytes) (m : Instances) (host : Host) :
    Always Host.step Fueled (fun m' host' => Moves m host [] m' host' ∧
      (∀ other, Idle m other → Idle m' other) ∧ ∀ tracker_id ∈ ids, Idle m' tracker_id)
      (cleanupLoop ids m) host := by
  induction ids generalizing m host with
  | nil => exact ⟨.refl, fun _ h => h, fun _ hmem => nomatch hmem⟩
  | cons tracker_id ids ih =>
    refine (moves_isRunning m tracker_id host).bind
      fun ⟨m₁, running⟩ host₁ ⟨hmoves, hkept, hidle⟩ => ?_
    cases running with
    | false =>
      refine (ih m₁ host₁).mono (fun _ _ h => h) fun m' host' ⟨hrest, hkept', hidle'⟩ => ?_
      refine ⟨hmoves.then hrest, fun other h => hkept' other (hkept other h), ?_⟩
      exact List.forall_mem_cons.mpr ⟨hkept' tracker_id (hidle rfl), hidle'⟩
    | true =>
      refine (moves_killInstance m₁ tracker_id host₁).bind
        fun ⟨m₂, _⟩ host₂ ⟨hkill, hkept₂, hidle₂⟩ => ?_
      refine (ih m₂ host₂).mono (fun _ _ h => h) fun m' host' ⟨hrest, hkept', hidle'⟩ => ?_
      refine ⟨(hmoves.then hkill).then hrest, fun other h => ?_, ?_⟩
      · exact hkept' other (hkept₂ other (hkept other h))
      · exact List.forall_mem_cons.mpr ⟨hkept' tracker_id hidle₂, hidle'⟩

theorem moves_cleanup (m : Instances) (host : Host) :
    Always Host.step Fueled (fun m' host' => Moves m host [] m' host' ∧ m' = []) (cleanup m)
      host := by
  refine (moves_cleanupLoop (m.map (·.1)) m host).bind fun m' host' ⟨hmoves, hkept, hidle⟩ => ?_
  refine ⟨hmoves.then (Move.clears fun tracker_id => ?_).moves, rfl⟩
  by_cases hkey : tracker_id ∈ m.map (·.1)
  · exact hidle tracker_id hkey
  · refine hkept tracker_id fun info hfind => absurd ?_ hkey
    exact Map.mem_keys_of_find hfind

/-! ### `createInstance` -/

/-- `createInstance` behind the tracker id and the log directory. -/
def createNamed (m : Instances) (args : List Bytes) (logs_dir tracker_id : Bytes) :
    Sys (Instances × Bytes) := do
  let binary_path ← getBinaryPath
  let start_time ← Sys.systemNow
  let log_file := logPath logs_dir tracker_id
  let info : InstanceInfo :=
    { tracker_id, log_file, start_time, status := .starting, binary_path, args }
  let (m, started) ← startProcess (m.set tracker_id info) tracker_id args
  if !started then return (m.set tracker_id { info with status := .error }, [])
  else return (m.setStatus tracker_id .running, tracker_id)

theorem createInstance_eq (m : Instances) (args : List Bytes) (log_dir : Bytes) :
    createInstance m args log_dir = hexDigits 8 >>= fun tracker_id =>
      let logs_dir := if log_dir = [] then lit "test_logs" else log_dir
      Sys.createDirectories logs_dir >>= fun created =>
        if !created then return (m, []) else createNamed m args logs_dir tracker_id :=
  rfl

@[simp]
theorem Map.set_set {α : Type} (m : Map α) (key : Bytes) (first second : α) :
    (m.set key first).set key second = m.set key second := by
  induction m with
  | nil => simp [Map.set]
  | cons entry m ih =>
    obtain ⟨k, old⟩ := entry
    by_cases heq : k = key
    · simp [Map.set, heq]
    · by_cases hlt : key < k
      · simp [Map.set, heq, hlt]
      · simp [Map.set, heq, hlt, ih]

theorem Instances.setStatus_set (m : Instances) (tracker_id : Bytes) (info : InstanceInfo)
    (status : Status) : Instances.setStatus (m.set tracker_id info) tracker_id status =
      m.set tracker_id { info with status := status } := by
  rw [Instances.setStatus, Map.find_set_self, Map.set_set]
  rfl

/-- The instance is written first, without a pid. All the rest is about this instance. -/
theorem moves_createNamed (m : Instances) (args : List Bytes) (logs_dir tracker_id : Bytes)
    (host : Host) :
    Always Host.step Fueled (fun r host' => (r.2 = [] ∨ r.2 = tracker_id) ∧ ∃ info now,
      info.pid = -1 ∧ host.Env now ∧ Moves (m.set tracker_id info) now [] r.1 host')
      (createNamed m args logs_dir tracker_id) host := by
  refine (always_aside Fueled.of_quiet aside_getBinaryPath).bind fun binary_path first hfirst => ?_
  refine ⟨trivial, fun start_time _ ⟨second, hsecond, heq⟩ => ?_⟩
  obtain rfl := heq
  have henv := hfirst.trans hsecond
  let info : InstanceInfo :=
    ⟨-1, tracker_id, logPath logs_dir tracker_id, start_time, .starting, binary_path, args⟩
  have hfind : (m.set tracker_id info).find tracker_id = some info := Map.find_set_self ..
  change Always _ _ _ (startProcess (m.set tracker_id info) tracker_id args >>= _) _
  refine always_bind.mpr (always_startProcess Fueled.of_quiet hfind ?_ ?_)
  · intro host' hlater
    exact ⟨.inl rfl, info, _, rfl, henv,
      (Moves.passes hlater).then (Move.fails hfind rfl rfl).moves⟩
  · intro now host' pid hnow hpos hfree hstart
    refine ⟨.inr rfl, info, _, rfl, henv, (Moves.passes hnow).then ?_⟩
    let started : InstanceInfo := { info with pid := pid, status := .running }
    have hstarts : Move (m.set tracker_id info) now [] ((m.set tracker_id info).set tracker_id
        started) (now.start pid) := .starts hfind rfl hpos rfl hfree
    show Moves _ _ _ (Instances.setStatus ((m.set tracker_id info).set tracker_id
      { info with pid := pid }) tracker_id .running) _
    rw [Instances.setStatus_set]
    exact hstarts.moves.then (.passes hstart)

/-- Where `createInstance` returns a tracker id, it has written an instance there. -/
theorem moves_createInstance (m : Instances) (args : List Bytes) (log_dir : Bytes) (host : Host) :
    Always Host.step Fueled (fun r host' => r.2 = [] ∨ ∃ info now, info.pid = -1 ∧ host.Env now ∧
      Moves (m.set r.2 info) now [] r.1 host') (createInstance m args log_dir) host := by
  rw [createInstance_eq]
  refine (always_hexDigits Fueled.of_quiet 8).bind fun tracker_id first ⟨hfirst, _⟩ => ?_
  refine ⟨trivial, fun created _ ⟨second, hsecond, heq⟩ => ?_⟩
  obtain rfl := heq
  cases created with
  | false => exact .inl rfl
  | true =>
    refine (moves_createNamed m args _ tracker_id _).mono (fun _ _ h => h)
      fun r host' ⟨hid, info, now, hpid, henv, hmoves⟩ => hid.imp_right ?_
    intro hid
    exact ⟨info, now, hpid, (hfirst.trans hsecond).trans henv, hid ▸ hmoves⟩

/-! ## The tracker ids of a run -/

/-- What is drawn in a run: the digits, and the tracker ids, which are the eight digits in front of
each log directory. -/
structure Drawn where
  digits : List (Fin 16) := []
  ids : List Bytes := []
  deriving DecidableEq, Repr

namespace Drawn

/-- The last eight digits. -/
def lastId (drawn : Drawn) : Bytes :=
  (drawn.digits.drop (drawn.digits.length - 8)).map fun digit => Construction.hexChar digit.val

/-- What a call adds. -/
def record (drawn : Drawn) : (o : SysOp) → SysRes o → Drawn
  | .draw, digit => { drawn with digits := drawn.digits ++ [digit] }
  | .createDirectories _, _ => { drawn with ids := drawn.ids ++ [drawn.lastId] }
  | _, _ => drawn

theorem ids_record (o : SysOp) (r : SysRes o) (drawn : Drawn) :
    drawn.ids <+: (drawn.record o r).ids := by
  cases o with
  | createDirectories dir => exact List.prefix_append _ _
  | _ => exact List.prefix_rfl

theorem lastId_append (drawn : Drawn) {digits : List (Fin 16)} (h : digits.length = 8) :
    lastId { drawn with digits := drawn.digits ++ digits } =
      digits.map fun digit => Construction.hexChar digit.val := by
  have hlength : (drawn.digits ++ digits).length - 8 = drawn.digits.length := by
    rw [List.length_append, h, Nat.add_sub_cancel]
  rw [lastId, hlength, List.drop_left]

end Drawn

/-- The calls of the operating system, with what is drawn. -/
abbrev stepDrawn : (o : SysOp) → Host × Drawn → SysRes o → Host × Drawn → Prop :=
  recording Drawn.record Host.step

/-- No tracker id is taken back. -/
theorem prefix_of_stepDrawn (o : SysOp) (s : Host × Drawn) (r : SysRes o) (t : Host × Drawn)
    (h : stepDrawn o s r t) (hgrown : ids <+: s.2.ids) : ids <+: t.2.ids := by
  rw [h.2]
  exact hgrown.trans (s.2.ids_record o r)

/-- There are moves from the one to the other, and the tracker ids that they take are drawn. -/
def Draws (m : Instances) (s : Host × Drawn) (m' : Instances) (s' : Host × Drawn) : Prop :=
  ∃ ids, Moves m s.1 ids m' s'.1 ∧ (s.2.ids ++ ids).Sublist s'.2.ids

variable {s s' s₁ : Host × Drawn}

theorem Draws.trans (h : Draws m s m₁ s₁) (h' : Draws m₁ s₁ m' s') : Draws m s m' s' := by
  obtain ⟨first, hfirst, hsub⟩ := h
  obtain ⟨second, hsecond, hsub'⟩ := h'
  refine ⟨first ++ second, hfirst.trans hsecond, ?_⟩
  rw [← List.append_assoc]
  exact (hsub.append_right second).trans hsub'

/-- Every run of the program makes such moves. -/
abbrev MakesDraws {α : Type} (f : α → Instances) (m : Instances) (p : Sys α) (s : Host × Drawn) :
    Prop :=
  Always stepDrawn (fun o s => Fueled o s.1) (fun a s' => Draws m s (f a) s') p s

/-- A program that takes no tracker id, with what else is known of it. -/
theorem draws_and {α : Type} {f : α → Instances} {p : Sys α} {Q : α → Host → Prop}
    (h : Always Host.step Fueled (fun a host' => Moves m s.1 [] (f a) host' ∧ Q a host') p s.1) :
    Always stepDrawn (fun o s => Fueled o s.1) (fun a s' => Draws m s (f a) s' ∧ Q a s'.1) p s := by
  refine ((h.recording Drawn.record s.2).invariant prefix_of_stepDrawn List.prefix_rfl).mono
    (fun _ _ h => h) fun a s' ⟨⟨hmoves, hQ⟩, hgrown⟩ => ⟨⟨[], hmoves, ?_⟩, hQ⟩
  rw [List.append_nil]
  exact hgrown.sublist

theorem MakesDraws.of_and {α : Type} {f : α → Instances} {p : Sys α} {Q : α → Host → Prop}
    (h : Always Host.step Fueled (fun a host' => Moves m s.1 [] (f a) host' ∧ Q a host') p s.1) :
    MakesDraws f m p s :=
  (draws_and h).mono (fun _ _ h => h) fun _ _ h => h.1

theorem MakesMoves.draws {α : Type} {f : α → Instances} {p : Sys α}
    (h : MakesMoves f m p s.1) : MakesDraws f m p s :=
  .of_and (Q := fun _ _ => True) (h.mono (fun _ _ h => h) fun _ _ h => ⟨h, trivial⟩)

/-- Behind moves there may be a program. -/
theorem Draws.makes {α : Type} {f : α → Instances} {p : Sys α} (h : Draws m s m₁ s₁)
    (hp : MakesDraws f m₁ p s₁) :
    Always stepDrawn (fun o s => Fueled o s.1) (fun a s' => Draws m s (f a) s') p s₁ :=
  hp.mono (fun _ _ h => h) fun _ _ h' => h.trans h'

theorem always_hexDigits_drawn (n : ℕ) (s : Host × Drawn) :
    Always stepDrawn (fun o s => Fueled o s.1) (fun text s' => s.1.Env s'.1 ∧
      ∃ digits : List (Fin 16), digits.length = n ∧
        text = digits.map (fun digit => Construction.hexChar digit.val) ∧
        s'.2 = { s.2 with digits := s.2.digits ++ digits }) (hexDigits n) s := by
  induction n generalizing s with
  | zero => exact ⟨.refl _, [], rfl, rfl, by rw [List.append_nil]⟩
  | succ n ih =>
    refine ⟨trivial, fun digit s₁ ⟨⟨now, henv, heq⟩, hdrawn⟩ => ?_⟩
    refine (ih s₁).bind fun text s' ⟨hlater, digits, hlength, htext, hdigits⟩ => ?_
    refine ⟨henv.trans (heq ▸ hlater), digit :: digits, congrArg (· + 1) hlength, ?_, ?_⟩
    · rw [htext]
      rfl
    · rw [hdigits, hdrawn]
      show (⟨(s.2.digits ++ [digit]) ++ digits, s.2.ids⟩ : Drawn) = _
      rw [List.append_assoc]
      rfl

theorem draws_createInstance (m : Instances) (args : List Bytes) (log_dir : Bytes)
    (s : Host × Drawn) : MakesDraws Prod.fst m (createInstance m args log_dir) s := by
  rw [createInstance_eq]
  refine (always_hexDigits_drawn 8 s).bind
    fun tracker_id s₁ ⟨hfirst, digits, hlength, htext, hdigits⟩ => ?_
  refine ⟨trivial, fun created s₂ ⟨⟨now, hsecond, heq⟩, hdrawn⟩ => ?_⟩
  have henv : s.1.Env s₂.1 := hfirst.trans (heq ▸ hsecond)
  -- the tracker id has been drawn
  have hids : s₂.2.ids = s.2.ids ++ [tracker_id] := by
    rw [hdrawn, hdigits]
    show s.2.ids ++ [Drawn.lastId _] = _
    rw [Drawn.lastId_append _ hlength, htext]
  cases created with
  | false =>
    refine ⟨[], .passes henv, ?_⟩
    rw [List.append_nil, hids]
    exact List.sublist_append_left _ _
  | true =>
    refine (((moves_createNamed m args _ tracker_id s₂.1).recording Drawn.record s₂.2).invariant
      prefix_of_stepDrawn List.prefix_rfl).mono (fun _ _ h => h)
      fun r s' ⟨⟨_, hnamed⟩, hgrown⟩ => ?_
    obtain ⟨info, now, hpid, hpasses, hrest⟩ := hnamed
    refine ⟨[tracker_id], ?_, hids ▸ hgrown.sublist⟩
    exact (Moves.trans (.passes (henv.trans hpasses)) (Move.registers hpid).moves).then hrest

/-! ## Any sequence of calls -/

theorem draws_runtime (m : Instances) (args : List Bytes) (env : Map Bytes) (s : Host × Drawn) :
    MakesDraws Prod.fst m (runtime m args env) s := by
  refine (moves_aside (aside_setupEnvironment env) m s.1).draws.bind fun runtime_env s hsetup => ?_
  refine (hsetup.makes (moves_aside (aside_setAll runtime_env) m s.1).draws).bind
    fun _ s hset => ?_
  refine (hset.makes (draws_createInstance m args _ s)).bind fun ⟨m, tracker_id⟩ s hcreate => ?_
  show Always _ _ _ (if tracker_id = [] then _ else _) _
  split_ifs with hid
  · exact hcreate
  refine (hcreate.makes (moves_aside aside_containerLog m s.1).draws).bind fun _ s hlog => ?_
  refine (hlog.makes (moves_waitForInstance m tracker_id TIMEOUT_MS s.1).draws).bind
    fun ⟨m, completed⟩ s hwait => ?_
  cases completed with
  | false =>
    exact (hwait.makes (.of_and (moves_killInstance m tracker_id s.1))).bind fun _ _ h => h
  | true =>
    refine (hwait.makes (moves_getExitCode m tracker_id s.1).draws).bind
      fun ⟨m, exit_code⟩ s hcode => ?_
    refine (hcode.makes (moves_aside (aside_getLogs m tracker_id 5) m s.1).draws).bind
      fun _ s hlogs => ?_
    exact (hlogs.makes (moves_stopInstance m tracker_id s.1).draws).bind fun _ _ h => h

theorem draws_perform (m : Instances) (call : Call) (s : Host × Drawn) :
    MakesDraws id m (call.perform m) s := by
  cases call with
  | createInstance args log_dir => exact (draws_createInstance m args log_dir s).bind fun _ _ h => h
  | getStatus tracker_id => exact (moves_getStatus m tracker_id s.1).draws.bind fun _ _ h => h
  | isRunning tracker_id =>
    exact (MakesDraws.of_and (moves_isRunning m tracker_id s.1)).bind fun _ _ h => h
  | getExitCode tracker_id => exact (moves_getExitCode m tracker_id s.1).draws.bind fun _ _ h => h
  | waitForInstance tracker_id timeout_ms =>
    exact (moves_waitForInstance m tracker_id timeout_ms s.1).draws.bind fun _ _ h => h
  | stopInstance tracker_id =>
    exact (moves_stopInstance m tracker_id s.1).draws.bind fun _ _ h => h
  | killInstance tracker_id =>
    exact (MakesDraws.of_and (moves_killInstance m tracker_id s.1)).bind fun _ _ h => h
  | cleanup => exact MakesDraws.of_and (moves_cleanup m s.1)
  | runtime args env => exact (draws_runtime m args env s).bind fun _ _ h => h

theorem draws_performAll (calls : List Call) (m : Instances) (s : Host × Drawn) :
    MakesDraws id m (performAll calls m) s := by
  induction calls generalizing m s with
  | nil => exact ⟨[], .refl, by rw [List.append_nil]⟩
  | cons call calls ih => exact (draws_perform m call s).bind fun m s h => h.makes (ih m s)

/-- A run of calls one after another, behind a run of the first ones. -/
theorem performAll_append (calls calls' : List Call) (m : Instances) :
    performAll (calls ++ calls') m = performAll calls m >>= performAll calls' := by
  induction calls generalizing m with
  | nil => rfl
  | cons call calls ih =>
    show (call.perform m >>= fun m => performAll (calls ++ calls') m) = _
    simp only [ih]
    exact (bind_assoc _ _ _).symm

/-- Behind `cleanup` there are no instances. -/
theorem draws_cleanup (calls : List Call) (m : Instances) (s : Host × Drawn) :
    Always stepDrawn (fun o s => Fueled o s.1) (fun m' s' => Draws m s m' s' ∧ m' = [])
      (performAll (calls ++ [.cleanup]) m) s := by
  rw [performAll_append]
  refine (draws_performAll calls m s).bind fun m₁ s₁ hcalls => ?_
  exact (draws_and (moves_cleanup m₁ s₁.1)).bind
    fun _ _ ⟨hdraws, hnil⟩ => ⟨hcalls.trans hdraws, hnil⟩

/-! ### Two runs -/

/-- A tracker id of zeros. -/
def zeros : Bytes := lit "00000000"

/-- The instance behind it, with a pid. -/
def zerosInfo (pid : ℤ) : InstanceInfo :=
  { pid, tracker_id := zeros, log_file := logPath (lit "test_logs") zeros, start_time := 0
    status := .running, binary_path := [], args := [] }

/-- A call in front of which nothing happens, and which changes nothing. -/
theorem runs_look {α : Type} {o : SysOp} {k : SysRes o → Sys α} {a : α} {drawn : Drawn}
    (r : SysRes o) (hanswer : host.Answer o r host)
    (hrest : Runs stepDrawn (k r) (host, drawn.record o r) a s') :
    Runs stepDrawn (op o k) (host, drawn) a s' :=
  .op (t := (host, drawn.record o r)) ⟨⟨host, .refl host, hanswer⟩, rfl⟩ hrest

theorem runs_hexDigits_zeros (n : ℕ) (host : Host) (drawn : Drawn) :
    Runs stepDrawn (hexDigits n) (host, drawn) (List.replicate n 48)
      (host, { drawn with digits := drawn.digits ++ List.replicate n ⟨0, by decide⟩ }) := by
  induction n generalizing drawn with
  | zero =>
    simp only [List.replicate_zero, List.append_nil]
    exact .ret _ _
  | succ n ih =>
    have hdigits : drawn.digits ++ List.replicate (n + 1) ⟨0, by decide⟩ =
        drawn.digits ++ [⟨0, by decide⟩] ++ List.replicate n ⟨0, by decide⟩ := by
      rw [List.replicate_succ, List.append_assoc, List.singleton_append]
    rw [hdigits]
    refine runs_look (⟨0, by decide⟩ : Fin 16) rfl ?_
    exact (ih _).bind (.ret _ _)

/-- `createInstance` draws zeros and starts a child. -/
theorem runs_createInstance_zeros (m : Instances) (hpos : 0 < pid) (hfree : host.procs pid = .free)
    (drawn : Drawn) :
    Runs stepDrawn (createInstance m [] []) (host, drawn) (m.set zeros (zerosInfo pid), zeros)
      (host.start pid,
        ⟨drawn.digits ++ List.replicate 8 ⟨0, by decide⟩, drawn.ids ++ [zeros]⟩) := by
  let info : InstanceInfo := { zerosInfo (-1) with status := .starting }
  have hfind : (m.set zeros info).find zeros = some info := Map.find_set_self ..
  let drawn' : Drawn := ⟨drawn.digits ++ List.replicate 8 ⟨0, by decide⟩, drawn.ids ++ [zeros]⟩
  have hstart : Runs stepDrawn (startProcess (m.set zeros info) zeros []) (host, drawn')
      ((m.set zeros info).set zeros { info with pid := pid }, true) (host.start pid, drawn') := by
    rw [startProcess, hfind]
    refine runs_look true rfl (runs_look true rfl (runs_look true rfl ?_))
    refine .op (t := (host.start pid, drawn')) ⟨⟨host, .refl host, .forked hpos hfree⟩, rfl⟩ ?_
    exact runs_look true rfl (.ret _ _)
  have hdraw := runs_hexDigits_zeros 8 host drawn
  have hids : Drawn.lastId { drawn with digits := drawn'.digits } = zeros :=
    (drawn.lastId_append List.length_replicate).trans (by decide)
  have hrecord : Drawn.record { drawn with digits := drawn'.digits }
      (.createDirectories (lit "test_logs")) true = drawn' := by
    rw [Drawn.record, hids]
  rw [createInstance_eq]
  refine hdraw.bind (runs_look true rfl ?_)
  change Runs stepDrawn (createNamed m [] (lit "test_logs") (List.replicate 8 48))
    (host, Drawn.record { drawn with digits := drawn'.digits }
      (.createDirectories (lit "test_logs")) true) _ _
  rw [hrecord]
  -- the path of the binary is in the environment
  refine runs_look (some []) rfl (runs_look true rfl (runs_look (0 : ℤ) rfl ?_))
  refine hstart.bind ?_
  have hrunning : Instances.setStatus ((m.set zeros info).set zeros { info with pid := pid }) zeros
      .running = m.set zeros (zerosInfo pid) := by
    rw [Instances.setStatus_set, Map.set_set]
    rfl
  rw [← hrunning]
  exact .ret _ _

/-- `cleanup` finds the instance running, kills it and waits for its end. -/
theorem runs_cleanup_zeros (hpid : pid ≠ -1) (hchild : host.procs pid = .child none)
    (drawn : Drawn) :
    ∃ host', Runs stepDrawn (cleanup [(zeros, zerosInfo pid)]) (host, drawn) [] (host', drawn) := by
  obtain ⟨now, hends, hended⟩ := Host.exists_env_ended hchild (.signaled 9)
  have hfind : Map.find [(zeros, zerosInfo pid)] zeros = some (zerosInfo pid) := if_pos rfl
  have hpoll : Runs stepDrawn (isRunning [(zeros, zerosInfo pid)] zeros) (host, drawn)
      ([(zeros, zerosInfo pid)], true) (host, drawn) := by
    rw [isRunning, getStatus, hfind]
    refine runs_look (0 : ℤ) rfl (runs_look [] rfl ?_)
    show Runs stepDrawn ((if pid = -1 then _ else _) >>= _) _ _ _
    rw [if_neg hpid]
    exact runs_look .running (.running hchild rfl) (.ret _ _)
  have hkill : Runs stepDrawn (killInstance [(zeros, zerosInfo pid)] zeros) (host, drawn)
      (Instances.setStatus [(zeros, zerosInfo pid)] zeros .stopped, true)
      (now.reap pid (.signaled 9), drawn) := by
    rw [killInstance, hfind]
    show Runs stepDrawn (if pid = -1 then _ else _) _ _ _
    rw [if_neg hpid]
    have hanswer : host.Answer (.kill pid .SIGKILL) none host :=
      ⟨fun _ => rfl, fun hfree => absurd (hfree.symm.trans hchild) Proc.noConfusion, rfl⟩
    refine runs_look () rfl (runs_look none hanswer ?_)
    exact .op (t := (now.reap pid (.signaled 9), drawn)) ⟨⟨now, hends, .collected hended⟩, rfl⟩
      (.ret _ _)
  have hloop : Runs stepDrawn (cleanupLoop [zeros] [(zeros, zerosInfo pid)]) (host, drawn)
      (Instances.setStatus [(zeros, zerosInfo pid)] zeros .stopped)
      (now.reap pid (.signaled 9), drawn) :=
    hpoll.bind (hkill.bind (.ret _ _))
  exact ⟨now.reap pid (.signaled 9), hloop.bind (.ret _ _)⟩

/-- The first call of a sequence. -/
theorem runs_createInstance_cons {calls : List Call} {drawn drawn' : Drawn}
    (hcreate : Runs stepDrawn (createInstance m [] []) (host, drawn) (m₁, tracker_id)
      (host₁, drawn'))
    (hrest : Runs stepDrawn (performAll calls m₁) (host₁, drawn') m' s') :
    Runs stepDrawn (performAll (.createInstance [] [] :: calls) m) (host, drawn) m' s' := by
  have hcall : Runs stepDrawn (Call.perform m (.createInstance [] [])) (host, drawn) m₁
      (host₁, drawn') := by
    show Runs stepDrawn (createInstance m [] [] >>= fun r => ret r.1) _ _ _
    exact hcreate.bind (.ret _ _)
  exact hcall.bind hrest

theorem runs_cleanup_nil (h : Runs stepDrawn (cleanup m) s m' s') :
    Runs stepDrawn (performAll [.cleanup] m) s m' s' := by
  show Runs stepDrawn (cleanup m >>= fun m => performAll [] m) _ _ _
  exact h.bind (.ret _ _)

/-- Where no tracker id is drawn twice, the framework leaves no child behind: when `cleanup`
returns, every process that it has started has ended and has been reaped. -/
theorem nothing_left {calls : List Call} {start host : Host} {drawn : Drawn}
    (hstart : ∀ pid, ¬ start.IsChild pid)
    (hrun : Runs stepDrawn (performAll (calls ++ [.cleanup]) []) (start, {}) m (host, drawn))
    (hids : drawn.ids.Nodup) (pid : ℤ) : ¬ host.IsChild pid := by
  intro hchild
  obtain ⟨⟨ids, hmoves, hsub⟩, rfl⟩ := (draws_cleanup calls [] _).of_runs hrun
  have hempty : Held [] [] start :=
    ⟨fun pid h => absurd h (hstart pid), fun _ _ hfind => nomatch hfind⟩
  -- in front of the run nothing has been drawn
  have hheld : Held ([] ++ ids) [] host := hempty.moves hmoves (hids.sublist hsub)
  obtain ⟨_, tracker_id, info, hfind, _⟩ := hheld.child pid hchild
  cases hfind

/-- One instance is started and left to `cleanup`. -/
theorem nothing_left_zeros : ∃ m host drawn,
    Runs stepDrawn (performAll ([.createInstance [] []] ++ [.cleanup]) []) (Host.fresh, {}) m
      (host, drawn) ∧ ∀ pid, ¬ host.IsChild pid := by
  have hcreate : Runs stepDrawn (createInstance [] [] []) (Host.fresh, {}) _ _ :=
    runs_createInstance_zeros [] one_pos rfl {}
  obtain ⟨host, hcleanup⟩ := runs_cleanup_zeros (by decide) (Host.procs_start Host.fresh 1)
    ⟨List.replicate 8 ⟨0, by decide⟩, [zeros]⟩
  have hrun : Runs stepDrawn (performAll ([.createInstance [] []] ++ [.cleanup]) [])
      (Host.fresh, {}) _ _ := runs_createInstance_cons hcreate (runs_cleanup_nil hcleanup)
  have hids : (⟨List.replicate 8 ⟨0, by decide⟩, [zeros]⟩ : Drawn).ids.Nodup :=
    List.nodup_singleton zeros
  exact ⟨[], host, _, hrun, nothing_left Host.not_isChild_fresh hrun hids⟩

/-- A child is left behind where `createInstance` draws the tracker id of its instance again, the
only one with its pid: from then on no call reaps it, `cleanup` included. -/
theorem left_behind {args : List Bytes} {log_dir : Bytes} (hchild : host.IsChild pid)
    (hpos : 0 < pid)
    (honly : ∀ other info, m.find other = some info → info.pid = pid → other = tracker_id)
    (hcreate : Runs Host.step (createInstance m args log_dir) host (m₁, tracker_id) host₁)
    (hid : tracker_id ≠ []) {calls : List Call}
    (hrun : Runs Host.step (performAll calls m₁) host₁ m' host') : host'.IsChild pid := by
  obtain ⟨written, now, hwritten, henv, hmoves⟩ :=
    ((moves_createInstance m args log_dir host).of_runs hcreate).resolve_left hid
  have hunheld : Unheld pid (m.set tracker_id written) now := by
    refine ⟨henv.isChild_iff.mpr hchild, hpos, fun other info hother hsame => ?_⟩
    rw [Map.find_set] at hother
    split_ifs at hother with heq
    · rw [← Option.some.inj hother] at hsame
      omega
    · exact heq (honly other info hother hsame).symm
  -- the rest of the run cannot find it
  obtain ⟨drawn, hrecorded⟩ := hrun.recording Drawn.record {}
  obtain ⟨ids, hrest, _⟩ := (draws_performAll calls m₁ (host₁, {})).of_runs hrecorded
  exact ((hunheld.moves hmoves).moves hrest).child

/-- The same tracker id twice. -/
theorem left_behind_zeros : ∃ m host,
    Runs Host.step (performAll [.createInstance [] [], .createInstance [] [], .cleanup] [])
      Host.fresh m host ∧ host.IsChild 1 := by
  let first : Host := Host.fresh.start 1
  have hcreate : Runs stepDrawn (createInstance [] [] []) (Host.fresh, {}) _ _ :=
    runs_createInstance_zeros [] one_pos rfl {}
  have hfree : first.procs 2 = .free := rfl
  have hagain := runs_createInstance_zeros [(zeros, zerosInfo 1)] (by decide) hfree
    ⟨List.replicate 8 ⟨0, by decide⟩, [zeros]⟩
  obtain ⟨host, hcleanup⟩ := runs_cleanup_zeros (by decide) (Host.procs_start first 2) _
  have hrest := runs_cleanup_nil hcleanup
  refine ⟨[], host, (runs_createInstance_cons hcreate
    (runs_createInstance_cons hagain hrest)).of_recording, ?_⟩
  refine left_behind (Host.isChild_start _ _) one_pos (fun other info hother _ => ?_)
    hagain.of_recording (by decide) hrest.of_recording
  exact List.mem_singleton.mp (Map.mem_keys_of_find hother)

end TestSuite
