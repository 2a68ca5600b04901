import Akkon.Main.Process
import Akkon.ToMathlib.Interference

/-!
# Handlers beside each other

The handler of one worker, seen among all the other threads of the process.

* `handlerOp_cases`, `prefixes_handlerOp`: what a call stores, and that it keeps every row;
* `worker_step`: what a step of the process does to the handler of a worker;
* `answer_handlerOp`, `step_frame`: what a step does to the stored data and the lockdown state;
* `keeps_runFrom`: what every operation of the handler keeps, a run of the process keeps;
* `forall_running`: what holds of every handler;
* `StaysAt`: runs in which a worker stays at its task;
* `Interference`: what a handler may rely on, as a view of the process with the relation that every
  step keeps and the answers that the operations give;
* `Interference.secured_of_staysAt`, `Interference.secured_of_reachable`: a handler that is secured
  when it starts is so up to its end.
-/

namespace Main

open Cpp Security Db

/-- What a call of a handler does to the index and to the shards. -/
theorem handlerOp_cases {env : HandlerEnv} {o : HandlerOp} {w w' : World} {r : o.Res}
    (h : handlerOp env o w = .ok (r, w')) :
    (∃ item, o = .insertIndex item ∧
      w'.service.query_engine = w.service.query_engine.inserted item ∧
      w'.service.data_storage = w.service.data_storage) ∨
    (∃ entity, o = .insertEntity entity ∧ w'.service.query_engine = w.service.query_engine ∧
      w'.service.data_storage =
        (w.service.data_storage.insertEntity entity env.storage).1) ∨
    w'.service.query_engine = w.service.query_engine ∧
      w'.service.data_storage = w.service.data_storage := by
  cases o with
  | insertEntity entity =>
    cases h
    exact .inr (.inl ⟨entity, rfl, rfl, rfl⟩)
  | insertIndex item =>
    rw [handlerOp_insertIndex] at h
    cases h
    exact .inl ⟨item, rfl, rfl, rfl⟩
  | query item =>
    rw [handlerOp_query] at h
    cases h
    exact .inr (.inr ⟨rfl, rfl⟩)
  | throw fault => cases h
  | _ =>
    cases h
    exact .inr (.inr ⟨rfl, rfl⟩)

/-! ## The tables -/

/-- Each of the tables has the rows of the one at its place, and maybe more behind them. -/
abbrev Prefixes (tables tables' : List Shard) : Prop := List.Forall₂ (· <+: ·) tables tables'

theorem Prefixes.addRow {tables tables' : List Shard} (h : Prefixes tables tables') (i : ℕ)
    (row : Db.Row) : Prefixes tables (tables'.modify i (· ++ [row])) := by
  induction h generalizing i with
  | nil => simp
  | cons hhead htail ih =>
    cases i with
    | zero =>
      rw [List.modify_zero_cons]
      exact .cons (hhead.trans (List.prefix_append _ _)) htail
    | succ i =>
      rw [List.modify_succ_cons]
      exact .cons hhead (ih i)

section Tables

variable {tables : List Shard}

theorem prefixes_insertEntity {ds : DataStorage} (h : Prefixes tables ds.m_data_dbs)
    (entity : DbEntity) (env : StorageEnv) :
    Prefixes tables (ds.insertEntity entity env).1.m_data_dbs := by
  rcases ds.insertEntity_cases entity env with ⟨-, heq⟩ | ⟨-, -, heq⟩ | ⟨-, -, heq⟩
  · rw [heq]
    exact h
  · rw [heq, DataStorage.m_data_dbs_advance]
    exact h
  · rw [heq]
    exact h.addRow _ _

theorem prefixes_handlerOp {env : HandlerEnv} {o : HandlerOp} {w w' : World} {r : o.Res}
    (h : Prefixes tables w.service.data_storage.m_data_dbs)
    (hop : handlerOp env o w = .ok (r, w')) :
    Prefixes tables w'.service.data_storage.m_data_dbs := by
  rcases handlerOp_cases hop with ⟨item, -, -, hstorage⟩ | ⟨entity, -, -, hstorage⟩ |
    ⟨-, hstorage⟩
  · rwa [hstorage]
  · rw [hstorage]
    exact prefixes_insertEntity h entity env.storage
  · rwa [hstorage]

end Tables

namespace Process

variable {p q : Process} {l : Label} {w : Fin Server.threadPoolSize} {task : Server.Task}
  {program : Handler Unit}

/-- What a step of the process does to a handler: it ends, it stays where it is, or it makes its
next call. -/
theorem worker_step (h : p.step l = some q) (hw : p.workers w = some ⟨task, program⟩) :
    q.workers w = none ∨ q.workers w = p.workers w ∨
      ∃ (o : HandlerOp) (k : o.Res → Handler Unit) (env : HandlerEnv) (taken : Option ℕ) (r : o.Res)
        (q' : Process), program = .op o k ∧ p.answer task env taken o = some (r, q') ∧
          q = q'.setWorker w (some ⟨task, k r⟩) := by
  unfold step at h
  split at h
  · cases h
  cases l with
  | setLockdown state =>
    cases h
    exact .inr (.inl rfl)
  | loop env =>
    obtain ⟨server, -, rfl⟩ := Option.map_eq_some_iff.mp h
    exact .inr (.inl rfl)
  | pass payload taken => exact .inr (.inl (congrFun (passStep_spec h).workers w))
  | worker w' env taken =>
    simp only [workerStep] at h
    by_cases hw' : w' = w
    · subst hw'
      rw [hw] at h
      split at h
      · next hnone => cases hnone
      · obtain rfl := Option.some.inj h
        exact .inl (Function.update_self _ _ _)
      · obtain rfl := Option.some.inj h
        exact .inr (.inl rfl)
      · next task' o k _ heq =>
        obtain ⟨⟨r, q'⟩, hanswer, rfl⟩ := Option.map_eq_some_iff.mp h
        obtain ⟨rfl, rfl⟩ := Running.mk.inj (Option.some.inj heq)
        exact .inr (.inr ⟨o, k, env, taken, r, q', rfl, hanswer, rfl⟩)
    · -- another worker
      have hother (p' : Process) (running : Option Running) (hp' : p'.workers = p.workers) :
          (p'.setWorker w' running).workers w = p.workers w := by
        rw [← hp']
        exact Function.update_of_ne (Ne.symm hw') _ _
      split at h
      · split at h
        · cases h
        · obtain rfl := Option.some.inj h
          exact .inr (.inl (hother _ _ rfl))
      · obtain rfl := Option.some.inj h
        exact .inr (.inl (hother _ _ rfl))
      · obtain rfl := Option.some.inj h
        exact .inr (.inl rfl)
      · obtain ⟨⟨r, q'⟩, hanswer, rfl⟩ := Option.map_eq_some_iff.mp h
        exact .inr (.inl (hother _ _ (answer_spec hanswer).workers))

/-- A call of a handler is answered as a sequential handler is in some environment, as far as the
stored data goes. The lockdown state stays. -/
theorem answer_handlerOp {env : HandlerEnv} {taken : Option ℕ} {o : HandlerOp} {r : o.Res}
    (h : p.answer task env taken o = some (r, q)) :
    q.lockdown = p.lockdown ∧ ∃ env' w, handlerOp env' o ⟨p.service, []⟩ = .ok (r, w) ∧
      q.service = w.service := by
  have hservice {o : HandlerOp} {r : o.Res} (h : p.serviceOp env o = some (r, q)) :
      q.lockdown = p.lockdown ∧ ∃ env' w, handlerOp env' o ⟨p.service, []⟩ = .ok (r, w) ∧
        q.service = w.service := by
    unfold serviceOp at h
    split at h
    · next r w hop =>
      cases h
      exact ⟨rfl, env, w, hop, rfl⟩
    · cases h
  cases o with
  | getLockdownState =>
    cases h
    exact ⟨rfl, { env with lockdown := p.lockdown }, _, rfl, rfl⟩
  | isWsClient =>
    simp only [answer] at h
    split at h
    · cases h
    · cases h
      exact ⟨rfl, { env with is_ws_client := decide (task.fd ∈ p.ws_clients) }, _, rfl, rfl⟩
  | insertWsClient =>
    simp only [answer] at h
    split at h
    · cases h
    · cases h
      exact ⟨rfl, env, _, rfl, rfl⟩
  | sendData data =>
    cases h
    exact ⟨rfl,
      { env with sendOk := (p.server.sendData (.handler task.conn) task.fd data taken).1 },
      _, rfl, rfl⟩
  | closeClient =>
    obtain ⟨server, -, heq⟩ := Option.map_eq_some_iff.mp h
    cases heq
    exact ⟨rfl, env, _, rfl, rfl⟩
  | enablePolling =>
    obtain ⟨server, -, heq⟩ := Option.map_eq_some_iff.mp h
    cases heq
    exact ⟨rfl, env, _, rfl, rfl⟩
  | throw fault => cases h
  | countQuery => exact hservice h
  | probeDisk => exact hservice h
  | query item => exact hservice h
  | insertIndex item => exact hservice h
  | insertEntity entity => exact hservice h
  | readFile path => exact hservice h

/-- A step that is no call of a handler leaves the stored data alone, and only its own label changes
the lockdown state. -/
theorem step_frame (h : p.step l = some q) :
    (q.lockdown = p.lockdown ∨ l = .setLockdown q.lockdown) ∧
      (q.service = p.service ∨
        ∃ (w : Fin Server.threadPoolSize) (task : Server.Task) (o : HandlerOp)
          (k : o.Res → Handler Unit) (env : HandlerEnv) (taken : Option ℕ) (r : o.Res)
          (q' : Process), p.workers w = some ⟨task, .op o k⟩ ∧
            p.answer task env taken o = some (r, q') ∧
            q = q'.setWorker w (some ⟨task, k r⟩)) := by
  rcases step_cases h with _ | _ | _ | _ | _ | ⟨hworker, hanswer⟩ | hpass
  · exact ⟨.inr rfl, .inl rfl⟩
  · exact ⟨.inl rfl, .inl rfl⟩
  · exact ⟨.inl rfl, .inl rfl⟩
  · exact ⟨.inl rfl, .inl rfl⟩
  · exact ⟨.inl rfl, .inl rfl⟩
  · exact ⟨.inl (answer_handlerOp hanswer).1, .inr ⟨_, _, _, _, _, _, _, _, hworker, hanswer, rfl⟩⟩
  · rcases passStep_cases hpass with ⟨-, rfl⟩ | ⟨_, -, rfl⟩ | ⟨_, _, _, _, -, -, rfl⟩ |
      ⟨_, _, _, _, -, -, rfl⟩ | ⟨_, _, _, -, rfl⟩
    · exact ⟨.inl rfl, .inl rfl⟩
    · exact ⟨.inl rfl, .inl rfl⟩
    · exact ⟨.inl rfl, .inl rfl⟩
    · exact ⟨.inl rfl, .inl rfl⟩
    · exact ⟨.inl rfl, .inl rfl⟩

section Keeps

variable {P : Service → Prop}
  (hop : ∀ {env o w w'} {r : HandlerOp.Res o}, P w.service → handlerOp env o w = .ok (r, w') →
    P w'.service)
include hop

/-- What every operation of the handler keeps, every step of the process keeps. -/
theorem keeps_step (hp : P p.service) (h : p.step l = some q) : P q.service := by
  rcases (step_frame h).2 with hsame | ⟨w, task, o, k, env, taken, r, q', -, hanswer, rfl⟩
  · exact hsame ▸ hp
  · obtain ⟨-, env', w', hw', hservice⟩ := answer_handlerOp hanswer
    change P q'.service
    rw [hservice]
    exact hop hp hw'

theorem keeps_runFrom {m_server_fd : ℤ} {service : Service} {events : List Label}
    (hp : P p.service) (h : (processSystem m_server_fd service).runFrom p events = some q) :
    P q.service := by
  induction events generalizing p with
  | nil =>
    cases h
    exact hp
  | cons l events ih =>
    obtain ⟨t, hstep, hrest⟩ := Option.bind_eq_some_iff.mp h
    exact ih (keeps_step hop hp hstep) hrest

end Keeps

/-- A worker that is idle takes a task from its beginning, or stays idle. -/
theorem worker_start (h : p.step l = some q) (hw : p.workers w = none) :
    q.workers w = none ∨ ∃ task, q.workers w = some ⟨task, dataHandler task.data⟩ := by
  rcases step_cases h with _ | _ | _ | _ | _ | ⟨hworker, hanswer⟩ | hpass
  · exact .inl hw
  · exact .inl hw
  · simp only [setWorker, Function.update_apply]
    split
    · exact .inr ⟨_, rfl⟩
    · exact .inl hw
  · simp only [setWorker, Function.update_apply]
    split
    · exact .inl rfl
    · exact .inl hw
  · exact .inl hw
  · simp only [setWorker, Function.update_apply]
    split
    · next heq =>
      subst heq
      rw [hw] at hworker
      cases hworker
    · exact .inl (congrFun (answer_spec hanswer).workers w ▸ hw)
  · exact .inl (congrFun (passStep_spec hpass).workers w ▸ hw)

/-- What holds of every handler at its start, and is not lost by a call, holds of every handler. -/
theorem forall_running {m_server_fd : ℤ} {service : Service} {Φ : Server.Task → Handler Unit → Prop}
    (hstart : ∀ task, Φ task (dataHandler task.data))
    (hcall : ∀ task o k r, Φ task (.op o k) → Φ task (k r))
    (hp : (processSystem m_server_fd service).Reachable p)
    (hw : p.workers w = some ⟨task, program⟩) : Φ task program := by
  induction hp generalizing task program with
  | init hs =>
    rw [hs] at hw
    cases hw
  | @step p q l _ _ hstep ih =>
    cases hbusy : p.workers w with
    | none =>
      rcases worker_start hstep hbusy with hnone | ⟨task', hw'⟩
      · rw [hnone] at hw
        cases hw
      · obtain ⟨rfl, rfl⟩ := Running.mk.inj (Option.some.inj (hw'.symm.trans hw))
        exact hstart _
    | some running =>
      rcases worker_step hstep hbusy with hnone | hsame | ⟨o, k, _, _, r, q', hprogram, -, rfl⟩
      · rw [hnone] at hw
        cases hw
      · rw [hsame] at hw
        exact ih hw
      · have hnext : (q'.setWorker w (some ⟨running.task, k r⟩)).workers w =
          some ⟨running.task, k r⟩ := Function.update_self _ _ _
        rw [hnext] at hw
        obtain ⟨rfl, rfl⟩ := Running.mk.inj (Option.some.inj hw)
        exact hcall _ o k r (hprogram ▸ ih hbusy)

/-- The worker stays at its task along steps that are allowed. -/
inductive StaysAt (allowed : Label → Prop) (w : Fin Server.threadPoolSize) :
    Process → Process → Prop
  | refl (p : Process) : StaysAt allowed w p p
  | step {p q r : Process} {l : Label} : StaysAt allowed w p q → allowed l → q.step l = some r →
    r.workers w ≠ none → StaysAt allowed w p r

end Process

open Process

/-! ## What a handler may rely on -/

/-- A view of the process, the relation on it that every allowed step keeps, and the answers that
the operations of a handler give. -/
structure Interference (σ : Type) where
  view : Process → σ
  allowed : Label → Prop
  rely : σ → σ → Prop
  answers : (o : HandlerOp) → σ → o.Res → σ → Prop
  rely_refl : ∀ s, rely s s
  rely_trans : ∀ s t u, rely s t → rely t u → rely s u
  rely_step : ∀ {p l q}, allowed l → p.step l = some q → rely (view p) (view q)
  answers_answer : ∀ {p : Process} {task env taken} {o : HandlerOp} {r : o.Res} {q},
    p.answer task env taken o = some (r, q) → answers o (view p) r (view q)
  view_setWorker : ∀ p w running, view (setWorker p w running) = view p

namespace Interference

variable {σ : Type} (I : Interference σ) {ok : HandlerOp → σ → Prop} {p q : Process} {l : Label}
  {w : Fin Server.threadPoolSize} {task : Server.Task} {program : Handler Unit}

/-- The handler meets `ok` from here on. -/
abbrev Secured (ok : HandlerOp → σ → Prop) (program : Handler Unit) (s : σ) : Prop :=
  Prog.Secured I.rely I.answers ok (fun _ _ => True) program s

/-- An allowed step keeps a handler secured, until it ends. -/
theorem secured_step (hallowed : I.allowed l) (h : p.step l = some q)
    (hw : p.workers w = some ⟨task, program⟩) (hsecured : I.Secured ok program (I.view p)) :
    q.workers w = none ∨
      ∃ program', q.workers w = some ⟨task, program'⟩ ∧ I.Secured ok program' (I.view q) := by
  rcases worker_step h hw with hnone | hsame | ⟨o, k, env, taken, r, q', rfl, hanswer, rfl⟩
  · exact .inl hnone
  · exact .inr ⟨program, hsame.trans hw, hsecured.of_rely I.rely_trans (I.rely_step hallowed h)⟩
  · refine .inr ⟨k r, Function.update_self _ _ _, ?_⟩
    rw [I.view_setWorker]
    exact hsecured.answered I.rely_refl (I.answers_answer hanswer)

/-- A handler that is secured stays so while its worker stays at its task. -/
theorem secured_of_staysAt (hw : p.workers w = some ⟨task, program⟩)
    (hsecured : I.Secured ok program (I.view p)) (h : StaysAt I.allowed w p q) :
    ∃ program', q.workers w = some ⟨task, program'⟩ ∧ I.Secured ok program' (I.view q) := by
  induction h with
  | refl => exact ⟨program, hw, hsecured⟩
  | step _ hallowed hstep hbusy ih =>
    obtain ⟨program', hw', hsecured'⟩ := ih
    exact (I.secured_step hallowed hstep hw' hsecured').resolve_left hbusy

/-- Every handler is secured up to its end, if every handler is when it starts. -/
theorem secured_of_reachable {ok : Bytes → HandlerOp → σ → Prop} {m_server_fd : ℤ}
    {service : Service} (hstart : ∀ request s, I.Secured (ok request) (dataHandler request) s)
    (hp : (processSystem m_server_fd service).ReachableUnder (fun _ l => I.allowed l) p)
    (hw : p.workers w = some ⟨task, program⟩) : I.Secured (ok task.data) program (I.view p) := by
  induction hp generalizing task program with
  | init hs =>
    rw [hs] at hw
    cases hw
  | @step p q l _ hallowed hstep ih =>
    cases hbusy : p.workers w with
    | none =>
      rcases worker_start hstep hbusy with hnone | ⟨task', hw'⟩
      · rw [hnone] at hw
        cases hw
      · obtain ⟨rfl, rfl⟩ := Running.mk.inj (Option.some.inj (hw'.symm.trans hw))
        exact hstart _ _
    | some running =>
      rcases I.secured_step hallowed hstep hbusy (ih hbusy) with hnone | ⟨program', hw', hsecured⟩
      · rw [hnone] at hw
        cases hw
      · obtain ⟨rfl, rfl⟩ := Running.mk.inj (Option.some.inj (hw'.symm.trans hw))
        exact hsecured

end Interference

end Main
