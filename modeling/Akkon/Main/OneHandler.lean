import Mathlib.Algebra.BigOperators.Fin
import Mathlib.Algebra.Order.BigOperators.Group.Finset
import Akkon.Main.PollSet
import Akkon.Main.WebSocketClients

/-!
# One handler for each connection

A connection is not polled while its task is queued or its handler runs, and the handler of a
WebSocket client resumes it by its last call. So a connection has one token, held by the server
(`Server.tokens`) or by the handler that has a call ahead.

* `Process.tokens`, `Process.atWork`: the tokens of a connection, and its tasks that are queued or
  running;
* `Process.OneHandler`: every open connection has at most one task at work, and that task is for
  what it sent last;
* `oneHandler_of_orderly`: this holds in every run in which the server loop applies no
  `ENABLE_POLLING` to the suspended entry of another connection, and receives nothing from a
  connection whose handler has made its last call and has not ended;
* `not_oneHandler_staleResumeRun`: it fails when the client of an upgrade under way is dropped by
  the broadcast and the next client gets its number.
-/

namespace Main

open Cpp Security Handler

/-! ## The last call of a handler -/

/-- Behind `enablePolling` there is no call. -/
abbrev ResumesLast (program : Handler Unit) : Prop := program.Last (· = .enablePolling)

theorem ResumesLast.of_calm {program : Handler Unit} (h : program.AllOps HandlerOp.Calm) :
    ResumesLast program :=
  .of_allOps (h.mono fun _ => And.right)

theorem resumesLast_webSocketBranch (request : Bytes) : ResumesLast (webSocketBranch request) := by
  unfold webSocketBranch
  split
  · exact ⟨nofun, nofun⟩
  · next payloads _ =>
    exact Prog.Last.bind ((calm_answerPayloads payloads).mono fun _ => And.right)
      fun _ => ⟨fun _ _ => ⟨(), rfl⟩, fun _ => trivial⟩

theorem resumesLast_upgradeRoute (request : Bytes) : ResumesLast (upgradeRoute request) := by
  refine Prog.Last.bind ((calm_ofExcept _).mono fun _ => And.right) fun ws_response => ?_
  exact ⟨nofun, fun _ => ⟨nofun, fun _ => ⟨fun _ _ => ⟨(), rfl⟩, fun _ => trivial⟩⟩⟩

/-- A handler resumes its connection by its last call, if at all. -/
theorem resumesLast_dataHandler (request : Bytes) : ResumesLast (dataHandler request) := by
  refine ⟨nofun, fun state => ?_⟩
  change ResumesLast (if state ≠ .NONE then _ else _)
  split
  · exact .of_calm (calm_refuseInLockdown request)
  · refine ⟨nofun, fun is_ws_client => ?_⟩
    change ResumesLast (if is_ws_client = true then _ else _)
    split
    · exact resumesLast_webSocketBranch request
    · rcases plainBranch_cases request with hcloses | ⟨heq, -⟩
      · exact .of_calm hcloses.calm
      · rw [heq]
        exact resumesLast_upgradeRoute request

/-! ## Tasks at work -/

/-- A task that a worker is busy with is for the connection. -/
def runningFor (conn : ℕ) : Option Running → ℕ
  | some running => if running.task.conn = conn then 1 else 0
  | none => 0

/-- And its handler has a call ahead. -/
def liveFor (conn : ℕ) : Option Running → ℕ
  | some ⟨task, .op _ _⟩ => if task.conn = conn then 1 else 0
  | _ => 0

@[simp]
theorem runningFor_some (conn : ℕ) (task : Server.Task) (program : Handler Unit) :
    runningFor conn (some ⟨task, program⟩) = if task.conn = conn then 1 else 0 := rfl

@[simp]
theorem liveFor_op (conn : ℕ) (task : Server.Task) (o : HandlerOp) (k : o.Res → Handler Unit) :
    liveFor conn (some ⟨task, .op o k⟩) = if task.conn = conn then 1 else 0 := rfl

@[simp]
theorem liveFor_ret (conn : ℕ) (task : Server.Task) :
    liveFor conn (some ⟨task, .ret ()⟩) = 0 := rfl

theorem liveFor_le (conn : ℕ) (task : Server.Task) (program : Handler Unit) :
    liveFor conn (some ⟨task, program⟩) ≤ if task.conn = conn then 1 else 0 := by
  cases program with
  | ret _ => exact Nat.zero_le _
  | op o k => exact le_rfl

/-- What one worker adds to a sum over the workers. -/
theorem sum_workers_update (f : Option Running → ℕ)
    (workers : Fin Server.threadPoolSize → Option Running) (w : Fin Server.threadPoolSize)
    (running : Option Running) :
    ∑ w', f (Function.update workers w running w') + f (workers w) =
      ∑ w', f (workers w') + f running := by
  have hnew : (fun w' => f (Function.update workers w running w')) =
      Function.update (fun w' => f (workers w')) w (f running) := by
    ext w'
    by_cases hw : w' = w
    · rw [hw, Function.update_self, Function.update_self]
    · rw [Function.update_of_ne hw, Function.update_of_ne hw]
  rw [hnew, Finset.sum_update_of_mem (Finset.mem_univ w),
    ← Finset.add_sum_erase _ (fun w' => f (workers w')) (Finset.mem_univ w),
    Finset.sdiff_singleton_eq_erase]
  omega

namespace Process

/-- The tasks of a connection that are queued or with a worker. -/
def atWork (p : Process) (conn : ℕ) : ℕ :=
  p.server.queuedFor conn + ∑ w, runningFor conn (p.workers w)

/-- The tokens of a connection. -/
def tokens (p : Process) (conn : ℕ) : ℕ :=
  p.server.tokens conn + ∑ w, liveFor conn (p.workers w)

/-- Every open connection has at most one task that is queued or running, and this task is for what
the connection sent last, so that its requests are handled one after the other. -/
structure OneHandler (p : Process) : Prop where
  atWork : ∀ fd conn, p.server.sockets fd = some conn → p.atWork conn ≤ 1
  last : ∀ task program, p.Handles task program → p.server.sockets task.fd = some task.conn →
    Server.lastReceived p.server.trace task.conn = some task.data

/-- The server loop resumes no other connection than the one an action was made for, and receives
from a connection only when no handler for it is left with nothing to call. -/
def Orderly (p : Process) : Label → Prop
  | .loop env => p.server.ResumesOwn ∧
    -- a handler resumes its connection by its last call, but it ends later
    ∀ i pfd conn, p.server.phase = .receiving i → p.server.m_fds[i]? = some pfd →
      pfd.revents = true → p.server.sockets pfd.fd = some conn → env.data ≠ [] →
      ∀ w task, p.workers w = some ⟨task, .ret ()⟩ → task.conn ≠ conn
  | _ => True

/-- The invariant. -/
structure Sound (p : Process) : Prop extends Tracked p where
  resumesLast : ∀ task program, p.Handles task program → ResumesLast program
  tokens : ∀ conn, p.tokens conn ≤ 1
  atWork : ∀ conn, p.atWork conn ≤ 1
  last : ∀ task program, p.Handles task program →
    Server.lastReceived p.server.trace task.conn = some task.data

/-! ## One step -/

section Step

variable {p p' : Process} {l : Label}

/-- A task that is queued or running is counted. -/
theorem atWork_pos {task : Server.Task} {program : Handler Unit} (h : p.Handles task program) :
    0 < p.atWork task.conn := by
  cases h with
  | queued htask =>
    refine Nat.add_pos_left (List.countP_pos_iff.mpr ⟨task, htask, ?_⟩) _
    rw [beq_self_eq_true]
  | @running w _ _ hworker =>
    refine Nat.add_pos_right _ (Finset.sum_pos_iff.mpr ⟨w, Finset.mem_univ w, ?_⟩)
    rw [hworker, runningFor, if_pos rfl]
    exact Nat.one_pos

/-- A connection that is still to come has no token. -/
theorem Sound.tokens_eq_zero (hp : Sound p) {conn : ℕ} (hconn : p.server.connections ≤ conn) :
    p.tokens conn = 0 := by
  have hrefers : ∀ fd conn', p.Refers fd conn' → conn' ≠ conn := by
    intro fd conn' h
    have := (hp.refers fd conn' h).2
    omega
  have hqueued : p.server.queuedFor conn = 0 := by
    refine List.countP_eq_zero.mpr fun task htask => ?_
    simpa using hrefers _ _ (.queued htask)
  have hresumes : p.server.resumesFor conn = 0 := by
    refine List.countP_eq_zero.mpr fun action haction => ?_
    have hne := hrefers _ _ (.action (Server.mem_actionList_of_unapplied haction))
    simp [hne]
  have hpolled : Server.polledFor p.server.sockets p.server.m_fds conn = 0 := by
    refine List.countP_eq_zero.mpr fun pfd _ hpolled => ?_
    simp only [Bool.and_eq_true, beq_iff_eq] at hpolled
    have := hp.sockets _ _ hpolled.2
    omega
  have hlive : ∑ w, liveFor conn (p.workers w) = 0 := by
    refine Finset.sum_eq_zero fun w _ => ?_
    unfold liveFor
    split
    · next task o k hworker => exact if_neg (hrefers _ _ (.running hworker))
    · rfl
  rw [Process.tokens, Server.tokens, hqueued, hresumes, hpolled, hlive]

/-- A step of another thread than the server loop. -/
theorem Sound.of_untouched (hp : Sound p) (htracked : Tracked p')
    (hserver : Server.Untouched p.server p'.server)
    (hhandles : ∀ task program, p'.Handles task program →
      ResumesLast program ∧ ∃ program', p.Handles task program')
    (htokens : ∀ conn, p'.tokens conn ≤ p.tokens conn)
    (hatWork : ∀ conn, p'.atWork conn ≤ p.atWork conn) : Sound p' where
  toTracked := htracked
  resumesLast task program h := (hhandles task program h).1
  tokens conn := (htokens conn).trans (hp.tokens conn)
  atWork conn := (hatWork conn).trans (hp.atWork conn)
  last task program h := by
    obtain ⟨-, program', hold⟩ := hhandles task program h
    rw [hserver.lastReceived_eq]
    exact hp.last task program' hold

/-- When something is received from a connection, nothing is at work for it: it is polled, so it has
no other token, and no handler for it is left with nothing to call. -/
theorem Sound.atWork_receives (hp : Sound p) {env : Server.LoopEnv} {server : Server} {fd : ℤ}
    {conn : ℕ} {data : Bytes} (h : Server.Receives p.server env server fd conn data)
    (hended : ∀ w task, p.workers w = some ⟨task, .ret ()⟩ → task.conn ≠ conn) :
    p.atWork conn = 0 := by
  have htokens := hp.tokens conn
  have hpolled := h.polled
  rw [Process.tokens, Server.tokens] at htokens
  -- the polled entry is the only token
  have hlive : ∑ w, liveFor conn (p.workers w) = 0 := by omega
  have hidle : ∑ w, runningFor conn (p.workers w) = 0 := by
    refine Finset.sum_eq_zero fun w _ => ?_
    have hworker := Finset.sum_eq_zero_iff.mp hlive w (Finset.mem_univ w)
    cases hrunning : p.workers w with
    | none => rfl
    | some running =>
      obtain ⟨task, program⟩ := running
      cases program with
      | ret a => exact if_neg (hended w task hrunning)
      | op o k =>
        rw [hrunning] at hworker
        exact hworker
  rw [Process.atWork, hidle]
  omega

section Loop

variable {env : Server.LoopEnv} {server : Server}

/-- The server loop makes no task, or one for a connection that has none at work. -/
theorem Sound.tasks_loop (hp : Sound p) (hok : p.Orderly (.loop env))
    (hstep : p.server.loopStep p.lockdown env = some server) :
    (server.m_tasks = p.server.m_tasks ∧ ∀ conn,
      Server.lastReceived server.trace conn = Server.lastReceived p.server.trace conn) ∨
    ∃ fd conn data, Server.Receives p.server env server fd conn data ∧ p.atWork conn = 0 := by
  rcases Server.loopStep_tasks hp.ready hstep with
    hsame | ⟨i, pfd, conn, data, hphase, hpfd, hrevents, hreceives⟩
  · exact .inl hsame
  · refine .inr ⟨pfd.fd, conn, data, hreceives, hp.atWork_receives hreceives ?_⟩
    refine hok.2 i pfd conn hphase hpfd hrevents hreceives.open_fd fun hnil => ?_
    refine hreceives.ne_nil ?_
    rw [← hreceives.data_eq, hnil, List.take_nil]

theorem Sound.tokens_loop (hp : Sound p) (hok : p.Orderly (.loop env))
    (hstep : p.server.loopStep p.lockdown env = some server) (conn : ℕ) :
    Process.tokens { p with server } conn ≤ 1 := by
  have hle := Server.tokens_loopStep hp.poll hp.ready hok.1 hstep conn
  have hone := hp.tokens conn
  show server.tokens conn + ∑ w, liveFor conn (p.workers w) ≤ 1
  rw [Process.tokens] at hone
  split_ifs at hle with hconn
  · -- the connection is accepted by this step at the earliest
    have hzero := hp.tokens_eq_zero hconn.ge
    rw [Process.tokens] at hzero
    omega
  · omega

theorem Sound.atWork_loop (hp : Sound p) (hok : p.Orderly (.loop env))
    (hstep : p.server.loopStep p.lockdown env = some server) (conn : ℕ) :
    Process.atWork { p with server } conn ≤ 1 := by
  have hone := hp.atWork conn
  show server.queuedFor conn + ∑ w, runningFor conn (p.workers w) ≤ 1
  rw [Process.atWork] at hone
  rcases hp.tasks_loop hok hstep with ⟨hsame, -⟩ | ⟨fd, conn', data, hreceives, hidle⟩
  · rw [Server.queuedFor, hsame]
    exact hone
  · have hqueued : server.queuedFor conn =
        p.server.queuedFor conn + if conn' = conn then 1 else 0 := by
      rw [Server.queuedFor, hreceives.tasks, List.countP_append]
      simp [Server.queuedFor, List.countP_cons]
    rw [Process.atWork] at hidle
    split_ifs at hqueued with hconn
    · rw [hconn] at hidle
      omega
    · omega

/-- A task that is made holds what was received, and one that was there before belongs to another
connection. -/
theorem Sound.last_loop (hp : Sound p) (hok : p.Orderly (.loop env))
    (hstep : p.server.loopStep p.lockdown env = some server) {task : Server.Task}
    {program : Handler Unit} (hhandles : Handles { p with server } task program) :
    Server.lastReceived server.trace task.conn = some task.data := by
  have htasks := hp.tasks_loop hok hstep
  -- A chunk that is received now is for a connection that no other handler is at work for.
  have hold (hhandles : p.Handles task program) :
      Server.lastReceived server.trace task.conn = some task.data := by
    have hlast := hp.last task program hhandles
    rcases htasks with ⟨-, hsame⟩ | ⟨fd, conn, data, hreceives, hidle⟩
    · rw [hsame]
      exact hlast
    · have hne : conn ≠ task.conn := by
        rintro rfl
        exact (atWork_pos hhandles).ne' hidle
      rw [hreceives.trace, Server.lastReceived, if_neg hne]
      exact hlast
  cases hhandles with
  | queued htask =>
    change task ∈ server.m_tasks at htask
    rcases htasks with ⟨hsame, -⟩ | ⟨fd, conn, data, hreceives, -⟩
    · exact hold (.queued (hsame ▸ htask))
    · rw [hreceives.tasks] at htask
      rcases List.mem_append.mp htask with htask | htask
      · exact hold (.queued htask)
      · rw [List.mem_singleton.mp htask]
        show Server.lastReceived server.trace conn = some data
        rw [hreceives.trace, Server.lastReceived, if_pos rfl]
  | running hworker => exact hold (.running hworker)

/-- A step of the server loop. -/
theorem Sound.loop (hp : Sound p) (htracked : Tracked { p with server })
    (hok : p.Orderly (.loop env))
    (hstep : p.server.loopStep p.lockdown env = some server) : Sound { p with server } where
  toTracked := htracked
  resumesLast task program hhandles := by
    -- a handler is the same as before, or it has not begun
    cases hhandles with
    | queued htask => exact resumesLast_dataHandler task.data
    | running hworker => exact hp.resumesLast task program (.running hworker)
  tokens := hp.tokens_loop hok hstep
  atWork := hp.atWork_loop hok hstep
  last _ _ hhandles := hp.last_loop hok hstep hhandles

end Loop

/-- A worker that is given something else to run. -/
theorem tokens_setWorker (p : Process) (w : Fin Server.threadPoolSize) (running : Option Running)
    (conn : ℕ) : (p.setWorker w running).tokens conn + liveFor conn (p.workers w) =
      p.tokens conn + liveFor conn running := by
  have hsum := sum_workers_update (liveFor conn) p.workers w running
  show p.server.tokens conn + _ + _ = p.server.tokens conn + _ + _
  rw [Nat.add_assoc, Nat.add_assoc, ← hsum]
  rfl

theorem atWork_setWorker (p : Process) (w : Fin Server.threadPoolSize) (running : Option Running)
    (conn : ℕ) : (p.setWorker w running).atWork conn + runningFor conn (p.workers w) =
      p.atWork conn + runningFor conn running := by
  have hsum := sum_workers_update (runningFor conn) p.workers w running
  show p.server.queuedFor conn + _ + _ = p.server.queuedFor conn + _ + _
  rw [Nat.add_assoc, Nat.add_assoc, ← hsum]
  rfl

/-- A worker takes a task. -/
theorem Sound.take (hp : Sound p) {w : Fin Server.threadPoolSize} {task : Server.Task}
    {m_tasks : List Server.Task} (htasks : p.server.m_tasks = task :: m_tasks)
    (htracked : Tracked (setWorker { p with server := { p.server with m_tasks } } w
      (some ⟨task, dataHandler task.data⟩))) :
    Sound (setWorker { p with server := { p.server with m_tasks } } w
      (some ⟨task, dataHandler task.data⟩)) := by
  -- The worker goes on with the handler of the task that the queue has given up.
  refine hp.of_untouched htracked ⟨rfl, rfl, rfl, rfl, rfl, [], rfl, by simp⟩
    (fun task' program hhandles => ?_) (fun conn => ?_) fun conn => ?_
  · rcases handles_setWorker hhandles with hnew | hold
    · cases hnew
      exact ⟨resumesLast_dataHandler task.data, _, .queued (htasks ▸ List.mem_cons_self)⟩
    · cases hold with
      | queued htask =>
        exact ⟨resumesLast_dataHandler _, _, .queued (htasks ▸ List.mem_cons_of_mem _ htask)⟩
      | running hworker => exact ⟨hp.resumesLast _ _ (.running hworker), _, .running hworker⟩
  · -- the queue gives up what the worker gets, at most
    have hset := tokens_setWorker { p with server := { p.server with m_tasks } } w
      (some ⟨task, dataHandler task.data⟩) conn
    have htake : Process.tokens { p with server := { p.server with m_tasks } } conn +
        (if task.conn = conn then 1 else 0) = p.tokens conn := by
      rw [Process.tokens, Process.tokens, ← Server.tokens_take htasks conn, Nat.add_right_comm]
    have hlive := liveFor_le conn task (dataHandler task.data)
    omega
  · have hset := atWork_setWorker { p with server := { p.server with m_tasks } } w
      (some ⟨task, dataHandler task.data⟩) conn
    have htake : Process.atWork { p with server := { p.server with m_tasks } } conn +
        (if task.conn = conn then 1 else 0) = p.atWork conn := by
      rw [Process.atWork, Process.atWork, ← Server.queuedFor_take htasks conn,
        Nat.add_right_comm]
    rw [runningFor_some] at hset
    omega

/-- A handler makes its next call. -/
theorem Sound.call (hp : Sound p) {w : Fin Server.threadPoolSize} {env : HandlerEnv}
    {taken : Option ℕ} {task : Server.Task} {o : HandlerOp} {k : o.Res → Handler Unit} {r : o.Res}
    {q : Process} (hworker : p.workers w = some ⟨task, .op o k⟩)
    (h : p.answer task env taken o = some (r, q))
    (htracked : Tracked (q.setWorker w (some ⟨task, k r⟩))) :
    Sound (q.setWorker w (some ⟨task, k r⟩)) := by
  -- The token of the task moves from the running handler to the poll set, or it stays.
  have hanswer := answer_spec h
  obtain ⟨huntouched, htokens⟩ := answer_called h
  have hlast := hp.resumesLast task _ (.running hworker)
  have hworker' : q.workers w = some ⟨task, .op o k⟩ := hanswer.workers ▸ hworker
  refine hp.of_untouched htracked huntouched (fun task' program hhandles => ?_) (fun conn => ?_)
    fun conn => ?_
  · -- what is left of the handler, or a task that was there before
    rcases handles_setWorker hhandles with hnew | hold
    · cases hnew
      exact ⟨hlast.2 r, _, .running hworker⟩
    · have hold : p.Handles task' program := hold.of_eq hanswer.workers hanswer.tasks
      exact ⟨hp.resumesLast _ _ hold, _, hold⟩
  · have hset := tokens_setWorker q w (some ⟨task, k r⟩) conn
    rw [hworker', liveFor_op] at hset
    have hq : q.tokens conn = p.tokens conn +
        if o = .enablePolling ∧ task.conn = conn then 1 else 0 := by
      rw [Process.tokens, Process.tokens, hanswer.workers, htokens, Nat.add_right_comm]
    have hlive := liveFor_le conn task (k r)
    by_cases henable : o = .enablePolling
    · -- the handler hands its token on, as it calls nothing else
      obtain ⟨x, hx⟩ := hlast.1 henable r
      rw [hx, liveFor_ret] at hset
      simp only [henable, true_and] at hq
      rw [hx]
      omega
    · rw [if_neg fun hmakes => henable hmakes.1] at hq
      omega
  · have hset := atWork_setWorker q w (some ⟨task, k r⟩) conn
    rw [hworker', runningFor_some, runningFor_some] at hset
    have hq : q.atWork conn = p.atWork conn := by
      rw [Process.atWork, Process.atWork, hanswer.workers, Server.queuedFor, Server.queuedFor,
        hanswer.tasks]
    omega

/-- A step of any thread. -/
theorem Sound.step (hp : Sound p) (hok : p.Orderly l) (h : p.step l = some p') : Sound p' := by
  have htracked := hp.toTracked.step h
  have hsame (task : Server.Task) (program : Handler Unit) (hhandles : p.Handles task program) :
      ResumesLast program ∧ ∃ program', p.Handles task program' :=
    ⟨hp.resumesLast task program hhandles, program, hhandles⟩
  -- The steps of the loop, of a worker that takes a task and of a handler have their own lemmas.
  cases step_cases h with
  | setLockdown | terminate =>
    exact hp.of_untouched htracked (.refl _)
      (fun task program hhandles => hsame task program (hhandles.of_eq rfl rfl))
      (fun _ => le_rfl) fun _ => le_rfl
  | loop hserver => exact hp.loop htracked hok hserver
  | take htasks => exact hp.take htasks htracked
  -- A worker whose handler has ended has nothing left that could resume a connection.
  | @done w env taken =>
    refine hp.of_untouched htracked (.refl _) (fun task program hhandles => ?_) (fun conn => ?_)
      fun conn => ?_
    · exact hsame task program ((handles_setWorker hhandles).resolve_left (by simp))
    · have hset := tokens_setWorker p w none conn
      simp only [liveFor] at hset
      omega
    · have hset := atWork_setWorker p w none conn
      simp only [runningFor] at hset
      omega
  | call hworker hanswer => exact hp.call hworker hanswer htracked
  | pass hpass =>
    have hspec := passStep_spec hpass
    obtain ⟨huntouched, htokens⟩ := passStep_server hpass
    refine hp.of_untouched htracked huntouched (fun task program hhandles =>
      hsame task program (hhandles.of_eq hspec.workers hspec.tasks)) (fun conn => ?_) fun conn => ?_
    · rw [Process.tokens, Process.tokens, hspec.workers, htokens]
    · rw [Process.atWork, Process.atWork, hspec.workers, Server.queuedFor, Server.queuedFor,
        hspec.tasks]

/-- The process in front of the server loop. -/
theorem Sound.start {m_server_fd : ℤ} (hpos : 0 ≤ m_server_fd) (service : Service) :
    Sound (.start m_server_fd service) where
  toTracked := .start hpos service
  resumesLast task program hhandles := by
    cases hhandles with
    | queued htask => cases htask
    | running hworker => cases hworker
  tokens conn := by
    have hlive : ∑ w, liveFor conn ((Process.start m_server_fd service).workers w) = 0 :=
      Finset.sum_eq_zero fun _ _ => rfl
    rw [Process.tokens, hlive]
    -- the listening socket is polled for no connection
    simp [Server.tokens, Server.queuedFor, Server.resumesFor, Server.unapplied, Server.polledFor,
      Process.start, Server.listening]
  atWork conn := by
    have hidle : ∑ w, runningFor conn ((Process.start m_server_fd service).workers w) = 0 :=
      Finset.sum_eq_zero fun _ _ => rfl
    rw [Process.atWork, hidle]
    exact Nat.zero_le _
  last task program hhandles := by
    cases hhandles with
    | queued htask => cases htask
    | running hworker => cases hworker

end Step

end Process

/-- In every run in which the server loop resumes no connection through a stale action, and receives
from none whose handler is past its last call but has not ended, every open connection has at most
one task that is queued or running, which is for what it sent last. -/
theorem oneHandler_of_orderly {m_server_fd : ℤ} (hpos : 0 ≤ m_server_fd) (service : Service)
    {p : Process} (h : (processSystem m_server_fd service).ReachableUnder Process.Orderly p) :
    p.OneHandler := by
  have hsound : Process.Sound p := by
    refine h.invariant ?_ fun _ _ _ hp hok hstep => hp.step hok hstep
    rintro p rfl
    exact .start hpos service
  exact ⟨fun _ conn _ => hsound.atWork conn, fun task program h _ => hsound.last task program h⟩

/-! ## A stale action -/

namespace Process

/-- No action is applied to another connection, and the loop receives while all workers are
idle. -/
def resumesOwn (p : Process) : Label → Bool
  | .loop _ =>
    match p.server.phase with
    | .actions (action :: _) => p.server.sockets action.fd == some action.conn
    | .receiving _ => (List.finRange _).all fun w => (p.workers w).isNone
    | _ => true
  | _ => true

theorem orderly_of_resumesOwn {p : Process} {l : Label} (h : p.resumesOwn l = true) :
    p.Orderly l := by
  cases l with
  | loop env =>
    refine ⟨fun action rest hphase _ conn hopen => ?_,
      fun i pfd conn hphase _ _ _ _ w task hw => ?_⟩
    · simp only [resumesOwn, hphase, beq_iff_eq] at h
      rw [h] at hopen
      exact .inl (Option.some.inj hopen).symm
    · simp only [resumesOwn, hphase, List.all_eq_true, Option.isNone_iff_eq_none] at h
      rw [h w (List.mem_finRange w)] at hw
      cases hw
  | _ => trivial

/-- The handler of the client on `5` resumes the polling of `5` when this is another client
already. -/
def staleResumeRun : List Label :=
  -- the client asks for an upgrade and is registered
  acceptFirst 3 5 ++ receiveFirst 5 upgradeRequest ++ work 5 ++
    -- a broadcast fails to reach it and has it closed
    List.replicate 5 (.pass [] none) ++ [idle] ++
    -- the next client gets its number and sends a request
    acceptFirst 3 5 ++ receiveFirst 5 optionsRequest ++
    -- the first handler makes its last call, and the second client sends another request
    work 1 ++ [idle] ++ receiveFirst 5 optionsRequest

end Process

open Process

/-- A client has upgraded, its polling is enabled again, and a worker is at its next frame. -/
theorem oneHandler_frameRun :
    ∃ p : Process, p.server.sockets 5 = some 0 ∧ p.atWork 0 = 1 ∧ p.OneHandler := by
  have hrun : (((processSystem 3 emptyService).restrict (resumesOwn · ·)).runFrom
      (.start 3 emptyService) frameRun).any
      (fun p => p.server.sockets 5 == some 0 && p.atWork 0 == 1) = true := by
    decide +kernel
  obtain ⟨p, hp, hend⟩ := StepSystem.exists_reachable_of_any rfl hrun
  simp only [Bool.and_eq_true, beq_iff_eq] at hend
  refine ⟨p, hend.1, hend.2, ?_⟩
  exact oneHandler_of_orderly (by decide) emptyService
    ((StepSystem.Reachable.of_restrict hp).mono fun _ _ => orderly_of_resumesOwn)

/-- A stale `ENABLE_POLLING` lets a second task of a connection into the queue. -/
theorem not_oneHandler_staleResumeRun :
    ¬ ∀ (m_server_fd : ℤ) (service : Service) (p : Process), 0 ≤ m_server_fd →
      (processSystem m_server_fd service).Reachable p → p.OneHandler := by
  intro h
  have hrun : ((processSystem 3 emptyService).runFrom (.start 3 emptyService) staleResumeRun).any
      (fun p => p.server.sockets 5 == some 1 && p.server.queuedFor 1 == 2) = true := by
    decide +kernel
  obtain ⟨p, hp, hend⟩ := StepSystem.exists_reachable_of_any rfl hrun
  simp only [Bool.and_eq_true, beq_iff_eq] at hend
  obtain ⟨hopen, hqueued⟩ := hend
  have hone := (h 3 emptyService p (by decide) hp).atWork 5 1 hopen
  rw [Process.atWork, hqueued] at hone
  omega

end Main
