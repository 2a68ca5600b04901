import Akkon.Main.Interference
import Akkon.Main.PollSet
import Akkon.ToMathlib.StrongFairness

/-!
# Every request is handled

What the process does in the long run, when its threads are scheduled fairly. A worker may have to
wait for `ws_mutex` and for `m_action_mutex`, and so may a loop over `ws_clients`, which holds
`ws_mutex` while it waits; none of them waits for ever. This is about a server without debug mode:
in debug mode the server loop logs under `m_action_mutex`, and can wait for `ws_mutex` there.

* `Process.Thread`, `Process.Fair`, `Process.GoesOn`: the threads, runs in which none of them is
  passed over for ever, and runs that go on;
* `Server.wait`: how many steps of the server loop an action is away from being applied;
* `Process.leadsTo_ready`: the mutex that a handler waits for is free again and again;
* `Process.leadsTo_free`: a handler ends, and before its end it releases its connection;
* `served_of_fair`: what is received is handled to its end by a worker, which releases the
  connection, and afterwards the connection is closed or polled again.
-/

namespace Server

open Cpp Security

variable {s s' : Server} {lockdown : LockdownState} {env : LoopEnv}

/-! ## The server loop -/

/-- How many steps of the loop it is at most to the lock of `m_action_mutex`. -/
def toLocking (s : Server) : ℕ :=
  match s.phase with
  | .disconnecting i => 1 + (s.m_fds.length - i)
  | .top => s.m_fds.length + 2
  | .receiving i => s.m_fds.length + 3 + (s.m_fds.length - i)
  | .accepting => 2 * s.m_fds.length + 5
  | .polling => 2 * s.m_fds.length + 6
  | _ => 0

/-- The loop is before the lock of `m_action_mutex`, and not under it. -/
def BeforeLock (s : Server) : Prop :=
  (∀ rest, s.phase ≠ .actions rest) ∧ s.phase ≠ .locking ∧ s.phase ≠ .stopped

/-- The loop comes closer to the lock. -/
theorem toLocking_lt (hbefore : s.BeforeLock) (h : s.loopStep lockdown env = some s') :
    s'.toLocking < s.toLocking := by
  have herase (s : Server) : s.eraseMarked.m_fds.length ≤ s.m_fds.length :=
    List.length_filter_le _ _
  obtain ⟨hactions, hlocking, hstopped⟩ := hbefore
  cases loopStep_cases h with
  | disconnectAll hphase _ =>
    simp only [toLocking, hphase]
    omega
  | top hphase _ =>
    simp only [toLocking, hphase]
    omega
  | @disconnect i pfd hphase hpfd =>
    have hlt := (List.getElem?_eq_some_iff.mp hpfd).1
    simp only [toLocking, hphase, closeSocket, record]
    omega
  | resize hphase _ =>
    simp only [toLocking, hphase]
    omega
  | lock hphase => exact absurd hphase hlocking
  | action hphase => exact absurd hphase (hactions _)
  | unlock hphase => exact absurd hphase (hactions _)
  | pollFailed hphase _ =>
    simp only [toLocking, hphase]
    omega
  | pollTimeout hphase _ =>
    simp only [toLocking, hphase, setRevents, List.length_map]
    omega
  | pollReady hphase _ =>
    simp only [toLocking, hphase, setRevents, List.length_map]
    omega
  | noClient hphase _ =>
    simp only [toLocking, hphase]
    omega
  | accept hphase _ _ =>
    simp only [toLocking, hphase, addClient, record, List.length_append, List.length_singleton]
    omega
  | @receive i pfd hphase hpfd _ =>
    have hlt := (List.getElem?_eq_some_iff.mp hpfd).1
    have hlength : (s.receive i pfd env.data).m_fds.length = s.m_fds.length := by
      unfold Server.receive
      split
      · exact List.length_set
      · exact List.length_set
    simp only [toLocking, hphase, hlength]
    omega
  | @skip i pfd hphase hpfd _ =>
    have hlt := (List.getElem?_eq_some_iff.mp hpfd).1
    simp only [toLocking, hphase]
    omega
  | erase hphase _ =>
    have hle := herase s
    simp only [toLocking, hphase]
    omega

/-- A step of the loop keeps what is still to be applied, but for the action it applies. -/
theorem unapplied_loopStep (h : s.loopStep lockdown env = some s') :
    s'.unapplied = s.unapplied ∨
      ∃ action rest, s.phase = .actions (action :: rest) ∧
        s' = { s.applyAction action with phase := .actions rest } := by
  cases loopStep_cases h with
  | @action action rest hphase => exact .inr ⟨action, rest, hphase, rfl⟩
  | @receive i pfd hphase _ _ =>
    refine .inl ?_
    simp only [unapplied, hphase]
    unfold Server.receive
    split
    · rfl
    · rfl
  | disconnectAll hphase _ => exact .inl (by simp only [unapplied, hphase])
  | top hphase _ => exact .inl (by simp only [unapplied, hphase])
  | disconnect hphase _ => exact .inl (by simp only [unapplied, hphase]; rfl)
  | resize hphase _ => exact .inl (by simp only [unapplied, hphase])
  | lock hphase => exact .inl (by simp only [unapplied, hphase])
  | unlock hphase => exact .inl (by simp only [unapplied, hphase])
  | pollFailed hphase _ => exact .inl (by simp only [unapplied, hphase])
  | pollTimeout hphase _ => exact .inl (by simp only [unapplied, hphase]; rfl)
  | pollReady hphase _ => exact .inl (by simp only [unapplied, hphase]; rfl)
  | noClient hphase _ => exact .inl (by simp only [unapplied, hphase])
  | accept hphase _ _ => exact .inl (by simp only [unapplied, hphase]; rfl)
  | skip hphase _ _ => exact .inl (by simp only [unapplied, hphase])
  | erase hphase _ => exact .inl (by simp only [unapplied, hphase]; rfl)

/-- How many steps of the loop it is at most to the application of an action. -/
def wait (action : ClientAction) (s : Server) : ℕ :=
  s.unapplied.idxOf action +
    match s.phase with
    | .actions _ => 0
    | _ => s.toLocking + 1

/-- Under the lock the actions are applied one after the other, and before it the loop comes closer
to it. -/
theorem wait_lt (h : s.loopStep lockdown env = some s') {action : ClientAction}
    (hmem : action ∈ s.unapplied) (hstopped : s.phase ≠ .stopped) :
    (action ∈ s'.unapplied ∧ s'.wait action < s.wait action) ∨
      ∃ rest, s' = { s.applyAction action with phase := .actions rest } := by
  rcases unapplied_loopStep h with hsame | ⟨other, rest, hphase, rfl⟩
  · refine .inl ⟨hsame ▸ hmem, ?_⟩
    rw [wait, wait, hsame]
    refine Nat.add_lt_add_left ?_ _
    cases hphase : s.phase with
    | actions rest =>
      -- what is left under the lock is not empty, so the step would apply it
      rw [unapplied, hphase] at hmem
      simp only [unapplied, hphase] at hsame
      cases rest with
      | nil => cases hmem
      | cons other rest =>
        simp only [Server.loopStep, hphase, Option.some.injEq] at h
        subst h
        exact absurd (congrArg List.length hsame) (by simp)
    | locking =>
      simp only [Server.loopStep, hphase, Option.some.injEq] at h
      subst h
      exact Nat.succ_pos _
    | stopped => exact absurd hphase hstopped
    | _ =>
      have hlt := toLocking_lt ⟨by simp [hphase], by simp [hphase], by simp [hphase]⟩ h
      split
      · omega
      · omega
  · by_cases heq : other = action
    · exact .inr ⟨rest, by rw [heq]⟩
    · have hrest : action ∈ rest := by
        simp only [unapplied, hphase] at hmem
        exact (List.mem_cons.mp hmem).resolve_left (Ne.symm heq)
      refine .inl ⟨hrest, ?_⟩
      simp only [wait, unapplied, hphase, List.idxOf_cons_ne _ heq]
      omega

/-- The loop can take a step as long as it is not left. -/
theorem loopStep_isSome (lockdown : LockdownState) (hstopped : s.phase ≠ .stopped) :
    (s.loopStep lockdown ⟨.timeout, none, []⟩).isSome := by
  cases hphase : s.phase with
  | disconnecting i => cases hpfd : s.m_fds[i]? <;> simp [Server.loopStep, hphase, hpfd]
  | actions rest => cases rest <;> simp [Server.loopStep, hphase]
  | accepting => cases hready : s.listenerReady <;> simp [Server.loopStep, hphase, hready]
  | receiving i =>
    cases hpfd : s.m_fds[i]? with
    | none => simp [Server.loopStep, hphase, hpfd]
    | some pfd => cases hrevents : pfd.revents <;> simp [Server.loopStep, hphase, hpfd, hrevents]
  | stopped => exact absurd hphase hstopped
  | _ => simp [Server.loopStep, hphase]

/-- The connection has been closed, or its entry is polled. -/
def Settled (s : Server) (fd : ℤ) (conn : ℕ) : Prop :=
  s.sockets fd = some conn → ∃ pfd ∈ s.m_fds, pfd.fd = fd ∧ pfd.events = true

/-- An action that is applied settles the connection behind its fd number. -/
theorem settled_applyAction (hinv : PollInv s) (action : ClientAction) (conn : ℕ) :
    (s.applyAction action).Settled action.fd conn := by
  obtain ⟨new, heq, -⟩ := applyAction_eq action s
  rw [Settled, heq]
  dsimp only
  intro hopen
  by_cases hclose : action.type = .CLOSE_CLIENT ∧ action.fd ∈ s.m_fds.map PollFd.fd
  · rw [if_pos hclose, Function.update_self] at hopen
    cases hopen
  · rw [if_neg hclose] at hopen
    -- an open socket has an entry
    have hsome : (s.sockets action.fd).isSome := by rw [hopen]; rfl
    have hmem : action.fd ∈ s.m_fds.map PollFd.fd :=
      List.mem_of_mem_drop ((hinv.tracks.opened action.fd).mp hsome).2
    obtain ⟨pfd, hpfd, hfd⟩ := List.mem_map.mp hmem
    have htype : action.type = .ENABLE_POLLING := by
      cases htype : action.type with
      | CLOSE_CLIENT => exact absurd ⟨htype, hmem⟩ hclose
      | ENABLE_POLLING => rfl
    refine ⟨action.applyTo pfd, List.mem_map_of_mem hpfd, ?_⟩
    simp only [ClientAction.applyTo, hfd, if_true, htype]
    exact ⟨trivial, trivial⟩

end Server

namespace Main

open Cpp Security Handler

namespace Process

variable {p q : Process} {l : Label} {w : Fin Server.threadPoolSize} {task : Server.Task}

/-! ## The other threads -/

/-- What the other threads do to the server: they leave alone what its loop keeps, and add to the
actions. -/
structure Beside (s s' : Server) : Prop where
  untouched : Server.Untouched s s'
  unapplied : s.unapplied <+: s'.unapplied

theorem Beside.of_eq {s s' : Server} (h : Server.Untouched s s')
    (hactions : s'.m_pending_actions = s.m_pending_actions) : Beside s s' :=
  ⟨h, by rw [Server.unapplied, Server.unapplied, h.phase, hactions]⟩

theorem Beside.refl (s : Server) : Beside s s := .of_eq (.refl s) rfl

theorem Beside.of_push {s s' : Server} {action : Server.ClientAction}
    (h : s.pushAction action = some s') : Beside s s' :=
  ⟨Server.untouched_pushAction h, Server.unapplied_pushAction h ▸ List.prefix_append _ _⟩

theorem Beside.of_sendData (s : Server) (author : Server.Author) (fd : ℤ) (data : Bytes)
    (taken : Option ℕ) : Beside s (s.sendData author fd data taken).2 := by
  obtain ⟨new, hnew, -⟩ := sendData_eq s author fd data taken
  exact .of_eq (Server.untouched_sendData s author fd data taken) (by rw [hnew])

theorem answer_beside {env : HandlerEnv} {taken : Option ℕ} {o : HandlerOp} {r : o.Res}
    (h : p.answer task env taken o = some (r, q)) : Beside p.server q.server := by
  have huntouched := (answer_called h).untouched
  cases o with
  | sendData data =>
    cases h
    exact .of_sendData _ _ _ _ _
  | closeClient =>
    obtain ⟨server, hclose, heq⟩ := Option.map_eq_some_iff.mp h
    cases heq
    exact .of_push hclose
  | enablePolling =>
    obtain ⟨server, henable, heq⟩ := Option.map_eq_some_iff.mp h
    cases heq
    exact .of_push henable
  | isWsClient =>
    simp only [answer] at h
    split at h
    · cases h
    · cases h
      exact .of_eq huntouched rfl
  | insertWsClient =>
    simp only [answer] at h
    split at h
    · cases h
    · cases h
      exact .refl _
  | getLockdownState =>
    cases h
    exact .refl _
  | throw fault => cases h
  | _ =>
    obtain ⟨service, rfl⟩ := @serviceOp_eq p q env _ r h
    exact .refl _

/-- A step is one of the server loop, or one beside it. -/
theorem step_beside (h : p.step l = some q) :
    (∃ env, l = .loop env ∧ p.server.loopStep p.lockdown env = some q.server ∧
      q = { p with server := q.server }) ∨ Beside p.server q.server := by
  cases step_cases h with
  | setLockdown => exact .inr (.refl _)
  | loop hserver => exact .inl ⟨_, rfl, hserver, rfl⟩
  | take _ => exact .inr (.of_eq ⟨rfl, rfl, rfl, rfl, rfl, [], rfl, by simp⟩ rfl)
  | done => exact .inr (.refl _)
  | terminate => exact .inr (.refl _)
  | call _ hanswer =>
    have hbeside := answer_beside hanswer
    exact .inr hbeside
  | pass hpass =>
    refine .inr ?_
    rcases passStep_cases hpass with ⟨-, rfl⟩ | ⟨frame, -, rfl⟩ |
      ⟨frame, fd, rest, phase, -, -, rfl⟩ | ⟨frame, rest, fd, server, -, hclose, rfl⟩ |
      ⟨frame, rest, fd, -, rfl⟩
    · exact .refl _
    · exact .refl _
    · exact .of_sendData _ _ _ _ _
    · exact .of_push hclose
    · exact .refl _

/-- Nothing but the first task is taken from the queue, and it is taken to be handled. -/
theorem step_tasks (hready : p.server.ReadyPolled) (h : p.step l = some q) :
    (p.server.m_tasks <+: q.server.m_tasks ∧ ∀ w, p.workers w = none → q.workers w = none) ∨
      ∃ w task, p.server.m_tasks = task :: q.server.m_tasks ∧
        q.workers w = some ⟨task, dataHandler task.data⟩ := by
  cases step_cases h with
  | setLockdown => exact .inl ⟨List.prefix_refl _, fun _ => id⟩
  | loop hserver =>
    refine .inl ⟨?_, fun _ => id⟩
    rcases Server.loopStep_tasks hready hserver with ⟨hsame, -⟩ | ⟨_, _, _, _, -, -, -, hreceives⟩
    · exact hsame ▸ List.prefix_refl _
    · exact hreceives.tasks ▸ List.prefix_append _ _
  | @take w env taken task m_tasks htasks =>
    exact .inr ⟨w, task, htasks, Function.update_self _ _ _⟩
  | @done w =>
    refine .inl ⟨List.prefix_refl _, fun w' hw' => ?_⟩
    simp only [setWorker, Function.update_apply]
    split
    · rfl
    · exact hw'
  | terminate => exact .inl ⟨List.prefix_refl _, fun _ => id⟩
  | @call w _ _ _ _ _ _ _ hworker hanswer =>
    have hspec := answer_spec hanswer
    refine .inl ⟨hspec.tasks ▸ List.prefix_refl _, fun w' hw' => ?_⟩
    have hne : w' ≠ w := by
      rintro rfl
      rw [hworker] at hw'
      cases hw'
    exact (Function.update_of_ne hne _ _).trans ((congrFun hspec.workers w').trans hw')
  | pass hpass =>
    have hspec := passStep_spec hpass
    exact .inl ⟨hspec.tasks ▸ List.prefix_refl _, fun w' hw' => hspec.workers ▸ hw'⟩

/-! ## Fair runs -/

/-- The threads: the server loop, the workers of the pool, and the thread that goes through
`ws_clients`. -/
inductive Thread
  | loop
  | worker (w : Fin Server.threadPoolSize)
  | pass

/-- The thread that takes a step. -/
def thread : Label → Option Thread
  | .setLockdown _ => none
  | .loop _ => some .loop
  | .worker w _ _ => some (.worker w)
  | .pass _ _ => some .pass

section Runs

variable {m_server_fd : ℤ} {service : Service} {run : (processSystem m_server_fd service).Run}

/-- A thread that could go on again and again does so: none is passed over for ever, neither by the
scheduler nor by a mutex it waits for. -/
def Fair (run : (processSystem m_server_fd service).Run) : Prop := ∀ t, run.StronglyFair thread t

/-- The server goes on: no exception leaves a thread, and `poll` does not fail. -/
structure GoesOn (run : (processSystem m_server_fd service).Run) : Prop where
  terminated : ∀ t, (run.state t).terminated = false
  stopped : ∀ t, (run.state t).server.phase ≠ .stopped

/-- The rule for what the server loop does in the end: its steps come closer to it, and the other
threads keep the distance. -/
theorem leadsTo_of_loop (hfair : Fair run) (hgoes : GoesOn run) {P Q : Process → Prop}
    (measure : Process → ℕ)
    (hloop : ∀ (p : Process) server env, (processSystem m_server_fd service).Reachable p → P p →
      p.server.loopStep p.lockdown env = some server →
      (P { p with server } ∧ measure { p with server } < measure p) ∨ Q { p with server })
    (hother : ∀ p q : Process, P p → Beside p.server q.server → P q ∧ measure q = measure p) :
    run.LeadsTo P Q := by
  refine StepSystem.Run.leadsTo_of_measure measure fun d =>
    StepSystem.Run.leadsTo_of_recurring (hfair .loop) ?_ ?_ ?_
  · rintro t -
    refine ⟨t, le_rfl, .inl ⟨.loop ⟨.timeout, none, []⟩, rfl, ?_⟩⟩
    have hloop := Server.loopStep_isSome (run.state t).lockdown (hgoes.stopped t)
    change ((run.state t).step (.loop ⟨.timeout, none, []⟩)).isSome
    rw [step, hgoes.terminated t, if_neg (by decide), Option.isSome_map]
    exact hloop
  · rintro p l q hreach ⟨hP, rfl⟩ hstep
    rcases step_beside hstep with ⟨env, -, hserver, heq⟩ | hbeside
    · exact .inr (heq ▸ hloop p _ env hreach hP hserver)
    · exact .inl (hother p q hP hbeside)
  · rintro p l q hreach ⟨hP, rfl⟩ hstep hthread
    cases step_cases hstep with
    | loop hserver => exact hloop p _ _ hreach hP hserver
    | _ => cases hthread

/-- The actions that are still ahead under the lock. -/
def underLock (s : Server) : ℕ :=
  match s.phase with
  | .actions rest => rest.length
  | _ => 0

/-- `m_action_mutex` is free again and again. -/
theorem leadsTo_unlocked (hfair : Fair run) (hgoes : GoesOn run) :
    run.LeadsTo (fun _ => True) fun p => p.server.actionsLocked = false := by
  have hlocked : run.LeadsTo (fun p => p.server.actionsLocked = true)
      fun p => p.server.actionsLocked = false := by
    refine leadsTo_of_loop hfair hgoes (fun p => underLock p.server) ?_ ?_
    · intro p server env _ hlocked hserver
      cases Server.loopStep_cases hserver with
      | action hphase => exact .inl ⟨rfl, by simp [underLock, hphase]⟩
      | unlock hphase => exact .inr rfl
      | _ => simp_all [Server.actionsLocked]
    · intro p q hlocked hbeside
      have hphase := hbeside.untouched.phase
      exact ⟨by rwa [Server.actionsLocked, hphase], by rw [underLock, underLock, hphase]⟩
  intro t _
  cases h : (run.state t).server.actionsLocked with
  | false => exact ⟨t, le_rfl, h⟩
  | true => exact hlocked t h

/-- An action that is pushed is applied in the end. -/
theorem leadsTo_settled (hpos : 0 ≤ m_server_fd) (hfair : Fair run) (hgoes : GoesOn run)
    (action : Server.ClientAction) (conn : ℕ) :
    run.LeadsTo (fun p => action ∈ p.server.unapplied)
      fun p => p.server.Settled action.fd conn := by
  refine leadsTo_of_loop hfair hgoes (fun p => p.server.wait action) ?_ ?_
  · intro p server env hreach hmem hserver
    have hinv : Server.PollInv p.server := by
      have htracked : Tracked p := hreach.invariant (fun _ hs => hs ▸ .start hpos service)
        fun _ _ _ hp _ hstep => hp.step hstep
      exact htracked.poll
    have hstopped : p.server.phase ≠ .stopped := by
      intro hphase
      simp [Server.loopStep, hphase] at hserver
    refine (Server.wait_lt hserver hmem hstopped).imp_right ?_
    rintro ⟨rest, rfl⟩
    exact Server.settled_applyAction hinv action conn
  · intro p q hmem hbeside
    obtain ⟨new, hnew⟩ := hbeside.unapplied
    refine ⟨hnew ▸ List.mem_append_left new hmem, ?_⟩
    simp only [Server.wait, Server.toLocking, hbeside.untouched.phase, hbeside.untouched.m_fds,
      ← hnew, List.idxOf_append_of_mem hmem]

/-! ## The loop over `ws_clients` -/

/-- How many steps the loop over `ws_clients` still has to take. -/
def passLength : Option Pass → ℕ
  | none => 0
  | some ⟨_, rest, .sending⟩ => 3 * rest.length + 1
  | some ⟨_, rest, .erasing _⟩ => 3 * rest.length + 2
  | some ⟨_, rest, .closing _⟩ => 3 * rest.length + 3

/-- Only the loop itself goes on. -/
theorem step_pass (h : p.step l = some q) : q.pass = p.pass ∨
    ∃ payload taken, l = .pass payload taken ∧ p.passStep payload taken = some q := by
  cases step_cases h with
  | call _ hanswer => exact .inl (answer_spec hanswer).pass
  | pass hpass => exact .inr ⟨_, _, rfl, hpass⟩
  | _ => exact .inl rfl

theorem passLength_lt {payload : Bytes} {taken : Option ℕ} (hne : p.pass ≠ none)
    (h : p.passStep payload taken = some q) : passLength q.pass < passLength p.pass := by
  rcases passStep_cases h with ⟨hpass, -⟩ | ⟨frame, hpass, rfl⟩ |
    ⟨frame, fd, rest, phase, hpass, rfl | rfl, rfl⟩ | ⟨frame, rest, fd, server, hpass, -, rfl⟩ |
    ⟨frame, rest, fd, hpass, rfl⟩
  · exact absurd hpass hne
  all_goals
    simp only [hpass, passLength, List.length_cons]
    omega

/-- Where `m_action_mutex` is free, the loop can go on. -/
theorem passStep_isSome (hunlocked : p.server.actionsLocked = false) :
    (p.passStep [] none).isSome := by
  unfold passStep
  split
  · rfl
  · rfl
  · rfl
  · rw [Option.isSome_map, Server.closeClient, Server.pushAction, hunlocked]
    rfl
  · rfl

/-- `ws_mutex` is free again and again. -/
theorem leadsTo_passed (hfair : Fair run) (hgoes : GoesOn run) :
    run.LeadsTo (fun _ => True) fun p => p.pass = none := by
  have hpass : run.LeadsTo (fun p => p.pass ≠ none) fun p => p.pass = none := by
    refine StepSystem.Run.leadsTo_of_measure (fun p => passLength p.pass) fun d => ?_
    have hstep (p : Process) (l : Label) (q : Process) (hne : p.pass ≠ none)
        (hpass : ∃ payload taken, l = .pass payload taken ∧ p.passStep payload taken = some q) :
        (q.pass ≠ none ∧ passLength q.pass < passLength p.pass) ∨ q.pass = none := by
      obtain ⟨_, _, -, hpass⟩ := hpass
      by_cases hq : q.pass = none
      · exact .inr hq
      · exact .inl ⟨hq, passLength_lt hne hpass⟩
    have hkeep (p : Process) (l : Label) (q : Process)
        (_ : (processSystem m_server_fd service).Reachable p)
        (hp : p.pass ≠ none ∧ passLength p.pass = d) (h : p.step l = some q) :
        (q.pass ≠ none ∧ passLength q.pass = d) ∨
          (q.pass ≠ none ∧ passLength q.pass < d) ∨ q.pass = none := by
      obtain ⟨hne, rfl⟩ := hp
      rcases step_pass h with hsame | hpass
      · rw [hsame]
        exact .inl ⟨hne, rfl⟩
      · exact .inr (hstep p l q hne hpass)
    refine StepSystem.Run.leadsTo_of_recurring (hfair .pass) (fun t hP => ?_) hkeep ?_
    · -- the loop may have to wait for `m_action_mutex`
      have hfree : run.LeadsTo (fun p => p.pass ≠ none ∧ passLength p.pass = d)
          fun p => p.server.actionsLocked = false :=
        fun t _ => leadsTo_unlocked hfair hgoes t trivial
      obtain ⟨u, htu, hu⟩ := hfree.keeping hkeep t hP
      refine ⟨u, htu, hu.imp_left fun hfree => ⟨.pass [] none, rfl, ?_⟩⟩
      have hsome := passStep_isSome hfree.2
      change ((run.state u).step (.pass [] none)).isSome
      rw [step, hgoes.terminated u, if_neg (by decide)]
      exact hsome
    · rintro p l q - ⟨hne, rfl⟩ h hthread
      refine hstep p l q hne ?_
      cases step_cases h with
      | pass hpass => exact ⟨_, _, rfl, hpass⟩
      | _ => cases hthread
  intro t _
  by_cases h : (run.state t).pass = none
  · exact ⟨t, le_rfl, h⟩
  · exact hpass t h

/-! ## Handlers -/

/-- The mutex that an operation waits for is free. -/
def Ready (p : Process) : HandlerOp → Prop
  | .isWsClient | .insertWsClient => p.pass = none
  | .closeClient | .enablePolling => p.server.actionsLocked = false
  | _ => True

theorem leadsTo_ready (hfair : Fair run) (hgoes : GoesOn run) (o : HandlerOp) :
    run.LeadsTo (fun _ => True) fun p => p.Ready o := by
  cases o with
  | isWsClient => exact leadsTo_passed hfair hgoes
  | insertWsClient => exact leadsTo_passed hfair hgoes
  | closeClient => exact leadsTo_unlocked hfair hgoes
  | enablePolling => exact leadsTo_unlocked hfair hgoes
  | _ => exact .refl

theorem answer_isSome (task : Server.Task) {o : HandlerOp} (hready : p.Ready o)
    (hthrow : ∀ fault, o ≠ .throw fault) (env : HandlerEnv) :
    (p.answer task env none o).isSome := by
  have hpush (action : Server.ClientAction) (hready : p.server.actionsLocked = false) :
      (p.server.pushAction action).isSome := by
    rw [Server.pushAction, hready]
    rfl
  cases o with
  | isWsClient =>
    simp only [Ready] at hready
    simp [answer, hready]
  | insertWsClient =>
    simp only [Ready] at hready
    simp [answer, hready]
  | closeClient =>
    rw [answer, Option.isSome_map]
    exact hpush _ hready
  | enablePolling =>
    rw [answer, Option.isSome_map]
    exact hpush _ hready
  | query item =>
    rw [answer, serviceOp, handlerOp_query]
    rfl
  | insertIndex item =>
    rw [answer, serviceOp, handlerOp_insertIndex]
    rfl
  | throw fault => exact absurd rfl (hthrow fault)
  | _ => rfl

/-- A handler goes on by a step of its worker only. -/
theorem workers_of_thread_ne (h : p.step l = some q) (hne : thread l ≠ some (.worker w)) :
    q.workers w = p.workers w := by
  have hother {w' : Fin Server.threadPoolSize} {env : HandlerEnv} {taken : Option ℕ}
      (hne : thread (.worker w' env taken) ≠ some (.worker w)) (p' : Process)
      (running : Option Running) : (p'.setWorker w' running).workers w = p'.workers w :=
    Function.update_of_ne (fun heq => hne (by rw [heq]; rfl)) _ _
  cases step_cases h with
  | take _ => exact hother hne _ _
  | done => exact hother hne _ _
  | call _ hanswer => exact (hother hne _ _).trans (congrFun (answer_spec hanswer).workers w)
  | pass hpass => exact congrFun (passStep_spec hpass).workers w
  | _ => rfl

/-- The step of a worker that is at a call. -/
theorem step_of_op {env : HandlerEnv} {taken : Option ℕ} {o : HandlerOp}
    {k : o.Res → Handler Unit} (h : p.step (.worker w env taken) = some q)
    (hw : p.workers w = some ⟨task, .op o k⟩) : q.terminated = true ∨
      ∃ r q', p.answer task env taken o = some (r, q') ∧ q = q'.setWorker w (some ⟨task, k r⟩) := by
  unfold step at h
  split at h
  · cases h
  by_cases hthrow : ∃ fault, o = .throw fault
  · obtain ⟨fault, rfl⟩ := hthrow
    simp only [workerStep, hw, Option.some.injEq] at h
    exact .inl (h ▸ rfl)
  · have hcall : p.workerStep w env taken = (p.answer task env taken o).map fun r =>
        r.2.setWorker w (some ⟨task, k r.1⟩) := by
      simp only [workerStep, hw]
      cases o with
      | throw fault => exact absurd ⟨fault, rfl⟩ hthrow
      | _ => rfl
    obtain ⟨⟨r, q'⟩, hanswer, rfl⟩ := Option.map_eq_some_iff.mp (hcall.symm.trans h)
    exact .inr ⟨r, q', hanswer, rfl⟩

/-- The operations that release a connection. -/
def Releases (o : HandlerOp) : Prop := o = .closeClient ∨ o = .enablePolling

/-- An action for the connection of a task is to be applied. -/
def Released (p : Process) (task : Server.Task) : Prop :=
  ∃ action ∈ p.server.unapplied, action.fd = task.fd ∧ action.conn = task.conn

theorem released_answer {env : HandlerEnv} {taken : Option ℕ} {o : HandlerOp} {r : o.Res}
    (ho : Releases o) (h : p.answer task env taken o = some (r, q)) : q.Released task := by
  obtain ⟨type, server, hpush, rfl⟩ : ∃ type server,
      p.server.pushAction ⟨task.fd, type, task.conn⟩ = some server ∧ q = { p with server } := by
    rcases ho with rfl | rfl
    all_goals
      obtain ⟨server, hpush, heq⟩ := Option.map_eq_some_iff.mp h
      cases heq
      exact ⟨_, server, hpush, rfl⟩
  refine ⟨⟨task.fd, type, task.conn⟩, ?_, rfl, rfl⟩
  rw [Server.unapplied_pushAction hpush]
  exact List.mem_append_right _ (List.mem_singleton_self _)

/-- A call of a handler is answered in the end. -/
theorem leadsTo_answered (hfair : Fair run) (hgoes : GoesOn run) (w : Fin Server.threadPoolSize)
    (task : Server.Task) (o : HandlerOp) (k : o.Res → Handler Unit) :
    run.LeadsTo (fun p => p.workers w = some ⟨task, .op o k⟩) fun p =>
      (∃ r, p.workers w = some ⟨task, k r⟩ ∧ (Releases o → p.Released task)) ∨
        p.terminated = true := by
  have hown {p q : Process} {env : HandlerEnv} {taken : Option ℕ}
      (hw : p.workers w = some ⟨task, .op o k⟩) (h : p.step (.worker w env taken) = some q) :
      (∃ r, q.workers w = some ⟨task, k r⟩ ∧ (Releases o → q.Released task)) ∨
        q.terminated = true := by
    rcases step_of_op h hw with hterminated | ⟨r, q', hanswer, rfl⟩
    · exact .inr hterminated
    · refine .inl ⟨r, Function.update_self _ _ _, fun ho => ?_⟩
      have hreleased := released_answer ho hanswer
      exact hreleased
  have hkeep (p : Process) (l : Label) (q : Process)
      (_ : (processSystem m_server_fd service).Reachable p)
      (hw : p.workers w = some ⟨task, .op o k⟩) (h : p.step l = some q) :
      q.workers w = some ⟨task, .op o k⟩ ∨
        (∃ r, q.workers w = some ⟨task, k r⟩ ∧ (Releases o → q.Released task)) ∨
          q.terminated = true := by
    by_cases hthread : thread l = some (.worker w)
    · cases l with
      | worker w' env taken =>
        cases hthread
        exact .inr (hown hw h)
      | _ => cases hthread
    · exact .inl ((workers_of_thread_ne h hthread).trans hw)
  refine StepSystem.Run.leadsTo_of_recurring (hfair (.worker w)) (fun t hw => ?_) hkeep ?_
  · -- the mutex is free at some time, and until then the handler stays at its call
    have hready : run.LeadsTo (fun p => p.workers w = some ⟨task, .op o k⟩) fun p => p.Ready o :=
      fun t _ => leadsTo_ready hfair hgoes o t trivial
    obtain ⟨u, htu, hu⟩ := hready.keeping hkeep t hw
    refine ⟨u, htu, hu.imp_left fun ⟨hw, hready⟩ => ?_⟩
    refine ⟨.worker w (quietEnv (dbFileSystem [])) none, rfl, ?_⟩
    change ((run.state u).step (.worker w (quietEnv (dbFileSystem [])) none)).isSome
    rw [step, hgoes.terminated u, if_neg (by decide)]
    by_cases hthrow : ∃ fault, o = .throw fault
    · obtain ⟨fault, rfl⟩ := hthrow
      simp only [workerStep, hw]
      rfl
    · have hsome := answer_isSome task hready (fun fault heq => hthrow ⟨fault, heq⟩)
        (quietEnv (dbFileSystem []))
      simp only [workerStep, hw]
      cases o with
      | throw fault => exact absurd ⟨fault, rfl⟩ hthrow
      | _ => rwa [Option.isSome_map]
  · rintro p l q - hw h hthread
    cases l with
    | worker w' env taken =>
      cases hthread
      exact hown hw h
    | _ => cases hthread

/-- Every path through the handler releases its connection. -/
theorem reaches_dataHandler (request : Bytes) : (dataHandler request).Reaches Releases := by
  have hcloses {P : HandlerOp → Prop} {program : Handler Unit} (h : ClosesLast P program) :
      program.Reaches Releases :=
    h.reaches.mono fun _ => .inl
  refine .inr fun state => ?_
  change Prog.Reaches Releases (if state ≠ .NONE then _ else _)
  split
  · exact hcloses (closesLast_refuseInLockdown request)
  · refine .inr fun is_ws_client => ?_
    change Prog.Reaches Releases (if is_ws_client = true then _ else _)
    split
    · unfold webSocketBranch
      split
      · exact .inr nofun
      · exact .bind _ fun _ => .inl (.inr rfl)
    · rcases plainBranch_cases request with hplain | ⟨heq, -⟩
      · exact hcloses hplain
      · rw [heq]
        exact .bind _ fun _ => .inr fun _ => .inr fun _ => .inl (.inr rfl)

/-- A handler releases its connection. -/
theorem leadsTo_released (hfair : Fair run) (hgoes : GoesOn run) (w : Fin Server.threadPoolSize)
    (task : Server.Task) {program : Handler Unit} (hreaches : program.Reaches Releases) :
    run.LeadsTo (fun p => p.workers w = some ⟨task, program⟩) fun p => p.Released task := by
  induction program with
  | ret _ => exact hreaches.elim
  | op o k ih =>
    intro t hw
    obtain ⟨u, htu, ⟨r, hr, hreleased⟩ | hterminated⟩ :=
      leadsTo_answered hfair hgoes w task o k t hw
    · rcases hreaches with ho | hrest
      · exact ⟨u, htu, hreleased ho⟩
      · obtain ⟨v, huv, hv⟩ := ih r (hrest r) u hr
        exact ⟨v, htu.trans huv, hv⟩
    · rw [hgoes.terminated u] at hterminated
      cases hterminated

/-- A handler ends. -/
theorem leadsTo_free (hfair : Fair run) (hgoes : GoesOn run) (w : Fin Server.threadPoolSize)
    (task : Server.Task) (program : Handler Unit) :
    run.LeadsTo (fun p => p.workers w = some ⟨task, program⟩) fun p => p.workers w = none := by
  induction program with
  | ret x =>
    have hown {p q : Process} {env : HandlerEnv} {taken : Option ℕ}
        (hw : p.workers w = some ⟨task, .ret x⟩) (h : p.step (.worker w env taken) = some q) :
        q.workers w = none := by
      unfold step at h
      split at h
      · cases h
      · simp only [workerStep, hw, Option.some.injEq] at h
        subst h
        exact Function.update_self _ _ _
    refine StepSystem.Run.leadsTo_of_recurring (hfair (.worker w)) (fun t hw => ?_) ?_ ?_
    · refine ⟨t, le_rfl, .inl ⟨.worker w (quietEnv (dbFileSystem [])) none, rfl, ?_⟩⟩
      change ((run.state t).step (.worker w (quietEnv (dbFileSystem [])) none)).isSome
      rw [step, hgoes.terminated t, if_neg (by decide)]
      simp only [workerStep, hw]
      rfl
    · rintro p l q - hw h
      rcases worker_step h hw with hnone | hsame | ⟨o, k, _, _, _, _, hprogram, -, -⟩
      · exact .inr hnone
      · exact .inl (hsame.trans hw)
      · cases hprogram
    · rintro p l q - hw h hthread
      cases l with
      | worker w' env taken =>
        cases hthread
        exact hown hw h
      | _ => cases hthread
  | op o k ih =>
    intro t hw
    obtain ⟨u, htu, ⟨r, hr, -⟩ | hterminated⟩ := leadsTo_answered hfair hgoes w task o k t hw
    · obtain ⟨v, huv, hv⟩ := ih r u hr
      exact ⟨v, htu.trans huv, hv⟩
    · rw [hgoes.terminated u] at hterminated
      cases hterminated

/-- Every worker is free again and again. -/
theorem leadsTo_idle (hfair : Fair run) (hgoes : GoesOn run) (w : Fin Server.threadPoolSize) :
    run.LeadsTo (fun _ => True) fun p => p.workers w = none := by
  intro t _
  cases hw : (run.state t).workers w with
  | none => exact ⟨t, le_rfl, hw⟩
  | some running => exact leadsTo_free hfair hgoes w running.task running.program t hw

/-! ## The queue -/

/-- A worker begins with the task. -/
def Begun (p : Process) (task : Server.Task) : Prop :=
  ∃ w, p.workers w = some ⟨task, dataHandler task.data⟩

/-- A queued task comes closer to the front, or a worker begins with it. -/
theorem step_queued (hready : p.server.ReadyPolled) (hmem : task ∈ p.server.m_tasks)
    (h : p.step l = some q) :
    (task ∈ q.server.m_tasks ∧ q.server.m_tasks.idxOf task = p.server.m_tasks.idxOf task ∧
      ∀ w, p.workers w = none → q.workers w = none) ∨
    (task ∈ q.server.m_tasks ∧ q.server.m_tasks.idxOf task < p.server.m_tasks.idxOf task) ∨
    q.Begun task := by
  rcases step_tasks hready h with ⟨⟨new, hnew⟩, hidle⟩ | ⟨w, front, hfront, hw⟩
  · rw [← hnew]
    exact .inl ⟨List.mem_append_left _ hmem, List.idxOf_append_of_mem hmem, hidle⟩
  · by_cases heq : front = task
    · exact .inr (.inr ⟨w, heq ▸ hw⟩)
    · rw [hfront] at hmem
      have hmem' := (List.mem_cons.mp hmem).resolve_left (Ne.symm heq)
      refine .inr (.inl ⟨hmem', ?_⟩)
      rw [hfront, List.idxOf_cons_ne _ heq]
      exact Nat.lt_succ_self _

theorem tracked (hpos : 0 ≤ m_server_fd)
    (h : (processSystem m_server_fd service).Reachable p) : Tracked p :=
  h.invariant (fun _ hs => hs ▸ .start hpos service) fun _ _ _ hp _ hstep => hp.step hstep

/-- A worker begins with every queued task. -/
theorem leadsTo_begun (hpos : 0 ≤ m_server_fd) (hfair : Fair run) (hgoes : GoesOn run)
    (task : Server.Task) :
    run.LeadsTo (fun p => task ∈ p.server.m_tasks) fun p => p.Begun task := by
  refine StepSystem.Run.leadsTo_of_measure (fun p => p.server.m_tasks.idxOf task) fun d => ?_
  -- any worker will do
  obtain ⟨w⟩ : Nonempty (Fin Server.threadPoolSize) := ⟨⟨0, Server.threadPoolSize_pos⟩⟩
  have hkeep {I : Process → Prop}
      (hidle : ∀ p q : Process, I p → (∀ w, p.workers w = none → q.workers w = none) → I q)
      (p : Process) (l : Label) (q : Process)
      (hreach : (processSystem m_server_fd service).Reachable p)
      (hp : (task ∈ p.server.m_tasks ∧ p.server.m_tasks.idxOf task = d) ∧ I p)
      (h : p.step l = some q) :
      ((task ∈ q.server.m_tasks ∧ q.server.m_tasks.idxOf task = d) ∧ I q) ∨
        (task ∈ q.server.m_tasks ∧ q.server.m_tasks.idxOf task < d) ∨ q.Begun task := by
    obtain ⟨⟨hmem, rfl⟩, hI⟩ := hp
    rcases step_queued (tracked hpos hreach).ready hmem h with ⟨hmem', hsame, hstays⟩ | hcloser
    · exact .inl ⟨⟨hmem', hsame⟩, hidle p q hI hstays⟩
    · exact .inr hcloser
  have hfree : run.LeadsTo (fun p => (task ∈ p.server.m_tasks ∧ p.server.m_tasks.idxOf task = d) ∧
      True) fun p => p.workers w = none :=
    fun t _ => leadsTo_idle hfair hgoes w t trivial
  have htake : run.LeadsTo (fun p => (task ∈ p.server.m_tasks ∧ p.server.m_tasks.idxOf task = d) ∧
      p.workers w = none) fun p =>
        (task ∈ p.server.m_tasks ∧ p.server.m_tasks.idxOf task < d) ∨ p.Begun task := by
    refine StepSystem.Run.leadsTo_of_recurring (hfair (.worker w)) ?_
      (hkeep fun p q hp hstays => hstays w hp) ?_
    · rintro t ⟨⟨hmem, -⟩, hw⟩
      refine ⟨t, le_rfl, .inl ⟨.worker w (quietEnv (dbFileSystem [])) none, rfl, ?_⟩⟩
      change ((run.state t).step (.worker w (quietEnv (dbFileSystem [])) none)).isSome
      rw [step, hgoes.terminated t, if_neg (by decide)]
      obtain ⟨front, rest, htasks⟩ := List.exists_cons_of_ne_nil (List.ne_nil_of_mem hmem)
      simp only [workerStep, hw, htasks]
      rfl
    · rintro p l q hreach ⟨⟨hmem, rfl⟩, hw⟩ h hthread
      rcases step_queued (tracked hpos hreach).ready hmem h with ⟨hmem', -, hstays⟩ | hcloser
      · -- an idle worker that takes a step takes a task
        cases l with
        | worker w' env taken =>
          cases hthread
          have hnone := hstays w hw
          change p.step (.worker w env taken) = some q at h
          unfold step at h
          split at h
          · cases h
          · obtain ⟨front, rest, htasks⟩ := List.exists_cons_of_ne_nil (List.ne_nil_of_mem hmem)
            simp only [workerStep, hw, htasks, Option.some.injEq] at h
            subst h
            simp only [setWorker, Function.update_self] at hnone
            cases hnone
        | _ => cases hthread
      · exact hcloser
  intro t hP
  obtain ⟨u, htu, ⟨⟨hqueued, -⟩, hw⟩ | hcloser⟩ :=
    hfree.keeping (hkeep (I := fun _ => True) fun _ _ _ _ => trivial) t ⟨hP, trivial⟩
  · obtain ⟨v, huv, hv⟩ := htake u ⟨hqueued, hw⟩
    exact ⟨v, htu.trans huv, hv⟩
  · exact ⟨u, htu, hcloser⟩

/-- A worker that is at a task stays there until it is free. -/
theorem exists_stays {w : Fin Server.threadPoolSize} {u v : ℕ} (huv : u ≤ v)
    {program : Handler Unit} (hu : (run.state u).workers w = some ⟨task, program⟩)
    (hv : (run.state v).workers w = none) :
    ∃ x, u < x ∧ (run.state x).workers w = none ∧
      ∀ y, u ≤ y → y < x → ∃ program, (run.state y).workers w = some ⟨task, program⟩ := by
  obtain ⟨k, rfl⟩ := Nat.exists_eq_add_of_le huv
  -- induction on the distance to a moment at which it is free
  induction k generalizing u program with
  | zero =>
    rw [Nat.add_zero, hu] at hv
    cases hv
  | succ k ih =>
    have hnext : (run.state (u + 1)).workers w = none ∨
        ∃ program', (run.state (u + 1)).workers w = some ⟨task, program'⟩ := by
      cases hlabel : run.label u with
      | none => exact .inr ⟨program, by rwa [run.idle u hlabel]⟩
      | some l =>
        rcases worker_step (run.step u l hlabel) hu with
          hnone | hsame | ⟨o, k, _, _, r, _, -, -, heq⟩
        · exact .inl hnone
        · exact .inr ⟨program, hsame.trans hu⟩
        · rw [heq]
          exact .inr ⟨k r, Function.update_self _ _ _⟩
    rcases hnext with hnone | ⟨program', hu'⟩
    · refine ⟨u + 1, Nat.lt_succ_self u, hnone, fun y huy hy => ⟨program, ?_⟩⟩
      obtain rfl : y = u := by omega
      exact hu
    · obtain ⟨x, hux, hx, hstays⟩ := ih hu' (by omega) (by rwa [Nat.add_right_comm, Nat.add_assoc])
      refine ⟨x, by omega, hx, fun y huy hy => ?_⟩
      rcases Nat.eq_or_lt_of_le huy with rfl | hlt
      · exact ⟨program, hu⟩
      · exact hstays y hlt hy

end Runs

end Process

open Process

/-- On every fair run of a server that goes on and is not in debug mode, a worker begins with
whatever was received and stays with it until the handler has ended. The handler releases the
connection it came from, which is closed or polled again afterwards. -/
theorem served_of_fair {m_server_fd : ℤ} (hpos : 0 ≤ m_server_fd) {service : Service}
    {run : (processSystem m_server_fd service).Run} (hfair : Fair run) (hgoes : GoesOn run) {t : ℕ}
    {task : Server.Task} (hmem : task ∈ (run.state t).server.m_tasks) :
    ∃ w u v, t ≤ u ∧ u < v ∧ (run.state u).workers w = some ⟨task, dataHandler task.data⟩ ∧
      (∀ x, u ≤ x → x < v → ∃ program, (run.state x).workers w = some ⟨task, program⟩) ∧
      (run.state v).workers w = none ∧
      ∃ x y, u ≤ x ∧ x ≤ y ∧ (run.state x).Released task ∧
        (run.state y).server.Settled task.fd task.conn := by
  obtain ⟨u, htu, w, hw⟩ := leadsTo_begun hpos hfair hgoes task t hmem
  obtain ⟨v, huv, hfree⟩ := leadsTo_free hfair hgoes w task _ u hw
  obtain ⟨x, hux, hx, hstays⟩ := exists_stays huv hw hfree
  refine ⟨w, u, x, htu, hux, hw, hstays, hx, ?_⟩
  obtain ⟨y, huy, action, haction, hfd, hconn⟩ :=
    leadsTo_released hfair hgoes w task (reaches_dataHandler task.data) u hw
  obtain ⟨z, hyz, hz⟩ := leadsTo_settled hpos hfair hgoes action task.conn y haction
  exact ⟨y, z, huy, hyz, ⟨action, haction, hfd, hconn⟩, hfd ▸ hz⟩

/-! ## One request -/

namespace Process

/-- A client connects and sends a request, which is handled and the client closed. -/
def oneRequest : List Label :=
  acceptFirst 3 5 ++ receiveFirst 5 optionsRequest ++ work 6 ++ [idle, idle, idle, idle, idle]

/-- And nothing happens afterwards. -/
def thenNothing (t : ℕ) : Label :=
  oneRequest[t]?.getD (if t % 2 = 0 then idle else .pass [] none)

/-- The run. -/
def oneRequestRun : (processSystem 3 emptyService).Run := .along _ rfl thenNothing

/-- There is nothing to do. -/
structure AtRest (p : Process) : Prop where
  terminated : p.terminated = false
  stopped : p.server.phase ≠ .stopped
  workers : ∀ w, p.workers w = none
  tasks : p.server.m_tasks = []
  clients : p.ws_clients = []
  pass : ∀ pass, p.pass = some pass → pass.rest = [] ∧ pass.phase = .sending

/-- A step of the server loop to which nothing comes in. -/
theorem loopStep_idle {s s' : Server} {lockdown : LockdownState}
    (h : s.loopStep lockdown ⟨.timeout, none, []⟩ = some s') :
    s'.m_tasks = s.m_tasks ∧ s'.phase ≠ .stopped := by
  cases Server.loopStep_cases h with
  | @action action rest _ =>
    obtain ⟨new, heq, -⟩ := Server.applyAction_eq action s
    rw [heq]
    exact ⟨rfl, by simp⟩
  | @receive i pfd _ _ _ =>
    refine ⟨?_, by simp⟩
    unfold Server.receive
    split
    · next hdata => cases hdata
    · rfl
  | pollFailed _ hpoll => cases hpoll
  | _ => exact ⟨rfl, by simp⟩

theorem AtRest.idle_step {p : Process} (h : AtRest p) : ∃ q, p.step idle = some q ∧ AtRest q := by
  obtain ⟨server, hserver⟩ :=
    Option.isSome_iff_exists.mp (Server.loopStep_isSome p.lockdown h.stopped)
  obtain ⟨htasks, hstopped⟩ := loopStep_idle hserver
  refine ⟨{ p with server }, ?_, ?_⟩
  · unfold step
    rw [h.terminated, if_neg (by decide)]
    exact Option.map_eq_some_iff.mpr ⟨server, hserver, rfl⟩
  · exact ⟨h.terminated, hstopped, h.workers, htasks.trans h.tasks, h.clients, h.pass⟩

theorem AtRest.pass_step {p : Process} (h : AtRest p) :
    ∃ q, p.step (.pass [] none) = some q ∧ AtRest q := by
  have hstep : p.step (.pass [] none) = p.passStep [] none := by
    unfold step
    rw [h.terminated, if_neg (by decide)]
  have hrest {pass : Option Pass}
      (hpass : ∀ pass', pass = some pass' → pass'.rest = [] ∧ pass'.phase = .sending) :
      AtRest { p with pass } :=
    ⟨h.terminated, h.stopped, h.workers, h.tasks, h.clients, hpass⟩
  rw [hstep]
  -- the loop begins, and as there is no client it ends in its next step
  cases hpass : p.pass with
  | none =>
    refine ⟨{ p with pass := some ⟨WebSocketHandler.encodeFrame [], p.ws_clients, .sending⟩ }, ?_,
      hrest fun pass heq => ?_⟩
    · simp only [passStep, hpass]
    · obtain rfl := Option.some.inj heq
      exact ⟨h.clients, rfl⟩
  | some pass =>
    obtain ⟨frame, rest, phase⟩ := pass
    obtain ⟨rfl, rfl⟩ := h.pass _ hpass
    refine ⟨{ p with pass := none }, ?_, hrest nofun⟩
    simp only [passStep, hpass]

/-- Whether there is nothing to do. -/
def isAtRest (p : Process) : Bool :=
  !p.terminated && !decide (p.server.phase = .stopped) &&
    ((List.finRange _).all fun w => (p.workers w).isNone) && p.server.m_tasks.isEmpty &&
    p.ws_clients.isEmpty && p.pass.isNone

theorem atRest_of_isAtRest {p : Process} (h : p.isAtRest = true) : AtRest p := by
  simp only [isAtRest, Bool.and_eq_true, Bool.not_eq_true', decide_eq_false_iff_not,
    List.all_eq_true, Option.isNone_iff_eq_none, List.isEmpty_iff] at h
  obtain ⟨⟨⟨⟨⟨hterminated, hstopped⟩, hworkers⟩, htasks⟩, hclients⟩, hpass⟩ := h
  refine ⟨hterminated, hstopped, fun w => hworkers w (List.mem_finRange w), htasks, hclients, ?_⟩
  intro pass heq
  rw [hpass] at heq
  cases heq

/-- Once the request is handled there is nothing to do. -/
theorem atRest_oneRequestRun {t : ℕ} (h : oneRequest.length ≤ t) :
    AtRest (oneRequestRun.state t) := by
  induction t, h using Nat.le_induction with
  | base =>
    refine atRest_of_isAtRest ?_
    decide +kernel
  | succ t ht ih =>
    have hlabel : thenNothing t = if t % 2 = 0 then idle else .pass [] none := by
      rw [thenNothing, List.getElem?_eq_none ht, Option.getD_none]
    obtain ⟨q, hq, hrest⟩ :
        ∃ q, (oneRequestRun.state t).step (thenNothing t) = some q ∧ AtRest q := by
      rw [hlabel]
      split
      · exact ih.idle_step
      · exact ih.pass_step
    change AtRest (((oneRequestRun.state t).step (thenNothing t)).getD _)
    rw [hq]
    exact hrest

/-- Afterwards every label is a step. -/
theorem label_oneRequestRun {t : ℕ} (h : oneRequest.length ≤ t) :
    oneRequestRun.label t = some (if t % 2 = 0 then idle else .pass [] none) := by
  have hlabel : thenNothing t = if t % 2 = 0 then idle else .pass [] none := by
    rw [thenNothing, List.getElem?_eq_none h, Option.getD_none]
  have hsome : ((oneRequestRun.state t).step (thenNothing t)).isSome := by
    rw [hlabel]
    split
    · obtain ⟨q, hq, -⟩ := (atRest_oneRequestRun h).idle_step
      rw [hq]
      rfl
    · obtain ⟨q, hq, -⟩ := (atRest_oneRequestRun h).pass_step
      rw [hq]
      rfl
  rw [← hlabel]
  exact if_pos hsome

/-- The loops take turns, and no worker has anything to do. -/
theorem fair_oneRequestRun : Fair oneRequestRun := by
  intro thread t hagain
  cases thread with
  | loop =>
    refine ⟨2 * (t + oneRequest.length), by omega, idle, ?_, rfl⟩
    rw [label_oneRequestRun (by omega), if_pos (by omega)]
  | pass =>
    refine ⟨2 * (t + oneRequest.length) + 1, by omega, .pass [] none, ?_, rfl⟩
    rw [label_oneRequestRun (by omega), if_neg (by omega)]
  | worker w =>
    obtain ⟨v, hv, l, hl, hsome⟩ := hagain (t + oneRequest.length) (by omega)
    have hrest := atRest_oneRequestRun (show oneRequest.length ≤ v by omega)
    cases l with
    | worker w' env taken =>
      obtain ⟨q, hq⟩ := Option.isSome_iff_exists.mp hsome
      change (oneRequestRun.state v).step (.worker w' env taken) = some q at hq
      simp only [step, hrest.terminated, workerStep, hrest.workers, hrest.tasks] at hq
      cases hq
    | _ => cases hl

/-- What ends the run would have ended it before there was nothing to do. -/
theorem goesOn_oneRequestRun : GoesOn oneRequestRun where
  terminated t := by
    by_contra hterminated
    have hlater : (oneRequestRun.state (t + oneRequest.length)).terminated = true := by
      refine StepSystem.Run.of_le (P := fun p : Process => p.terminated = true) ?_
        (Nat.le_add_right t _) (Bool.not_eq_false _ ▸ hterminated)
      intro p l q _ hp h
      change p.step l = some q at h
      unfold step at h
      rw [hp, if_pos rfl] at h
      cases h
    rw [(atRest_oneRequestRun (Nat.le_add_left _ t)).terminated] at hlater
    cases hlater
  stopped t hstopped := by
    refine (atRest_oneRequestRun (Nat.le_add_left oneRequest.length t)).stopped ?_
    refine StepSystem.Run.of_le (P := fun p : Process => p.server.phase = .stopped) ?_
      (Nat.le_add_right t _) hstopped
    intro p l q _ hp h
    rcases step_beside h with ⟨env, -, hserver, -⟩ | hbeside
    · simp [Server.loopStep, hp] at hserver
    · exact hbeside.untouched.phase.trans hp

end Process

/-- The request is handled and the client closed. -/
theorem served_of_fair_oneRequestRun : ∃ w u v,
    (oneRequestRun.state u).workers w =
        some ⟨⟨5, optionsRequest, 0⟩, dataHandler optionsRequest⟩ ∧
      u < v ∧ (oneRequestRun.state v).workers w = none ∧
      ∃ x y, u ≤ x ∧ x ≤ y ∧ (oneRequestRun.state x).Released ⟨5, optionsRequest, 0⟩ ∧
        (oneRequestRun.state y).server.Settled 5 0 := by
  have htasks : (oneRequestRun.state 14).server.m_tasks = [⟨5, optionsRequest, 0⟩] := by
    decide +kernel
  obtain ⟨w, u, v, -, huv, hu, -, hv, hsettled⟩ :=
    served_of_fair (by decide) fair_oneRequestRun goesOn_oneRequestRun
      (htasks ▸ List.mem_singleton_self _)
  exact ⟨w, u, v, hu, huv, hv, hsettled⟩

end Main
