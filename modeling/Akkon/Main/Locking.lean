import Mathlib.Data.Fintype.Sum
import Mathlib.Tactic.DeriveFintype
import Akkon.ToMathlib.LockProgram

/-!
# The locking of the server

The mutexes `SystemMonitor::s_callback_mutex`, `ws_mutex` and `Server::m_action_mutex`, and for each
thread of the process the scopes in which it holds them. A log line is where they meet: it runs the
log callback under `s_callback_mutex`, which sends to the WebSocket clients under `ws_mutex` and
closes those it cannot reach under `m_action_mutex`.

* `log`, `clientPass`, `start`, `dataHandler`, `broadcast`, `backgroundTask`: what the source locks,
  every outcome of a test or a call being a branch;
* `lockSystem`: the eleven threads;
* `lockSystem_deadlockFree`: no thread locks itself out and no threads wait in a circle, as long as
  no send to a client fails while the server loop logs a close under `m_action_mutex`;
* `lockSystem_deadlockFree_of_not_debug`: without debug mode there is no such log line;
* `reachable_selfLock`, `reachable_circle`: with it, the server loop can lock itself out, and it can
  wait for the broadcast thread while that waits for it.
-/

namespace Locking

open Frame Threads

/-- The mutexes. -/
inductive Mutex
  | s_callback_mutex
  | ws_mutex
  | m_action_mutex
  deriving DecidableEq, Repr

/-- `ws_mutex` is a `std::recursive_mutex`, the others are `std::mutex`. -/
def Mutex.recursive : Mutex → Bool
  | s_callback_mutex => false
  | ws_mutex => true
  | m_action_mutex => false

/-- The parts of the program that the results speak of. -/
inductive Region
  /-- `closeClient` for a WebSocket client that a send has failed for. -/
  | closeFailed
  /-- The log line of the server loop about a close, under `m_action_mutex`. -/
  | logClose
  deriving DecidableEq, Repr

/-- The locking of a function. -/
abbrev Locks := LockProg Mutex Region

/-- One after the other. -/
def steps (ps : List Locks) : Locks := ps.foldr LockProg.seq LockProg.skip

/-- One of several branches. -/
def oneOf (p : Locks) (ps : List Locks) : Locks := ps.foldr LockProg.choice p

/-- A branch that may be left out. -/
def maybe (p : Locks) : Locks := LockProg.choice p LockProg.skip

/-! ## `Server.cpp`: the deferred actions -/

def closeClient : Locks := .locked .m_action_mutex .skip

def enablePolling : Locks := .locked .m_action_mutex .skip

/-! ## `SystemMonitor.cpp` and the log callback -/

/-- `LogLevel`. -/
inductive LogLevel
  | INFO
  | WARNING
  | ERROR
  | DEBUG
  deriving DecidableEq, Repr

/-- The loop over `ws_clients` of the log callback and of the broadcast thread. Each `sendData`
succeeds or fails. -/
def clientPass : Locks := .loop (maybe (.during .closeFailed closeClient))

/-- The log callback. It returns at once when `in_log_callback` is set. -/
def logCallback : Locks := maybe (.locked .ws_mutex clientPass)

/-- `SystemMonitor::log`. The callback is called if there is one. -/
def log (debug : Bool) (level : LogLevel) : Locks :=
  if !debug && level != .ERROR then .skip
  else .locked .s_callback_mutex (maybe logCallback)

/-- A log line behind a test of `isDebugMode`. -/
def debugLog (debug : Bool) : Locks := if debug then log debug .DEBUG else .skip

def setLogCallback : Locks := .locked .s_callback_mutex .skip

/-! ## `Server.cpp`: the server loop -/

def disconnectAll (debug : Bool) : Locks := log debug .ERROR

/-- One entry of `m_fds` against one pending action: it is closed, or its polling is enabled, or it
is another client's. -/
def applyAction (debug : Bool) : Locks :=
  maybe (if debug then .during .logClose (log debug .DEBUG) else .skip)

/-- The block that works off `m_pending_actions`. -/
def pendingActions (debug : Bool) : Locks := .locked .m_action_mutex (.loop (applyAction debug))

/-- `accept`. -/
def acceptClient (debug : Bool) : Locks := maybe (debugLog debug)

/-- The loop over `m_fds`: an end of stream is logged, received bytes are handed to the pool. -/
def recvClients (debug : Bool) : Locks := .loop (maybe (debugLog debug))

/-- `Server::start`. -/
def start (debug : Bool) : Locks :=
  .loop (steps [maybe (disconnectAll debug), pendingActions debug, acceptClient debug,
    recvClients debug])

/-! ## The worker threads -/

/-- `DataStorage::insertEntity`: no shard, an entity without an identifier, low disk space, then the
write itself. -/
def insertEntity (debug : Bool) : Locks :=
  oneOf .skip [log debug .ERROR, log debug .ERROR,
    steps [maybe (log debug .WARNING), maybe (steps [log debug .DEBUG, maybe (log debug .ERROR)])]]

/-- The insert route: low disk space, a duplicate, wrong fields, or an insertion. -/
def insertRoute (debug : Bool) : Locks :=
  steps [maybe (steps [insertEntity debug, debugLog debug]), closeClient]

def existsRoute (debug : Bool) : Locks := steps [maybe (debugLog debug), closeClient]

def upgradeRoute (debug : Bool) : Locks :=
  steps [.locked .ws_mutex .skip, debugLog debug, enablePolling]

/-- The branch for a request that is in no protocol. -/
def unknownPayload (debug : Bool) : Locks := steps [debugLog debug, closeClient]

/-- The data handler: a lockdown, the lookup in `ws_clients`, then a WebSocket client's frames or
one of the routes. The other routes close the client only. -/
def dataHandler (debug : Bool) : Locks :=
  steps [debugLog debug,
    oneOf closeClient
      [steps [.locked .ws_mutex .skip,
        oneOf closeClient
          [enablePolling, insertRoute debug, existsRoute debug, upgradeRoute debug,
            unknownPayload debug]]]]

/-- A worker of the pool takes one task after the other. -/
def worker (debug : Bool) : Locks := .loop (dataHandler debug)

/-! ## The other threads -/

def triggerLockdown (debug : Bool) : Locks := log debug .ERROR

/-- `HealthMonitor::checkHealth`: the log lines in front of an exception, and that of its
handler. -/
def checkHealth (debug : Bool) : Locks :=
  steps [maybe (log debug .WARNING), maybe (steps [triggerLockdown debug, log debug .ERROR]),
    maybe (log debug .WARNING), maybe (log debug .ERROR)]

/-- The broadcast thread. -/
def broadcast (debug : Bool) : Locks :=
  .loop (steps [checkHealth debug, .locked .ws_mutex clientPass])

/-- `LifecycleManager::backgroundTask`. -/
def backgroundTask (debug : Bool) : Locks :=
  .loop (maybe (oneOf (log debug .ERROR) [log debug .INFO]))

/-- The main thread: its log lines while it starts up, one of them for each shard that does not
open, then the server loop. -/
def main (debug : Bool) : Locks :=
  steps [log debug .INFO, maybe (log debug .DEBUG), log debug .INFO, .loop (log debug .ERROR),
    setLogCallback, log debug .INFO, start debug]

/-- `THREAD_POOL_SIZE`. -/
abbrev threadPoolSize : ℕ := 8

/-- The threads. -/
inductive Thread
  | main
  | worker (n : Fin threadPoolSize)
  | broadcast
  | lifecycle
  deriving DecidableEq, Fintype

/-- What a thread runs. -/
def Thread.body (debug : Bool) : Thread → Locks
  | main => Locking.main debug
  | worker _ => Locking.worker debug
  | broadcast => Locking.broadcast debug
  | lifecycle => Locking.backgroundTask debug

/-- The process, as far as its mutexes go. -/
def lockSystem (debug : Bool) : StepSystem (Threads Thread Mutex Region) (Thread × Bool) :=
  Threads.system Mutex.recursive (Thread.body debug)

/-! ## Lock order -/

/-- The order of the mutexes outside `logClose`: the log callback ends in `closeClient`. -/
def logRank : Mutex → ℕ
  | .s_callback_mutex => 0
  | .ws_mutex => 1
  | .m_action_mutex => 2

/-- The order of the mutexes outside `closeFailed`: the server loop logs under its own mutex. -/
def loopRank : Mutex → ℕ
  | .m_action_mutex => 0
  | .s_callback_mutex => 1
  | .ws_mutex => 2

/-- An order of the programs is one of all stacks in every run. -/
theorem stackOrdered_of_reachable {debug : Bool} {exempt : Region → Bool} {rank : Mutex → ℕ}
    (hbody : ∀ i, Ordered exempt rank Mutex.recursive [] (Thread.body debug i))
    {ok : Threads Thread Mutex Region → Thread × Bool → Prop} {t : Threads Thread Mutex Region}
    (h : (lockSystem debug).ReachableUnder ok t) (i : Thread) :
    StackOrdered exempt rank Mutex.recursive (t i) := by
  refine h.invariant (I := fun t => ∀ i, StackOrdered exempt rank Mutex.recursive (t i)) ?_ ?_ i
  · rintro t rfl i
    exact ⟨Or.inr (hbody i), trivial⟩
  · intro t a t' ht _ hstep
    exact forall_step (fun _ _ _ hk hnext => StackOrdered.next hk hnext) ht hstep

theorem ordered_logRank (debug : Bool) (i : Thread) :
    Ordered (· == .logClose) logRank Mutex.recursive [] (Thread.body debug i) := by
  revert debug i
  decide

theorem ordered_loopRank (debug : Bool) (i : Thread) :
    Ordered (· == .closeFailed) loopRank Mutex.recursive [] (Thread.body debug i) := by
  revert debug i
  decide

/-- Without debug mode the first order holds everywhere. -/
theorem ordered_of_not_debug (i : Thread) :
    Ordered (fun _ => false) logRank Mutex.recursive [] (Thread.body false i) := by
  revert i
  decide

theorem exclusive_of_reachable {debug : Bool}
    {ok : Threads Thread Mutex Region → Thread × Bool → Prop} {t : Threads Thread Mutex Region}
    (h : (lockSystem debug).ReachableUnder ok t) : Exclusive t := by
  refine h.invariant ?_ fun _ _ _ ht _ hstep => ht.step hstep
  rintro t rfl i j l hi
  cases hi

/-- The run under the condition: no send to a client fails while the server loop logs a close, and
no close is logged while the `closeClient` of a failed send is under way. -/
def SendsAndLogsApart : Threads Thread Mutex Region → Thread × Bool → Prop :=
  KeepsApart Region.closeFailed Region.logClose

instance (t : Threads Thread Mutex Region) (a : Thread × Bool) :
    Decidable (SendsAndLogsApart t a) :=
  KeepsApart.decidable _ _ t a

theorem apart_of_reachable {debug : Bool} {t : Threads Thread Mutex Region}
    (h : (lockSystem debug).ReachableUnder SendsAndLogsApart t) :
    Apart Region.closeFailed Region.logClose t := by
  refine h.invariant ?_ fun _ _ _ ht hok hstep => ht.step (by decide) hok hstep
  rintro t rfl i j hi
  cases hi

/-- No thread locks itself out, and no threads wait in a circle, in every run in which failed sends
and logged closes stay apart. -/
theorem lockSystem_deadlockFree (debug : Bool) {t : Threads Thread Mutex Region}
    (h : (lockSystem debug).ReachableUnder SendsAndLogsApart t) (i : Thread) :
    ¬ SelfLock Mutex.recursive t i ∧ ¬ Relation.TransGen (WaitsFor t) i i := by
  have hexclusive := exclusive_of_reachable h
  by_cases hfailed : ∃ j, Region.closeFailed ∈ active (t j)
  · -- a failed send is being dealt with, so no close is being logged
    obtain ⟨j, hj⟩ := hfailed
    have hordered := stackOrdered_of_reachable (ordered_logRank debug) h
    have hout : ∀ k, ∀ r ∈ active (t k), (r == Region.logClose) = false := by
      intro k r hr
      refine beq_false_of_ne ?_
      rintro rfl
      exact apart_of_reachable h j k hj hr
    exact ⟨not_selfLock hordered hout i, not_waitsFor_cycle hexclusive hordered hout i⟩
  · -- no failed send is under way
    have hordered := stackOrdered_of_reachable (ordered_loopRank debug) h
    have hout : ∀ k, ∀ r ∈ active (t k), (r == Region.closeFailed) = false := by
      intro k r hr
      refine beq_false_of_ne ?_
      rintro rfl
      exact hfailed ⟨k, hr⟩
    exact ⟨not_selfLock hordered hout i, not_waitsFor_cycle hexclusive hordered hout i⟩

/-- Without debug mode there is nothing to keep apart. -/
theorem lockSystem_deadlockFree_of_not_debug {t : Threads Thread Mutex Region}
    (h : (lockSystem false).Reachable t) (i : Thread) :
    ¬ SelfLock Mutex.recursive t i ∧ ¬ Relation.TransGen (WaitsFor t) i i := by
  have hordered := stackOrdered_of_reachable ordered_of_not_debug h
  exact ⟨not_selfLock hordered (fun _ _ _ => rfl) i,
    not_waitsFor_cycle (exclusive_of_reachable h) hordered (fun _ _ _ => rfl) i⟩

/-! ## Deadlocks in debug mode -/

/-- Steps of one thread, with the branch taken for a number of steps at a time. -/
def turns (i : Thread) (branches : List (ℕ × Bool)) : List (Thread × Bool) :=
  branches.flatMap fun b => List.replicate b.1 (i, b.2)

/-- The threads at the start, in debug mode. -/
def startUp : Threads Thread Mutex Region := fun i => [run (Thread.body true i)]

/-- The main thread starts up, accepts a client and hands its bytes to a worker; the worker upgrades
the client to a WebSocket; another worker answers a second client and asks for its close. -/
def upgradeAndClose : List (Thread × Bool) :=
  turns .main [(21, false), (3, true), (4, false), (2, true), (7, false), (5, true), (4, false),
    (1, true), (4, false)] ++
  turns (.worker 0) [(6, true), (4, false), (6, true), (3, false), (10, true), (10, false)] ++
  turns (.worker 1) [(7, true), (6, false), (6, true), (10, false)]

/-- The server loop logs the close, and its own log line goes to the WebSocket client. -/
def logToClient : List (Thread × Bool) := turns .main [(2, true), (4, false), (8, true)]

/-- Where the sends of the log callback succeed, the server loop gets through its log line with all
three mutexes held. -/
theorem lockSystem_deadlockFree_logToClient :
    ∃ t : Threads Thread Mutex Region,
      held (t .main) = [.ws_mutex, .s_callback_mutex, .m_action_mutex] ∧
      ∀ i, ¬ SelfLock Mutex.recursive t i ∧ ¬ Relation.TransGen (WaitsFor t) i i := by
  have hrun : (((lockSystem true).restrict SendsAndLogsApart).runFrom startUp
      (upgradeAndClose ++ logToClient)).any
      (fun t => held (t .main) == [.ws_mutex, .s_callback_mutex, .m_action_mutex]) = true := by
    decide +kernel
  obtain ⟨t, ht, hheld⟩ := StepSystem.exists_reachable_of_any rfl hrun
  exact ⟨t, beq_iff_eq.mp hheld,
    lockSystem_deadlockFree true (StepSystem.Reachable.of_restrict ht)⟩

/-- In debug mode, a log line about a close whose send to a WebSocket client fails locks the server
loop out of its own mutex. -/
theorem reachable_selfLock :
    ∃ t, (lockSystem true).Reachable t ∧ SelfLock Mutex.recursive t Thread.main := by
  have hrun : ((lockSystem true).runFrom startUp
      (upgradeAndClose ++ logToClient ++ turns .main [(2, true)])).any
      (fun t => wanted (t .main) == some .m_action_mutex &&
        (held (t .main)).contains .m_action_mutex)
      = true := by decide +kernel
  obtain ⟨t, ht, hself⟩ := StepSystem.exists_reachable_of_any rfl hrun
  simp only [Bool.and_eq_true, beq_iff_eq, List.contains_iff_mem] at hself
  exact ⟨t, ht, .m_action_mutex, hself.1, hself.2, rfl⟩

/-- In debug mode, the server loop at a log line about a close can wait for the broadcast thread
while that waits to close a client it could not send to. -/
theorem reachable_circle :
    ∃ t, (lockSystem true).Reachable t ∧ WaitsFor t Thread.main Thread.broadcast ∧
      WaitsFor t Thread.broadcast Thread.main := by
  have hrun : ((lockSystem true).runFrom startUp (upgradeAndClose ++
      turns .main [(2, true), (4, false), (4, true)] ++
      turns .broadcast [(3, true), (14, false), (3, true)] ++ turns .main [(2, true)])).any
      (fun t => wanted (t .main) == some .ws_mutex && (held (t .broadcast)).contains .ws_mutex &&
        (wanted (t .broadcast) == some .m_action_mutex &&
          (held (t .main)).contains .m_action_mutex)) = true := by decide +kernel
  obtain ⟨t, ht, hwait⟩ := StepSystem.exists_reachable_of_any rfl hrun
  simp only [Bool.and_eq_true, beq_iff_eq, List.contains_iff_mem] at hwait
  obtain ⟨⟨hws, hws'⟩, haction, haction'⟩ := hwait
  exact ⟨t, ht, ⟨by decide, _, hws, hws'⟩, ⟨by decide, _, haction, haction'⟩⟩

/-- The locks of the server are not free of deadlock. -/
theorem not_lockSystem_deadlockFree :
    ¬ ∀ (debug : Bool) (t : Threads Thread Mutex Region), (lockSystem debug).Reachable t →
      ∀ i, ¬ SelfLock Mutex.recursive t i ∧ ¬ Relation.TransGen (WaitsFor t) i i := by
  intro h
  obtain ⟨t, ht, hself⟩ := reachable_selfLock
  exact (h true t ht .main).1 hself

end Locking
