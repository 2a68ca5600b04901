import Akkon.Construction.Utils
import Akkon.TestSuite.Host

/-!
# `testsuite::TestFramework`

The framework that starts instances of the server and looks after them, as `TestFramework.cpp` has
it on POSIX. The member functions are programs over the calls of the operating system; `m_instances`
is passed along.

* `Map`, `Instances`: a `std::map`, and `m_instances`;
* `setupEnvironment`, `getBinaryPath`: the environment of the instances;
* `createInstance`, `getStatus`, `waitForInstance`, `stopInstance`, `killInstance`, `cleanup`,
  `runtime`: the member functions;
* `Call.perform`, `performAll`: any sequence of their calls.
-/

namespace TestSuite

open Cpp

/-! ## Instances -/

/-- The values of `status`. -/
inductive Status
  | unset
  | starting
  | running
  | stopped
  | error
  | not_found
  deriving DecidableEq, Repr

/-- `InstanceInfo`. Times are in milliseconds. -/
structure InstanceInfo where
  pid : ℤ := -1
  tracker_id : Bytes := []
  log_file : Bytes := []
  start_time : ℤ := 0
  status : Status := .unset
  binary_path : Bytes := []
  args : List Bytes := []
  deriving DecidableEq, Repr

/-- `InstanceStatus`. -/
structure InstanceStatus where
  pid : ℤ
  tracker_id : Bytes
  status : Status
  uptime_ms : ℕ
  last_log_line : Bytes
  exit_code : ℤ := -1
  deriving DecidableEq, Repr

/-- A `std::map` with strings for keys, in their order. -/
abbrev Map (α : Type) := List (Bytes × α)

namespace Map

variable {α : Type}

/-- `find`. -/
def find : Map α → Bytes → Option α
  | [], _ => none
  | (key, value) :: m, wanted => if key = wanted then some value else find m wanted

/-- `m[wanted] = value`. -/
def set : Map α → Bytes → α → Map α
  | [], wanted, value => [(wanted, value)]
  | (key, old) :: m, wanted, value =>
    if key = wanted then (key, value) :: m
    else if wanted < key then (wanted, value) :: (key, old) :: m
    else (key, old) :: set m wanted value

@[simp]
theorem find_set (m : Map α) (wanted : Bytes) (value : α) (key : Bytes) :
    (m.set wanted value).find key = if wanted = key then some value else m.find key := by
  induction m with
  | nil => rfl
  | cons entry m ih =>
    obtain ⟨k, old⟩ := entry
    rw [set]
    by_cases hk : k = wanted
    · rw [if_pos hk, find, find, hk]
      split_ifs <;> rfl
    · by_cases hlt : wanted < k
      · rw [if_neg hk, if_pos hlt, find]
      · rw [if_neg hk, if_neg hlt, find, ih, find]
        -- an entry with another key is passed by
        by_cases heq : wanted = key
        · rw [if_pos heq, if_neg (heq ▸ hk), if_pos heq]
        · rw [if_neg heq, if_neg heq]

theorem find_set_self (m : Map α) (wanted : Bytes) (value : α) :
    (m.set wanted value).find wanted = some value := by
  rw [find_set, if_pos rfl]

end Map

/-- `m_instances`. -/
abbrev Instances := Map InstanceInfo

namespace Instances

/-- `m_instances[tracker_id].status = status`. -/
def setStatus (m : Instances) (tracker_id : Bytes) (status : Status) : Instances :=
  m.set tracker_id { (m.find tracker_id).getD {} with status := status }

theorem find_setStatus {m : Instances} {tracker_id : Bytes} {info : InstanceInfo}
    (h : m.find tracker_id = some info) (status : Status) :
    (m.setStatus tracker_id status).find tracker_id = some { info with status := status } := by
  rw [setStatus, Map.find_set_self, h]
  rfl

end Instances

/-! ## The environment -/

/-- The loop of `generateTrackerId`. -/
def hexDigits : ℕ → Sys Bytes
  | 0 => return []
  | n + 1 => do
    let digit ← Sys.draw
    let digits ← hexDigits n
    return Construction.hexChar digit.val :: digits

/-- `generateTrackerId`. -/
def generateTrackerId : Sys Bytes := hexDigits 8

/-- The loop of `getBinaryPath` over `possible_paths`. -/
def firstExisting (bin_name : Bytes) : List Bytes → Sys Bytes
  | [] => return bin_name
  | path :: paths => do
    let found ← Sys.fileExists path
    if found then Sys.absolute path
    else firstExisting bin_name paths

/-- The end of `getBinaryPath`. -/
def searchBinary : Sys Bytes :=
  let bin_name := lit "Akkon"
  firstExisting bin_name [lit "./" ++ bin_name, lit "./cmake-build-debug/" ++ bin_name,
    lit "../cmake-build-debug/" ++ bin_name, lit "../../cmake-build-debug/" ++ bin_name,
    lit "../../../cmake-build-debug/" ++ bin_name]

/-- `getBinaryPath`. -/
def getBinaryPath : Sys Bytes := do
  let env_binary ← Sys.getenv (lit "AKKON_BINARY")
  match env_binary with
  | none => searchBinary
  | some path => do
    let found ← Sys.fileExists path
    if found then return path
    else searchBinary

/-- `isContainerized`. -/
def isContainerized : Sys Bool := do
  let dockerenv ← Sys.fileExists (lit "/.dockerenv")
  if dockerenv then return true
  else do
    let cgroup1 ← Sys.readLines (lit "/proc/self/cgroup")
    if cgroup1.any fun line => contains line (lit "/docker") || contains line (lit "/podman") ||
        contains line (lit "/lxc") || contains line (lit "/kubepods") then return true
    else do
      let cgroup2 ← Sys.readLines (lit "/proc/self/cgroup")
      return cgroup2.any fun line => contains line (lit "docker") ||
        contains line (lit "podman") || contains line (lit "lxc") || contains line (lit "kubepods")

/-- `std::filesystem::exists(path) || second`, where the second one is asked only if needed. -/
def existsOr (path : Bytes) (second : Sys Bool) : Sys Bool := do
  let found ← Sys.fileExists path
  if found then return true
  else second

/-- `std::getenv(name) != nullptr`. -/
def isSet (name : Bytes) : Sys Bool := do
  let value ← Sys.getenv name
  return value.isSome

/-- `detectContainerEngine`. -/
def detectContainerEngine : Sys Bytes := do
  let docker ← existsOr (lit "/var/run/docker.sock") (isSet (lit "DOCKER_HOST"))
  if docker then return lit "docker"
  else do
    let podman ← existsOr (lit "/var/run/podman/podman.sock") (isSet (lit "PODMAN_HOST"))
    if podman then return lit "podman"
    else do
      let containerd ← Sys.fileExists (lit "/var/run/containerd/containerd.sock")
      if containerd then return lit "containerd"
      else do
        let lxc ← existsOr (lit "/var/lib/lxc") (Sys.fileExists (lit "/var/snap/lxd/common/lxd"))
        return if lxc then lit "lxc" else lit "none"

/-- The part of `setupEnvironment` for containers. -/
def containerEnvironment (env : Map Bytes) : Sys (Map Bytes) := do
  let in_container ← isContainerized
  if !in_container then return env
  else do
    let env := env.set (lit "AKKON_IN_CONTAINER") (lit "1")
    let engine ← detectContainerEngine
    return if engine ≠ [] ∧ engine ≠ lit "none" then env.set (lit "AKKON_CONTAINER_ENGINE") engine
      else env

/-- `if (env.find(name) == env.end()) env[name] = value`. -/
def setDefault (env : Map Bytes) (name : Bytes) (value : Sys Bytes) : Sys (Map Bytes) :=
  match env.find name with
  | some _ => return env
  | none => do
    let value ← value
    return env.set name value

/-- `setupEnvironment`. -/
def setupEnvironment (env : Map Bytes) : Sys (Map Bytes) := do
  let env ← containerEnvironment env
  let env ← setDefault env (lit "AKKON_BINARY") getBinaryPath
  let env := env.set (lit "AKKON_TEST_MODE") (lit "1")
  setDefault env (lit "AKKON_CWD") Sys.currentPath

/-- The loop of `runtime` over its variables. -/
def setAll : Map Bytes → Sys Unit
  | [] => return ()
  | (key, value) :: env => do
    let _ ← Sys.setenv key value
    setAll env

/-! ## The member functions -/

/-- `logs_dir / (tracker_id + ".log")`. -/
def logPath (logs_dir tracker_id : Bytes) : Bytes :=
  (if logs_dir.getLast? = some 47 then logs_dir else logs_dir ++ lit "/") ++ tracker_id ++
    lit ".log"

/-- The text in front of the lines that are logged for an instance. -/
def tag (tracker_id : Bytes) : Bytes := lit "[" ++ tracker_id ++ lit "] "

/-- `startProcess`. What the child does is not part of it. -/
def startProcess (m : Instances) (tracker_id : Bytes) (args : List Bytes) :
    Sys (Instances × Bool) :=
  match m.find tracker_id with
  | none => return (m, false)
  | some info => do
    let is_open ← Sys.appendLog info.log_file []
    if !is_open then return (m, false)
    else do
      let found ← Sys.fileExists info.binary_path
      if !found then do
        let _ ← Sys.appendLog info.log_file [lit "[ERROR] Binary not found: " ++ info.binary_path]
        return (m, false)
      else do
        let _ ← Sys.appendLog info.log_file
          ((tag tracker_id ++ lit "Starting process: " ++ info.binary_path) ::
            args.map (lit "  arg: " ++ ·))
        let pid ← Sys.fork
        match pid with
        | none => return (m, false)
        | some pid => do
          let _ ← Sys.appendLog info.log_file
            [tag tracker_id ++ lit "Process started with PID " ++ to_string pid.toNat]
          return (m.set tracker_id { info with pid := pid }, true)

/-- `createInstance`: the tracker id, empty where the instance could not be started. -/
def createInstance (m : Instances) (args : List Bytes) (log_dir : Bytes) :
    Sys (Instances × Bytes) := do
  let tracker_id ← generateTrackerId
  let logs_dir := if log_dir = [] then lit "test_logs" else log_dir
  let created ← Sys.createDirectories logs_dir
  if !created then return (m, [])
  else do
    let binary_path ← getBinaryPath
    let start_time ← Sys.systemNow
    let log_file := logPath logs_dir tracker_id
    let info : InstanceInfo :=
      { tracker_id, log_file, start_time, status := .starting, binary_path, args }
    let (m, started) ← startProcess (m.set tracker_id info) tracker_id args
    if !started then return (m.set tracker_id { info with status := .error }, [])
    else return (m.setStatus tracker_id .running, tracker_id)

/-- `getTracking`. -/
def getTracking (m : Instances) (tracker_id : Bytes) : InstanceInfo := (m.find tracker_id).getD {}

/-- The end of `getStatus`, by what `waitpid` has returned. -/
def polled (m : Instances) (tracker_id : Bytes) (status : InstanceStatus) :
    WaitResult → Instances × InstanceStatus
  | .running => (m, status)
  | .collected wstatus =>
    (m.setStatus tracker_id .stopped,
      { status with exit_code := wstatus.exit_code, status := .stopped })
  | .echild => (m.setStatus tracker_id .stopped, { status with status := .stopped })

/-- `getStatus`. -/
def getStatus (m : Instances) (tracker_id : Bytes) : Sys (Instances × InstanceStatus) :=
  match m.find tracker_id with
  | none => return (m, ⟨-1, [], .not_found, 0, [], -1⟩)
  | some info => do
    let now ← Sys.systemNow
    let lines ← Sys.readLines info.log_file
    let status : InstanceStatus :=
      { pid := info.pid
        tracker_id := info.tracker_id
        status := info.status
        uptime_ms := ((now - info.start_time) % 2 ^ 64).toNat
        last_log_line := lines.getLastD [] }
    if info.pid = -1 then return (m, status)
    else do
      let result ← Sys.waitpid info.pid true
      return polled m tracker_id status result

/-- `isRunning`. -/
def isRunning (m : Instances) (tracker_id : Bytes) : Sys (Instances × Bool) := do
  let (m, status) ← getStatus m tracker_id
  return (m, status.status == .running)

/-- `getExitCode`. -/
def getExitCode (m : Instances) (tracker_id : Bytes) : Sys (Instances × ℤ) := do
  let (m, status) ← getStatus m tracker_id
  return (m, status.exit_code)

/-- `getLogs`. -/
def getLogs (m : Instances) (tracker_id : Bytes) (num_lines : ℕ) : Sys (List Bytes) :=
  let info := getTracking m tracker_id
  if info.log_file = [] then return []
  else do
    let lines ← Sys.readLines info.log_file
    return if num_lines = 0 then lines else lines.drop (lines.length - num_lines)

/-- The loop of `waitForInstance`. -/
def waitLoop (tracker_id : Bytes) (timeout_ms : ℤ) (start : ℕ) :
    ℕ → Instances → Sys (Instances × Bool)
  | 0, _ => .op .spin Empty.elim
  | fuel + 1, m => do
    let (m, running) ← isRunning m tracker_id
    if !running then return (m, true)
    else do
      let now ← Sys.steadyNow
      if timeout_ms ≤ (now : ℤ) - start then return (m, false)
      else do
        let _ ← Sys.sleep 50
        waitLoop tracker_id timeout_ms start fuel m

/-- `waitForInstance`. Every round but the last one sleeps for at least 50 ms, so there is fuel for
all of them (`always_waitForInstance`). -/
def waitForInstance (m : Instances) (tracker_id : Bytes) (timeout_ms : ℤ) :
    Sys (Instances × Bool) := do
  let start ← Sys.steadyNow
  waitLoop tracker_id timeout_ms start (timeout_ms.toNat / 50 + 2) m

/-- The loop of `stopInstance` that gives the process two seconds. -/
def graceLoop (m : Instances) (tracker_id : Bytes) (pid : ℤ) : ℕ → Sys (Instances × Bool)
  | 0 => return (m, false)
  | i + 1 => do
    let res ← Sys.waitpid pid true
    match res with
    | .running => do
      let _ ← Sys.sleep 100
      graceLoop m tracker_id pid i
    | _ => return (m.setStatus tracker_id .stopped, true)

/-- `stopInstance`, behind the look-up of the pid. -/
def stopFound (m : Instances) (tracker_id : Bytes) (pid : ℤ) : Sys (Instances × Bool) := do
  let result ← Sys.waitpid pid true
  match result with
  | .collected _ => return (m.setStatus tracker_id .stopped, true)
  | _ => do
    -- nothing was collected: the child runs, or `waitpid` has failed
    let failed ← Sys.kill pid .SIGTERM
    match failed with
    | none => graceLoop m tracker_id pid 20
    | some .ESRCH => return (m.setStatus tracker_id .stopped, true)
    | some _ => return (m, false)

/-- `stopInstance`. -/
def stopInstance (m : Instances) (tracker_id : Bytes) : Sys (Instances × Bool) :=
  match m.find tracker_id with
  | none => return (m, false)
  | some info =>
    if info.pid = -1 then return (m, false)
    else do
      let _ ← Sys.enter info.pid
      stopFound m tracker_id info.pid

/-- `killInstance`, behind the look-up of the pid. -/
def killFound (m : Instances) (tracker_id : Bytes) (pid : ℤ) : Sys (Instances × Bool) := do
  let _ ← Sys.kill pid .SIGKILL
  let _ ← Sys.waitpid pid false
  return (m.setStatus tracker_id .stopped, true)

/-- `killInstance`. -/
def killInstance (m : Instances) (tracker_id : Bytes) : Sys (Instances × Bool) :=
  match m.find tracker_id with
  | none => return (m, false)
  | some info =>
    if info.pid = -1 then return (m, false)
    else do
      let _ ← Sys.enter info.pid
      killFound m tracker_id info.pid

/-- The loop of `cleanup` over the keys. -/
def cleanupLoop : List Bytes → Instances → Sys Instances
  | [], m => return m
  | tracker_id :: ids, m => do
    let (m, running) ← isRunning m tracker_id
    if running then do
      let (m, _) ← killInstance m tracker_id
      cleanupLoop ids m
    else cleanupLoop ids m

/-- `cleanup`. -/
def cleanup (m : Instances) : Sys Instances := do
  let _ ← cleanupLoop (m.map (·.1)) m
  return []

/-- What `runtime` asks for its log. -/
def containerLog : Sys Unit := do
  let in_container ← isContainerized
  if in_container then do
    let _ ← detectContainerEngine
    return ()
  else return ()

/-- `TIMEOUT_MS`. -/
def TIMEOUT_MS : ℤ := 300000

/-- `runtime`. -/
def runtime (m : Instances) (args : List Bytes) (env : Map Bytes) : Sys (Instances × ℤ) := do
  let runtime_env ← setupEnvironment env
  let _ ← setAll runtime_env
  let (m, tracker_id) ← createInstance m args (lit "test_logs")
  if tracker_id = [] then return (m, -1)
  else do
    let _ ← containerLog
    let (m, completed) ← waitForInstance m tracker_id TIMEOUT_MS
    if !completed then do
      let (m, _) ← killInstance m tracker_id
      return (m, -1)
    else do
      let (m, exit_code) ← getExitCode m tracker_id
      let _ ← getLogs m tracker_id 5
      let (m, _) ← stopInstance m tracker_id
      return (m, exit_code)

/-! ## Sequences of calls -/

/-- A call of a member function. -/
inductive Call
  | createInstance (args : List Bytes) (log_dir : Bytes)
  | getStatus (tracker_id : Bytes)
  | isRunning (tracker_id : Bytes)
  | getExitCode (tracker_id : Bytes)
  | waitForInstance (tracker_id : Bytes) (timeout_ms : ℤ)
  | stopInstance (tracker_id : Bytes)
  | killInstance (tracker_id : Bytes)
  | cleanup
  | runtime (args : List Bytes) (env : Map Bytes)
  deriving DecidableEq, Repr

/-- What the call does to `m_instances`. -/
def Call.perform (m : Instances) : Call → Sys Instances
  | .createInstance args log_dir => Prod.fst <$> TestSuite.createInstance m args log_dir
  | .getStatus tracker_id => Prod.fst <$> TestSuite.getStatus m tracker_id
  | .isRunning tracker_id => Prod.fst <$> TestSuite.isRunning m tracker_id
  | .getExitCode tracker_id => Prod.fst <$> TestSuite.getExitCode m tracker_id
  | .waitForInstance tracker_id timeout_ms =>
    Prod.fst <$> TestSuite.waitForInstance m tracker_id timeout_ms
  | .stopInstance tracker_id => Prod.fst <$> TestSuite.stopInstance m tracker_id
  | .killInstance tracker_id => Prod.fst <$> TestSuite.killInstance m tracker_id
  | .cleanup => TestSuite.cleanup m
  | .runtime args env => Prod.fst <$> TestSuite.runtime m args env

/-- One call after another. -/
def performAll : List Call → Instances → Sys Instances
  | [], m => return m
  | call :: calls, m => do
    let m ← call.perform m
    performAll calls m

end TestSuite
