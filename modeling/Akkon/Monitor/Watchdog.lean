import Akkon.Main.LogLines
import Akkon.ToMathlib.StepSystem

/-!
# The watchdog

`SystemMonitor::init` forks a watchdog. The threads of the server write their log lines into a pipe,
and the watchdog copies what it reads from the pipe into the log file until the server is gone.
Each of its iterations waits for the pipe, reads at most 1023 bytes, and then looks whether the
server is still its parent and still exists.

* `WatchdogRun`, `watchdogSystem`: the threads, the pipe and the watchdog, in any order of steps;
* `Relays`, `relays_of_reachable`: the log file has whole lines, each thread's in order, and what is
  missing is still in the pipe;
* `leavesNoLiveServer_iff`: the watchdog stays as long as the server lives, unless the server is
  process 1;
* `lastWords`: when the server has died, one more chunk is read at most.
-/

namespace Monitor

open Cpp

/-- Writes to a pipe of at most this many bytes are not split. -/
def PIPE_BUF : ℕ := 4096

/-- A call of `write` that has not returned. -/
structure Write where
  line : Bytes
  /-- The bytes of the line that are in the pipe already. -/
  done : ℕ
  deriving DecidableEq, Repr

/-- Where the loop of `runWatchdog` is. -/
inductive WatchdogPhase
  /-- It waits in `poll`. -/
  | polling
  /-- `poll` has reported `POLLIN`. -/
  | reading
  /-- It looks for the server process next. -/
  | checking
  /-- It has left, because the server process was missing or at the end of the pipe. -/
  | exited (missing : Bool)
  deriving DecidableEq, Repr

namespace WatchdogPhase

/-- The watchdog has closed its end of the pipe. -/
def hasExited : WatchdogPhase → Bool
  | exited _ => true
  | _ => false

/-- What is written behind the loop. -/
def ending : WatchdogPhase → Bytes
  | exited missing =>
    (if missing then lit "--- Main process exited ---\n" else []) ++
      lit "--- Watchdog Exiting ---\n"
  | _ => []

end WatchdogPhase

/-- The threads of the server, the pipe and the watchdog. -/
structure WatchdogRun (Thread : Type) where
  writing : Thread → Option Write
  /-- The server process exists. -/
  alive : Bool
  pipe : Bytes
  phase : WatchdogPhase
  /-- What the watchdog has appended. The same text goes to its standard output. -/
  log_file : Bytes
  /-- What the pipe has taken so far. -/
  accepted : Bytes
  /-- What the watchdog has read, call by call. -/
  chunks : List Bytes
  /-- The lines that a call of `write` was made for. -/
  logged : List (Thread × Bytes)
  /-- The lines that are in the pipe to their last byte. -/
  lines : List (Thread × Bytes)

namespace WatchdogRun

variable {Thread : Type}

/-- The line in front of the loop. -/
def startedLine (main_pid : ℕ) : Bytes :=
  lit "--- Watchdog Started (Monitoring PID " ++ to_string main_pid ++ lit ") ---\n"

/-- The start of the loop. -/
def start (main_pid : ℕ) : WatchdogRun Thread where
  writing _ := none
  alive := true
  pipe := []
  phase := .polling
  log_file := startedLine main_pid
  accepted := []
  chunks := []
  logged := []
  lines := []

/-- The watchdog leaves. -/
def leave (s : WatchdogRun Thread) (missing : Bool) : WatchdogRun Thread :=
  { s with
    phase := .exited missing
    log_file := s.log_file ++ (WatchdogPhase.exited missing).ending }

/-- Steps, with what the system calls return. -/
inductive Label (Thread : Type)
  | log (i : Thread) (level : LogLevel) (time_buf tracker_id message : Bytes)
  /-- The pipe takes `n` bytes of the line that the thread writes. -/
  | write (i : Thread) (n : ℕ)
  | exit
  | poll (pollin : Bool)
  /-- A read returns `n` bytes, or fails. -/
  | read (n : Option ℕ)
  | check (ppid : ℕ) (esrch : Bool)

section Step

variable [DecidableEq Thread]

/-- `SystemMonitor::log`, up to its call of `write`. -/
def log (s : WatchdogRun Thread) (s_debug_mode : Bool) (i : Thread) (level : LogLevel)
    (formatted : Bytes) : WatchdogRun Thread :=
  if !s_debug_mode && level != .ERROR then s
  else { s with
    writing := Function.update s.writing i (some ⟨formatted, 0⟩)
    logged := s.logged ++ [(i, formatted)] }

/-- The pipe takes `n` more bytes of a line. Without a reader the call fails and the line is lost. -/
def write (s : WatchdogRun Thread) (i : Thread) (w : Write) (n : ℕ) : WatchdogRun Thread :=
  if s.phase.hasExited then { s with writing := Function.update s.writing i none }
  else
    let piece := (w.line.drop w.done).take n
    if w.done + n = w.line.length then { s with
      writing := Function.update s.writing i none
      pipe := s.pipe ++ piece
      accepted := s.accepted ++ piece
      lines := s.lines ++ [(i, w.line)] }
    else { s with
      writing := Function.update s.writing i (some ⟨w.line, w.done + n⟩)
      pipe := s.pipe ++ piece
      accepted := s.accepted ++ piece }

/-- `read` into `buffer`, and the line `log_file << buffer`, which stops at a NUL. -/
def read (s : WatchdogRun Thread) (n : ℕ) : WatchdogRun Thread :=
  { s with
    pipe := s.pipe.drop n
    phase := .checking
    log_file := s.log_file ++ cStr (s.pipe.take n)
    chunks := s.chunks ++ [s.pipe.take n] }

/-- One step. -/
def step (s_debug_mode : Bool) (main_pid : ℕ) (s : WatchdogRun Thread) :
    Label Thread → Option (WatchdogRun Thread)
  | .log i level time_buf tracker_id message =>
    if s.alive = true ∧ s.writing i = none then
      some (s.log s_debug_mode i level (Main.formatLog time_buf level tracker_id message))
    else none
  | .write i n =>
    match s.writing i with
    | none => none
    | some w =>
      -- a short line is taken whole
      if s.alive = true ∧ 0 < n ∧ w.done + n ≤ w.line.length ∧
          (w.line.length ≤ PIPE_BUF → n = w.line.length) then some (s.write i w n)
      else none
  | .exit => if s.alive then some { s with alive := false, writing := fun _ => none } else none
  | .poll pollin =>
    -- an empty pipe is reported ready at most when it has no writer left
    if s.phase = .polling ∧ (pollin = true → s.pipe ≠ [] ∨ s.alive = false) then
      some { s with phase := if pollin then .reading else .checking }
    else none
  | .read none => if s.phase = .reading then some { s with phase := .checking } else none
  | .read (some n) =>
    if s.phase = .reading ∧ n ≤ 1023 ∧ n ≤ s.pipe.length ∧
        (n = 0 → s.pipe = [] ∧ s.alive = false) then
      some (if n = 0 then s.leave false else s.read n)
    else none
  | .check ppid esrch =>
    -- a living server is the parent, and `kill` finds it
    if s.phase = .checking ∧ (s.alive = true → ppid = main_pid ∧ esrch = false) then
      some (if ppid = 1 ∨ esrch = true then s.leave true else { s with phase := .polling })
    else none

end Step

end WatchdogRun

/-- The server and its watchdog. -/
def watchdogSystem (Thread : Type) [DecidableEq Thread] (s_debug_mode : Bool) (main_pid : ℕ) :
    StepSystem (WatchdogRun Thread) (WatchdogRun.Label Thread) where
  init s := s = .start main_pid
  step := WatchdogRun.step s_debug_mode main_pid

namespace WatchdogRun

variable {Thread : Type} [DecidableEq Thread]

/-! ## One step -/

/-- What a step does. -/
inductive StepCase (main_pid : ℕ) (s : WatchdogRun Thread) (l : Label Thread) :
    WatchdogRun Thread → Prop
  | filtered : StepCase main_pid s l s
  | log (i : Thread) (level : LogLevel) (time_buf tracker_id message : Bytes) :
    l = .log i level time_buf tracker_id message → s.writing i = none →
      StepCase main_pid s l { s with
        writing := Function.update s.writing i
          (some ⟨Main.formatLog time_buf level tracker_id message, 0⟩)
        logged := s.logged ++ [(i, Main.formatLog time_buf level tracker_id message)] }
  | refused (i : Thread) :
    s.phase.hasExited = true →
      StepCase main_pid s l { s with writing := Function.update s.writing i none }
  | part (i : Thread) (w : Write) (n : ℕ) :
    s.writing i = some w → s.phase.hasExited = false → PIPE_BUF < w.line.length →
      StepCase main_pid s l { s with
        writing := Function.update s.writing i (some ⟨w.line, w.done + n⟩)
        pipe := s.pipe ++ (w.line.drop w.done).take n
        accepted := s.accepted ++ (w.line.drop w.done).take n }
  | whole (i : Thread) (w : Write) :
    s.writing i = some w → s.alive = true → s.phase.hasExited = false →
      StepCase main_pid s l { s with
        writing := Function.update s.writing i none
        pipe := s.pipe ++ w.line.drop w.done
        accepted := s.accepted ++ w.line.drop w.done
        lines := s.lines ++ [(i, w.line)] }
  | exit : StepCase main_pid s l { s with alive := false, writing := fun _ => none }
  | turn (phase : WatchdogPhase) :
    s.phase.hasExited = false → phase.hasExited = false →
      StepCase main_pid s l { s with phase }
  | read (n : ℕ) : s.phase.hasExited = false → StepCase main_pid s l (s.read n)
  | leave (missing : Bool) :
    s.phase.hasExited = false → (s.alive = true → main_pid = 1) →
      StepCase main_pid s l (s.leave missing)

variable {s s' : WatchdogRun Thread} {s_debug_mode : Bool} {main_pid : ℕ} {l : Label Thread}

theorem write_cases {i : Thread} {w : Write} {n : ℕ} (hw : s.writing i = some w)
    (halive : s.alive = true)
    (hle : w.done + n ≤ w.line.length) (hn : 0 < n)
    (hshort : w.line.length ≤ PIPE_BUF → n = w.line.length) :
    StepCase main_pid s l (s.write i w n) := by
  unfold write
  split
  · next hexited => exact .refused i hexited
  · next hrunning =>
    rw [Bool.not_eq_true] at hrunning
    split
    · next hend =>
      -- the rest of the line
      have hpiece : (w.line.drop w.done).take n = w.line.drop w.done :=
        List.take_of_length_le (by rw [List.length_drop]; omega)
      simp only [hpiece]
      exact .whole i w hw halive hrunning
    · next hend =>
      refine .part i w n hw hrunning ?_
      by_contra hle'
      have := hshort (by omega)
      omega

/-- What a step does. -/
theorem step_cases (h : s.step s_debug_mode main_pid l = some s') : StepCase main_pid s l s' := by
  cases l with
  | log i level time_buf tracker_id message =>
    simp only [step, Option.ite_none_right_eq_some, Option.some.injEq] at h
    obtain ⟨⟨-, hi⟩, rfl⟩ := h
    unfold log
    split
    · exact .filtered
    · exact .log i level time_buf tracker_id message rfl hi
  | write i n =>
    simp only [step] at h
    split at h
    · cases h
    · next w hw =>
      simp only [Option.ite_none_right_eq_some, Option.some.injEq] at h
      obtain ⟨⟨halive, hn, hle, hshort⟩, rfl⟩ := h
      exact write_cases hw halive hle hn hshort
  | exit =>
    simp only [step, Option.ite_none_right_eq_some, Option.some.injEq] at h
    obtain ⟨-, rfl⟩ := h
    exact .exit
  | poll pollin =>
    simp only [step, Option.ite_none_right_eq_some, Option.some.injEq] at h
    obtain ⟨⟨hphase, -⟩, rfl⟩ := h
    exact .turn _ (by rw [hphase]; rfl) (by cases pollin <;> rfl)
  | read n =>
    cases n with
    | none =>
      simp only [step, Option.ite_none_right_eq_some, Option.some.injEq] at h
      obtain ⟨hphase, rfl⟩ := h
      exact .turn _ (by rw [hphase]; rfl) rfl
    | some n =>
      simp only [step, Option.ite_none_right_eq_some, Option.some.injEq] at h
      obtain ⟨⟨hphase, -, -, hend⟩, rfl⟩ := h
      split
      · next hn => exact .leave false (by rw [hphase]; rfl) (by simp [(hend hn).2])
      · exact .read n (by rw [hphase]; rfl)
  | check ppid esrch =>
    simp only [step, Option.ite_none_right_eq_some, Option.some.injEq] at h
    obtain ⟨⟨hphase, halive⟩, rfl⟩ := h
    split
    · next hmissing =>
      refine .leave true (by rw [hphase]; rfl) fun h => ?_
      obtain ⟨rfl, rfl⟩ := halive h
      simpa using hmissing
    · exact .turn _ (by rw [hphase]; rfl) rfl

/-! ## The copy -/

/-- What is read is what the pipe has taken, up to what it still holds, and each chunk is copied up
to its first NUL. -/
structure Copies (main_pid : ℕ) (s : WatchdogRun Thread) : Prop where
  queued : s.chunks.flatten ++ s.pipe = s.accepted
  text : s.log_file = startedLine main_pid ++ (s.chunks.flatMap cStr ++ s.phase.ending)

theorem ending_of_hasExited {phase : WatchdogPhase} (h : phase.hasExited = false) :
    phase.ending = [] := by
  cases phase with
  | exited missing => cases h
  | _ => rfl

theorem Copies.step (h : Copies main_pid s) (hstep : StepCase main_pid s l s') :
    Copies main_pid s' := by
  cases hstep with
  | filtered => exact h
  | log i level time_buf tracker_id message _ _ => exact ⟨h.queued, h.text⟩
  | refused i _ => exact ⟨h.queued, h.text⟩
  | part i w n _ _ _ => exact ⟨by simp [← h.queued], h.text⟩
  | whole i w _ _ _ => exact ⟨by simp [← h.queued], h.text⟩
  | exit => exact ⟨h.queued, h.text⟩
  | turn phase hphase hphase' =>
    refine ⟨h.queued, ?_⟩
    rw [ending_of_hasExited hphase']
    exact ending_of_hasExited hphase ▸ h.text
  | read n hphase =>
    have hending : (WatchdogPhase.checking).ending = [] := rfl
    refine ⟨by simp [WatchdogRun.read, ← h.queued], ?_⟩
    simp [WatchdogRun.read, h.text, ending_of_hasExited hphase, hending]
  | leave missing hphase _ =>
    refine ⟨h.queued, ?_⟩
    simp [WatchdogRun.leave, h.text, ending_of_hasExited hphase]

theorem copies_of_reachable (h : (watchdogSystem Thread s_debug_mode main_pid).Reachable s) :
    Copies main_pid s := by
  refine h.invariant ?_ fun s l s' hs _ hstep => hs.step (step_cases hstep)
  rintro s rfl
  exact ⟨rfl, by simp [start, WatchdogPhase.ending]⟩

/-! ## Lines -/

/-- The lines of one thread. -/
def linesOf (i : Thread) (lines : List (Thread × Bytes)) : List Bytes :=
  (lines.filter (·.1 = i)).map Prod.snd

/-- The line that a thread writes. -/
def unwritten (s : WatchdogRun Thread) (i : Thread) : List Bytes :=
  ((s.writing i).map Write.line).toList

/-- A line that is logged has no NUL, and one write takes it whole. -/
def Plain : Label Thread → Prop
  | .log _ level time_buf tracker_id message =>
    0 ∉ Main.formatLog time_buf level tracker_id message ∧
      (Main.formatLog time_buf level tracker_id message).length ≤ PIPE_BUF
  | _ => True

/-- The log file has whole lines, up to a cut at the end. -/
structure Relays (main_pid : ℕ) (s : WatchdogRun Thread) : Prop where
  text : s.log_file = startedLine main_pid ++ (s.chunks.flatten ++ s.phase.ending)
  /-- Behind the cut everything is still in the pipe. -/
  queued : s.chunks.flatten ++ s.pipe = (s.lines.map Prod.snd).flatten
  /-- Each thread's lines are there once, in its order. -/
  inOrder : ∀ i, linesOf i s.lines <+: linesOf i s.logged
  /-- While both processes run, only a line that is being written is missing. -/
  complete : s.alive = true → s.phase.hasExited = false →
    ∀ i, linesOf i s.lines ++ s.unwritten i = linesOf i s.logged

/-- The lines on their way are plain, and none of them is in the pipe in part. -/
structure LinesInv (s : WatchdogRun Thread) : Prop where
  writing : ∀ i w, s.writing i = some w → w.done = 0 ∧ 0 ∉ w.line ∧ w.line.length ≤ PIPE_BUF
  accepted : s.accepted = (s.lines.map Prod.snd).flatten
  nulFree : 0 ∉ s.accepted
  inOrder : ∀ i, linesOf i s.lines <+: linesOf i s.logged
  complete : s.alive = true → s.phase.hasExited = false →
    ∀ i, linesOf i s.lines ++ s.unwritten i = linesOf i s.logged

theorem linesOf_append_self (i : Thread) (lines : List (Thread × Bytes)) (line : Bytes) :
    linesOf i (lines ++ [(i, line)]) = linesOf i lines ++ [line] := by
  simp [linesOf]

theorem linesOf_append_of_ne {i j : Thread} (h : j ≠ i) (lines : List (Thread × Bytes))
    (line : Bytes) : linesOf i (lines ++ [(j, line)]) = linesOf i lines := by
  simp [linesOf, h]

theorem LinesInv.step (h : LinesInv s) (hl : Plain l) (hstep : StepCase main_pid s l s') :
    LinesInv s' := by
  have hwriting (i : Thread) (w : Option Write)
      (hw : ∀ w', w = some w' → w'.done = 0 ∧ 0 ∉ w'.line ∧ w'.line.length ≤ PIPE_BUF) :
      ∀ j w', Function.update s.writing i w j = some w' →
        w'.done = 0 ∧ 0 ∉ w'.line ∧ w'.line.length ≤ PIPE_BUF := by
    intro j w' hj
    rw [Function.update_apply] at hj
    split at hj
    · exact hw w' hj
    · exact h.writing j w' hj
  cases hstep with
  | filtered => exact h
  | log i level time_buf tracker_id message heq hi =>
    subst heq
    refine ⟨hwriting i _ ?_, h.accepted, h.nulFree, fun j => ?_, fun halive hrunning j => ?_⟩
    · intro w hw
      obtain rfl := Option.some.inj hw
      exact ⟨rfl, hl⟩
    · exact (h.inOrder j).trans (by simp [linesOf])
    · have hcomplete := h.complete halive hrunning j
      rcases eq_or_ne i j with rfl | hne
      · have hnone : s.unwritten i = [] := by simp [unwritten, hi]
        rw [hnone, List.append_nil] at hcomplete
        rw [linesOf_append_self]
        simp [unwritten, hcomplete]
      · rw [linesOf_append_of_ne hne]
        simpa [unwritten, hne.symm] using hcomplete
  | refused i hexited =>
    refine ⟨hwriting i none (by simp), h.accepted, h.nulFree, h.inOrder, fun _ hrunning => ?_⟩
    -- there is no reader left
    rw [hexited] at hrunning
    cases hrunning
  | part i w n hw hrunning hlong =>
    -- a plain line is not split
    exact absurd (h.writing i w hw).2.2 (by omega)
  | whole i w hw halive hrunning =>
    obtain ⟨hdone, hnul, -⟩ := h.writing i w hw
    have hpiece : w.line.drop w.done = w.line := by rw [hdone, List.drop_zero]
    simp only [hpiece]
    -- the line moves from what is being written to what is written
    have hcomplete (j : Thread) : linesOf j (s.lines ++ [(i, w.line)]) ++
        unwritten { s with writing := Function.update s.writing i none } j =
          linesOf j s.logged := by
      rw [← h.complete halive hrunning j]
      rcases eq_or_ne j i with rfl | hne
      · simp [linesOf_append_self, unwritten, hw]
      · rw [linesOf_append_of_ne hne.symm]
        simp [unwritten, hne]
    refine ⟨hwriting i none (by simp), by simp [h.accepted], by simp [h.nulFree, hnul],
      fun j => ?_, fun _ _ => hcomplete⟩
    exact (hcomplete j) ▸ List.prefix_append _ _
  | exit =>
    refine ⟨by simp, h.accepted, h.nulFree, h.inOrder, fun halive => ?_⟩
    cases halive
  | turn phase hphase hphase' =>
    exact ⟨h.writing, h.accepted, h.nulFree, h.inOrder, fun halive _ => h.complete halive hphase⟩
  | read n hphase =>
    exact ⟨h.writing, h.accepted, h.nulFree, h.inOrder, fun halive _ => h.complete halive hphase⟩
  | leave missing hphase _ =>
    exact ⟨h.writing, h.accepted, h.nulFree, h.inOrder, fun _ hrunning => nomatch hrunning⟩

theorem linesInv_of_reachable
    (h : (watchdogSystem Thread s_debug_mode main_pid).ReachableUnder (fun _ => Plain) s) :
    LinesInv s := by
  refine h.invariant ?_ fun s l s' hs hl hstep => hs.step hl (step_cases hstep)
  rintro s rfl
  refine ⟨by simp [start], rfl, by simp [start], fun i => List.prefix_refl _, fun _ _ i => ?_⟩
  simp [start, unwritten, linesOf]

/-- Where every line is plain, the log file has the lines in the order the pipe took them, each
thread's lines in its order, and is cut where the pipe begins. -/
theorem relays_of_reachable
    (h : (watchdogSystem Thread s_debug_mode main_pid).ReachableUnder (fun _ => Plain) s) :
    Relays main_pid s := by
  have hcopies := copies_of_reachable (h.mono fun _ _ _ => trivial)
  have hlines := linesInv_of_reachable h
  refine ⟨?_, hcopies.queued.trans hlines.accepted, hlines.inOrder, hlines.complete⟩
  -- no chunk is cut at a NUL
  have hchunks : s.chunks.flatMap cStr = s.chunks.flatten := by
    rw [List.flatMap_def, List.map_congr_left (g := id) fun chunk hchunk => ?_, List.map_id]
    refine cStr_eq_self fun hnul => hlines.nulFree ?_
    rw [← hcopies.queued]
    exact List.mem_append_left _ (List.mem_flatten.mpr ⟨chunk, hchunk, hnul⟩)
  rw [hcopies.text, hchunks]

/-! ## Leaving -/

/-- The watchdog never leaves a server that is alive, except as the watchdog of process 1: then its
parent always looks like the process that adopts orphans. -/
theorem leavesNoLiveServer_iff :
    (∀ s, (watchdogSystem Thread s_debug_mode main_pid).Reachable s →
      s.phase.hasExited = true → s.alive = false) ↔ main_pid ≠ 1 := by
  constructor
  · rintro h rfl
    have hrun : (watchdogSystem Thread s_debug_mode 1).runFrom (start 1)
        [.poll false, .check 1 false] =
          some (leave { start 1 with phase := .checking } true) := by
      simp [watchdogSystem, WatchdogRun.step, start]
    have hreach := StepSystem.Reachable.runFrom (.init rfl) hrun
    exact absurd (h _ hreach rfl) (by simp [leave, start])
  · intro hpid s h
    refine h.invariant (I := fun s => s.phase.hasExited = true → s.alive = false) ?_ ?_
    · rintro s rfl hexited
      cases hexited
    · intro s l s' hs _ hstep
      have hcase := step_cases hstep
      cases hcase with
      | exit => exact fun _ => rfl
      | turn phase _ hphase' => exact fun hexited => absurd hexited (by simp [hphase'])
      | read n hphase => exact fun hexited => nomatch hexited
      | leave missing _ halive =>
        exact fun _ => Bool.eq_false_iff.mpr fun h => hpid (halive h)
      | _ => exact hs

/-- The steps that are left when the server is gone. -/
def stepsLeft : WatchdogPhase → ℕ
  | .polling => 3
  | .reading => 2
  | .checking => 1
  | .exited _ => 0

/-- The reads that are left when the server is gone. -/
def readsLeft : WatchdogPhase → ℕ
  | .polling => 1
  | .reading => 1
  | .checking => 0
  | .exited _ => 0

/-- A check that finds the server gone. -/
def FindsMissing : Label Thread → Prop
  | .check ppid esrch => ppid = 1 ∨ esrch = true
  | _ => True

theorem step_of_dead (hdead : s.alive = false) (hl : FindsMissing l)
    (h : s.step s_debug_mode main_pid l = some s') :
    s'.alive = false ∧ stepsLeft s'.phase + 1 ≤ stepsLeft s.phase ∧
      s.pipe.length + 1023 * readsLeft s'.phase ≤ s'.pipe.length + 1023 * readsLeft s.phase := by
  cases l with
  | log i level time_buf tracker_id message => simp [WatchdogRun.step, hdead] at h
  | write i n =>
    simp only [WatchdogRun.step, hdead] at h
    split at h <;> simp at h
  | exit => simp [WatchdogRun.step, hdead] at h
  | poll pollin =>
    simp only [WatchdogRun.step, Option.ite_none_right_eq_some, Option.some.injEq] at h
    obtain ⟨⟨hphase, -⟩, rfl⟩ := h
    cases pollin <;> simp [hdead, hphase, stepsLeft, readsLeft]
  | read n =>
    cases n with
    | none =>
      simp only [WatchdogRun.step, Option.ite_none_right_eq_some, Option.some.injEq] at h
      obtain ⟨hphase, rfl⟩ := h
      simp [hdead, hphase, stepsLeft, readsLeft]
    | some n =>
      simp only [WatchdogRun.step, Option.ite_none_right_eq_some, Option.some.injEq] at h
      obtain ⟨⟨hphase, hle, -, -⟩, rfl⟩ := h
      split
      · simp [leave, hdead, hphase, stepsLeft, readsLeft]
      · refine ⟨hdead, by simp [WatchdogRun.read, hphase, stepsLeft], ?_⟩
        simp only [WatchdogRun.read, hphase, readsLeft, List.length_drop]
        omega
  | check ppid esrch =>
    simp only [WatchdogRun.step, Option.ite_none_right_eq_some, Option.some.injEq] at h
    obtain ⟨⟨hphase, -⟩, rfl⟩ := h
    rw [if_pos (show ppid = 1 ∨ esrch = true from hl)]
    simp [leave, hdead, hphase, stepsLeft, readsLeft]

theorem runFrom_of_dead (hdead : s.alive = false) {ls : List (Label Thread)}
    (hgone : ∀ l ∈ ls, FindsMissing l)
    (hrun : (watchdogSystem Thread s_debug_mode main_pid).runFrom s ls = some s') :
    s'.alive = false ∧ stepsLeft s'.phase + ls.length ≤ stepsLeft s.phase ∧
      s.pipe.length + 1023 * readsLeft s'.phase ≤ s'.pipe.length + 1023 * readsLeft s.phase := by
  induction ls generalizing s with
  | nil =>
    obtain rfl := Option.some.inj hrun
    exact ⟨hdead, Nat.le_refl _, Nat.le_refl _⟩
  | cons l ls ih =>
    obtain ⟨t, ht, hrest⟩ := Option.bind_eq_some_iff.mp hrun
    obtain ⟨htdead, hsteps, hpipe⟩ := step_of_dead hdead (hgone l (by simp)) ht
    obtain ⟨hdead', hsteps', hpipe'⟩ := ih htdead (fun l hl => hgone l (by simp [hl])) hrest
    refine ⟨hdead', ?_, by omega⟩
    rw [List.length_cons]
    omega

/-- When the server has died, the watchdog leaves within three steps and reads at most 1023 bytes of
what is in the pipe. -/
theorem lastWords (hdead : s.alive = false) {ls : List (Label Thread)}
    (hgone : ∀ l ∈ ls, FindsMissing l)
    (hrun : (watchdogSystem Thread s_debug_mode main_pid).runFrom s ls = some s') :
    ls.length ≤ 3 ∧ s.pipe.length ≤ s'.pipe.length + 1023 ∧
      (s'.phase.hasExited = false → ∃ l, FindsMissing l ∧
        ((watchdogSystem Thread s_debug_mode main_pid).step s' l).isSome = true) := by
  obtain ⟨hdead', hsteps, hpipe⟩ := runFrom_of_dead hdead hgone hrun
  have hstepsLeft (phase : WatchdogPhase) : stepsLeft phase ≤ 3 := by
    cases phase <;> simp [stepsLeft]
  have hreadsLeft (phase : WatchdogPhase) : readsLeft phase ≤ 1 := by
    cases phase <;> simp [readsLeft]
  have := hstepsLeft s.phase
  have := hreadsLeft s.phase
  refine ⟨by omega, by omega, fun hrunning => ?_⟩
  cases hphase : s'.phase with
  | polling => exact ⟨.poll false, trivial, by simp [watchdogSystem, WatchdogRun.step, hphase]⟩
  | reading => exact ⟨.read none, trivial, by simp [watchdogSystem, WatchdogRun.step, hphase]⟩
  | checking =>
    refine ⟨.check 1 false, Or.inl rfl, ?_⟩
    simp [watchdogSystem, WatchdogRun.step, hphase, hdead']
  | exited missing => simp [hphase, WatchdogPhase.hasExited] at hrunning

/-- Two threads write a line each, and the watchdog has read the second of them and a part of the
first when the server dies. -/
def cutLine : List (Label (Fin 2)) :=
  [.log 0 .ERROR (lit "t") (lit "A") (lit "x"), .log 1 .ERROR (lit "t") (lit "B") (lit "y"),
    .write 1 18, .write 0 18, .poll true, .read (some 20), .exit, .check 1 false]

instance {Thread : Type} : DecidablePred (@Plain Thread)
  | .log _ _ _ _ _ => inferInstanceAs (Decidable (_ ∧ _))
  | .write _ _ => .isTrue trivial
  | .exit => .isTrue trivial
  | .poll _ => .isTrue trivial
  | .read _ => .isTrue trivial
  | .check _ _ => .isTrue trivial

theorem relays_of_reachable_cutLine :
    ∃ s, (watchdogSystem (Fin 2) false 2409).ReachableUnder (fun _ => Plain) s ∧
      s.pipe.length = 16 ∧ Relays 2409 s := by
  have hrun : (((watchdogSystem (Fin 2) false 2409).restrict fun _ => Plain).runFrom (start 2409)
      cutLine).any (fun s => s.pipe.length == 16) = true := by decide
  obtain ⟨s, hs, hpipe⟩ := StepSystem.exists_reachable_of_any rfl hrun
  exact ⟨s, hs.of_restrict, beq_iff_eq.mp hpipe, relays_of_reachable hs.of_restrict⟩

/-- A server that has died with ten bytes in the pipe. -/
def deadServer : WatchdogRun (Fin 2) := { start 2409 with alive := false, pipe := lit "last words" }

/-- The watchdog reads four of them and leaves. -/
def lastSteps : List (Label (Fin 2)) := [.poll true, .read (some 4), .check 1 false]

theorem lastWords_deadServer :
    ∃ s', (watchdogSystem (Fin 2) false 2409).runFrom deadServer lastSteps = some s' ∧
      s'.pipe = lit " words" ∧ lastSteps.length ≤ 3 ∧
        deadServer.pipe.length ≤ s'.pipe.length + 1023 := by
  have hgone : ∀ l ∈ lastSteps, FindsMissing l := by
    simp [lastSteps, FindsMissing]
  obtain ⟨s', hrun, hpipe⟩ := (Option.any_eq_true (fun s : WatchdogRun (Fin 2) =>
    s.pipe == lit " words") ((watchdogSystem (Fin 2) false 2409).runFrom deadServer lastSteps)).mp
      (by decide)
  obtain ⟨hlength, hle, -⟩ := lastWords rfl hgone hrun
  exact ⟨s', hrun, beq_iff_eq.mp hpipe, hlength, hle⟩

end WatchdogRun

end Monitor
