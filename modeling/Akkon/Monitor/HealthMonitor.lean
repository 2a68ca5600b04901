import Akkon.Security.LocalAlarm
import Akkon.ToMathlib.Binary64

/-!
# `monitor::HealthMonitor`

The reliability score of `checkHealth`, from the free disk space, the memory in use and the health
of the drive, which is asked for every five minutes at most.

* `HealthMonitor.checkHealth`: the function, by what the calls of the system give it;
* `reliability`: the score in integers, and `score_eq`, which compares it with the one computed in
  double precision;
* `judged_of_reachable`: in every run of calls each score rests on an answer of the drive that is
  recent, and the drive is not asked again before its answer is old.
-/

namespace Monitor

open Cpp Security

/-- `HealthStats`. -/
structure HealthStats where
  available_disk_bytes : ℕ
  reliability_score : ℤ
  deriving DecidableEq, Repr

namespace HealthMonitor

/-- The static variables of `checkHealth`. The clock counts nanoseconds. -/
structure SmartCache where
  cached_smart_verified : Bool
  cached_smart_error : Bytes
  last_smart_check : ℤ
  deriving DecidableEq, Repr

/-- What the calls of the system in one `checkHealth` give. -/
structure Reading where
  /-- The free bytes of the file system of `db`, or the text of an exception. -/
  space : Except Bytes ℕ
  now : ℤ
  /-- `is_smart_verified` and `smart_error`, as the platform's check leaves them. -/
  smart : Bool × Bytes

/-- The variables when `checkHealth` is called first: the last check is an hour ago. -/
def SmartCache.initial (now : ℤ) : SmartCache := ⟨true, [], now - 3600 * 10 ^ 9⟩

/-- `std::chrono::duration_cast<std::chrono::seconds>`. -/
def seconds (nanoseconds : ℤ) : ℤ := nanoseconds.tdiv (10 ^ 9)

/-- The drive is asked again. -/
def SmartCache.Expired (cache : SmartCache) (now : ℤ) : Prop :=
  300 < seconds (now - cache.last_smart_check)

instance (cache : SmartCache) (now : ℤ) : Decidable (cache.Expired now) :=
  inferInstanceAs (Decidable (300 < seconds (now - cache.last_smart_check)))

/-- The answer of a drive that is asked. -/
def Reading.answer (reading : Reading) : SmartCache :=
  ⟨reading.smart.1, reading.smart.2, reading.now⟩

/-- The variables behind the check of the drive. -/
def SmartCache.refreshed (cache : SmartCache) (reading : Reading) : SmartCache :=
  if cache.Expired reading.now then reading.answer else cache

/-- The log and `stats.reliability_score`, as they are changed on the way. -/
abbrev Scored := LifecycleManager × ℤ

/-- What a failing drive costs. -/
def scoreSmart (cache : SmartCache) : Scored → Scored
  | (m, score) =>
    if !cache.cached_smart_verified then
      (m.logged .WARNING (lit "S.M.A.R.T. Health Check failed or drive is failing: " ++
        cache.cached_smart_error), score - 50)
    else (m, score)

/-- What missing disk space costs. -/
def scoreDisk (available : ℕ) : Scored → Scored
  | (m, score) =>
    if available < 50 * 1024 * 1024 then (Monitor.checkHealth m available, 0)
    else if available < 200 * 1024 * 1024 then (m, score - 30)
    else (m, score)

/-- `ram_usage` is at least the constant that is written as so many hundredths. -/
def usageReaches (hundredths ram_allocated ram_capacity : ℕ) : Bool :=
  Binary64.nearest (hundredths / (100 : ℕ)) ≤ Binary64.quotient ram_allocated ram_capacity

/-- What memory in use costs. -/
def scoreMemory (ram_allocated ram_capacity : ℕ) : Scored → Scored
  | (m, score) =>
    if 0 < ram_capacity then
      if usageReaches 99 ram_allocated ram_capacity then
        (m.logged .WARNING (lit "RAM usage extremely high! (>99% of capacity)"), score - 80)
      else if usageReaches 95 ram_allocated ram_capacity then
        (m.logged .WARNING (lit "RAM usage high! (>95% of capacity)"), score - 40)
      else if usageReaches 90 ram_allocated ram_capacity then
        (m.logged .WARNING (lit "RAM usage elevated! (>90% of capacity)"), score - 20)
      else (m, score)
    else (m, score)

/-- `checkHealth`: the state and the log, the static variables, and the result. -/
def checkHealth (m : LifecycleManager) (cache : SmartCache) (reading : Reading)
    (ram_allocated ram_capacity : ℕ) : LifecycleManager × SmartCache × HealthStats :=
  match reading.space with
  | .error what => (m.logged .ERROR (lit "Disk health check failed: " ++ what), cache, ⟨0, 0⟩)
  | .ok available =>
    let cache := cache.refreshed reading
    let scored :=
      scoreMemory ram_allocated ram_capacity (scoreDisk available (scoreSmart cache (m, 100)))
    (scored.1, cache, ⟨available, if scored.2 < 0 then 0 else scored.2⟩)

/-! ## The score in integers -/

/-- The percentage of the memory in use, as far as it matters. -/
def memoryCost (ram_allocated ram_capacity : ℕ) : ℤ :=
  if ram_capacity = 0 then 0
  else if 99 * ram_capacity ≤ 100 * ram_allocated then 80
  else if 95 * ram_capacity ≤ 100 * ram_allocated then 40
  else if 90 * ram_capacity ≤ 100 * ram_allocated then 20
  else 0

/-- The score: nothing is left where the disk is nearly full. -/
def reliability (verified : Bool) (available ram_allocated ram_capacity : ℕ) : ℤ :=
  if available < 50 * 1024 * 1024 then 0
  else max 0 (100 - (if verified then 0 else 50) -
    (if available < 200 * 1024 * 1024 then 30 else 0) - memoryCost ram_allocated ram_capacity)

/-- The sizes for which double precision is exact enough: the products below stay far under
`2 ^ 52`. -/
def Representable (ram_allocated ram_capacity : ℕ) : Prop :=
  ram_allocated < 2 ^ 45 ∧ ram_capacity < 2 ^ 45

variable {ram_allocated ram_capacity : ℕ}

/-- The comparison in double precision is the one of the integers. -/
theorem usageReaches_eq {hundredths : ℕ} (h : hundredths ≤ 100)
    (hsize : Representable ram_allocated ram_capacity) (hcap : 0 < ram_capacity) :
    usageReaches hundredths ram_allocated ram_capacity =
      decide (hundredths * ram_capacity ≤ 100 * ram_allocated) := by
  obtain ⟨hallocated, hcapacity⟩ := hsize
  exact decide_eq_decide.mpr (Binary64.nearest_le_quotient_iff (by decide) hcap h
    (by omega) (by omega))

theorem scoreMemory_snd (hsize : Representable ram_allocated ram_capacity) (scored : Scored) :
    (scoreMemory ram_allocated ram_capacity scored).2 =
      scored.2 - memoryCost ram_allocated ram_capacity := by
  obtain ⟨m, score⟩ := scored
  rcases Nat.eq_zero_or_pos ram_capacity with rfl | hcap
  · simp [scoreMemory, memoryCost]
  · rw [scoreMemory, if_pos hcap, memoryCost, if_neg hcap.ne',
      usageReaches_eq (by decide) hsize hcap, usageReaches_eq (by decide) hsize hcap,
      usageReaches_eq (by decide) hsize hcap]
    simp only [decide_eq_true_eq]
    split_ifs <;> simp

theorem memoryCost_nonneg (ram_allocated ram_capacity : ℕ) :
    0 ≤ memoryCost ram_allocated ram_capacity := by
  unfold memoryCost
  split_ifs <;> decide

/-- What `checkHealth` computes in double precision is the score in integers. -/
theorem score_eq (hsize : Representable ram_allocated ram_capacity) (m : LifecycleManager)
    (cache : SmartCache) {reading : Reading} {available : ℕ}
    (hspace : reading.space = .ok available) :
    (checkHealth m cache reading ram_allocated ram_capacity).2.2 =
      ⟨available, reliability (cache.refreshed reading).cached_smart_verified available
        ram_allocated ram_capacity⟩ := by
  have hcost := memoryCost_nonneg ram_allocated ram_capacity
  rw [checkHealth, hspace]
  simp only [scoreMemory_snd hsize, HealthStats.mk.injEq, true_and]
  rw [reliability, scoreSmart, scoreDisk]
  split_ifs <;> simp_all <;> omega

theorem reliability_nonneg (verified : Bool) (available : ℕ) :
    0 ≤ reliability verified available ram_allocated ram_capacity := by
  unfold reliability
  split_ifs <;> simp

theorem reliability_le (verified : Bool) (available : ℕ) :
    reliability verified available ram_allocated ram_capacity ≤ 100 := by
  have hcost := memoryCost_nonneg ram_allocated ram_capacity
  unfold reliability
  split_ifs <;> omega

/-- To the lockdown state `checkHealth` does what the check of the disk does. -/
theorem getLockdownState_checkHealth (m : LifecycleManager) (cache : SmartCache)
    {reading : Reading} {available : ℕ} (hspace : reading.space = .ok available) :
    (checkHealth m cache reading ram_allocated ram_capacity).1.getLockdownState =
      (Monitor.checkHealth m available).getLockdownState := by
  have hmemory (scored : Scored) :
      (scoreMemory ram_allocated ram_capacity scored).1.getLockdownState =
        scored.1.getLockdownState := by
    obtain ⟨m, score⟩ := scored
    rw [scoreMemory]
    split_ifs <;> rfl
  have hsmart (cache : SmartCache) : (scoreSmart cache (m, 100)).1.getLockdownState =
      m.getLockdownState := by
    rw [scoreSmart]
    split_ifs <;> rfl
  rw [checkHealth, hspace]
  simp only [hmemory]
  have hkept := hsmart (cache.refreshed reading)
  rcases hscored : scoreSmart (cache.refreshed reading) (m, 100) with ⟨m', score⟩
  rw [hscored] at hkept
  unfold scoreDisk Monitor.checkHealth
  split_ifs
  · rfl
  · exact hkept
  · exact hkept

/-! ## Runs -/

/-- A call, with what the calls of the system in it give. -/
structure Call where
  reading : Reading
  ram_allocated : ℕ
  ram_capacity : ℕ

/-- A call that has returned, and whether it asked the drive. -/
structure Judged where
  call : Call
  asked : Bool
  stats : HealthStats

/-- The state between two calls. -/
structure HealthRun where
  lifecycle : LifecycleManager
  cache : SmartCache
  /-- The clock at the last call. -/
  clock : ℤ
  history : List Judged

/-- The call asks the drive. -/
def Asks (cache : SmartCache) (reading : Reading) : Bool :=
  match reading.space with
  | .error _ => false
  | .ok _ => cache.Expired reading.now

/-- The state behind a call. -/
def HealthRun.judge (run : HealthRun) (call : Call) : HealthRun :=
  let result := checkHealth run.lifecycle run.cache call.reading call.ram_allocated
    call.ram_capacity
  { lifecycle := result.1
    cache := result.2.1
    clock := call.reading.now
    history := run.history ++ [⟨call, Asks run.cache call.reading, result.2.2⟩] }

/-- One call after another, by a clock that does not go back. -/
def healthSystem (start : ℤ) : StepSystem HealthRun Call where
  init run := ∃ m, run = ⟨m, .initial start, start, []⟩
  step run call := if run.clock ≤ call.reading.now then some (run.judge call) else none

/-- The score of the call rests on the answer that was given to `source`, at most 300 whole seconds
earlier. -/
def Judged.RestsOn (judged source : Judged) : Prop :=
  source.asked = true ∧ source.call.reading.now ≤ judged.call.reading.now ∧
    seconds (judged.call.reading.now - source.call.reading.now) ≤ 300 ∧
    ∀ available, judged.call.reading.space = .ok available →
      Representable judged.call.ram_allocated judged.call.ram_capacity →
        judged.stats = ⟨available, reliability source.call.reading.smart.1 available
          judged.call.ram_allocated judged.call.ram_capacity⟩

/-- What holds between two calls. -/
structure HealthRun.Kept (start : ℤ) (run : HealthRun) : Prop where
  /-- The variables are as at the start, or hold the answer that was given last. -/
  cache_origin : (run.cache = .initial start ∧ ∀ judged ∈ run.history, judged.asked = false) ∨
    ∃ source ∈ run.history, source.asked = true ∧ run.cache = source.call.reading.answer
  start_le : start ≤ run.clock
  /-- No call was later than the last one, and no answer is newer than the one that is kept. -/
  past : ∀ judged ∈ run.history, judged.call.reading.now ≤ run.clock ∧
    (judged.asked = true → judged.call.reading.now ≤ run.cache.last_smart_check)
  judged : ∀ judged ∈ run.history, ∀ available, judged.call.reading.space = .ok available →
    ∃ source ∈ run.history, judged.RestsOn source
  apart : run.history.Pairwise fun first second => first.asked = true → second.asked = true →
    300 < seconds (second.call.reading.now - first.call.reading.now)

variable {start : ℤ} {run run' : HealthRun} {call : Call}

theorem lt_seconds_iff (n : ℤ) : 300 < seconds n ↔ 301 * 10 ^ 9 ≤ n := by
  rcases le_total 0 n with hn | hn
  · rw [seconds, Int.tdiv_eq_ediv_of_nonneg hn]
    omega
  · obtain ⟨k, rfl⟩ := Int.exists_eq_neg_ofNat hn
    rw [seconds, Int.neg_tdiv, Int.tdiv_eq_ediv_of_nonneg (Int.natCast_nonneg k)]
    omega

/-- The variables behind a call. -/
theorem cache_judge (run : HealthRun) (call : Call) : (run.judge call).cache =
    if Asks run.cache call.reading then call.reading.answer else run.cache := by
  unfold HealthRun.judge checkHealth Asks SmartCache.refreshed
  cases call.reading.space with
  | error what => rfl
  | ok available => simp

/-- The drive is asked where the answer that is kept is old. -/
theorem lt_seconds_of_asks {cache : SmartCache} {reading : Reading}
    (h : Asks cache reading = true) :
    300 < seconds (reading.now - cache.last_smart_check) := by
  unfold Asks at h
  cases hspace : reading.space with
  | error what => simp [hspace] at h
  | ok available =>
    simp only [hspace] at h
    exact of_decide_eq_true h

/-- A call judges by a recent answer. -/
theorem exists_restsOn_judge (h : run.Kept start) (hclock : run.clock ≤ call.reading.now)
    {available : ℕ} (hspace : call.reading.space = .ok available) :
    ∃ source ∈ (run.judge call).history,
      Judged.RestsOn ⟨call, Asks run.cache call.reading,
        (checkHealth run.lifecycle run.cache call.reading call.ram_allocated
          call.ram_capacity).2.2⟩ source := by
  have hscore (hsize : Representable call.ram_allocated call.ram_capacity) :=
    score_eq hsize run.lifecycle run.cache hspace
  by_cases hexpired : run.cache.Expired call.reading.now
  · -- the drive answers this call
    refine ⟨_, List.mem_append_right _ (List.mem_singleton_self _), ?_, le_refl _, ?_, ?_⟩
    · simp [Asks, hspace, hexpired]
    · simp [seconds]
    · rintro available' havailable hsize
      obtain rfl : available = available' := Except.ok.inj (hspace.symm.trans havailable)
      simp only [hscore hsize, SmartCache.refreshed, if_pos hexpired, Reading.answer]
  · -- the answer was given to an earlier call: the initial one is too old
    have hrecent : ¬ 301 * 10 ^ 9 ≤ call.reading.now - run.cache.last_smart_check := by
      rwa [SmartCache.Expired, lt_seconds_iff] at hexpired
    rcases h.cache_origin with ⟨hinitial, -⟩ | ⟨source, hsource, hasked, hcache⟩
    · have hstart := h.start_le
      rw [hinitial, SmartCache.initial] at hrecent
      simp only at hrecent
      omega
    · refine ⟨source, List.mem_append_left _ hsource, hasked, ?_, ?_, ?_⟩
      · exact (h.past source hsource).1.trans hclock
      · rw [SmartCache.Expired, hcache] at hexpired
        exact not_lt.mp hexpired
      · rintro available' havailable hsize
        obtain rfl : available = available' := Except.ok.inj (hspace.symm.trans havailable)
        have hkept : run.cache.refreshed call.reading = source.call.reading.answer := by
          rw [SmartCache.refreshed, if_neg hexpired, hcache]
        rw [hkept] at hscore
        exact hscore hsize

/-- One call keeps what holds between two. -/
theorem HealthRun.Kept.judge (h : run.Kept start) (hclock : run.clock ≤ call.reading.now) :
    (run.judge call).Kept start where
  cache_origin := by
    rw [cache_judge]
    split_ifs with hasks
    · exact .inr ⟨_, List.mem_append_right _ (List.mem_singleton_self _), hasks, rfl⟩
    · rcases h.cache_origin with ⟨hinitial, hnone⟩ | ⟨source, hsource, hasked, hcache⟩
      · refine .inl ⟨hinitial, fun judged hjudged => ?_⟩
        rcases List.mem_append.mp hjudged with hold | hnew
        · exact hnone judged hold
        · rw [List.mem_singleton.mp hnew]
          exact Bool.not_eq_true _ ▸ hasks
      · exact .inr ⟨source, List.mem_append_left _ hsource, hasked, hcache⟩
  start_le := h.start_le.trans hclock
  past := by
    intro judged hjudged
    rw [cache_judge]
    rcases List.mem_append.mp hjudged with hold | hnew
    · refine ⟨(h.past judged hold).1.trans hclock, fun hasked => ?_⟩
      split_ifs with hasks
      · exact (h.past judged hold).1.trans hclock
      · exact (h.past judged hold).2 hasked
    · rw [List.mem_singleton.mp hnew]
      refine ⟨le_refl _, fun hasked => ?_⟩
      rw [if_pos hasked]
      exact le_refl _
  judged := by
    intro judged hjudged available hspace
    rcases List.mem_append.mp hjudged with hold | hnew
    · obtain ⟨source, hsource, hrests⟩ := h.judged judged hold available hspace
      exact ⟨source, List.mem_append_left _ hsource, hrests⟩
    · obtain rfl := List.mem_singleton.mp hnew
      exact exists_restsOn_judge h hclock hspace
  apart := by
    refine List.pairwise_append.mpr ⟨h.apart, List.pairwise_singleton _ _, ?_⟩
    intro first hfirst second hsecond hasked hasks
    obtain rfl := List.mem_singleton.mp hsecond
    have hlast := (h.past first hfirst).2 hasked
    have hage := lt_seconds_of_asks hasks
    rw [lt_seconds_iff] at hage ⊢
    change _ ≤ call.reading.now - _
    omega

theorem kept_of_reachable (h : (healthSystem start).Reachable run) : run.Kept start := by
  refine StepSystem.ReachableUnder.invariant ?_ ?_ h
  · rintro run ⟨m, rfl⟩
    exact ⟨.inl ⟨rfl, by simp⟩, le_refl _, by simp, by simp, List.Pairwise.nil⟩
  · intro run call run' hrun _ hstep
    simp only [healthSystem] at hstep
    split at hstep
    · next hclock =>
      obtain rfl := Option.some.inj hstep
      exact hrun.judge hclock
    · cases hstep

/-- In every run of calls by a clock that does not go back, the score of every call that sees the
disk, with sizes that are `Representable`, is the integer one for what that call saw and an answer
of the drive that is at most 300 whole seconds old, and from one question to the drive to the next
more than 300 whole seconds pass. The code drops the fraction of a second. -/
theorem judged_of_reachable (h : (healthSystem start).Reachable run) :
    (∀ judged ∈ run.history, ∀ available, judged.call.reading.space = .ok available →
      ∃ source ∈ run.history, judged.RestsOn source) ∧
    run.history.Pairwise fun first second => first.asked = true → second.asked = true →
      300 < seconds (second.call.reading.now - first.call.reading.now) :=
  ⟨(kept_of_reachable h).judged, (kept_of_reachable h).apart⟩

/-- The drive fails at the first call, and is fine again a minute later. -/
def failingCall : Call := ⟨⟨.ok 300000000, 0, false, lit "failing"⟩, 0, 15728640⟩
def minuteLater : Call := ⟨⟨.ok 300000000, 60 * 10 ^ 9, true, []⟩, 15000000, 15728640⟩

/-- The second call still rests on the first answer. -/
theorem judged_of_reachable_minuteLater :
    let run := ((HealthRun.mk .boot (.initial 0) 0 []).judge failingCall).judge minuteLater
    ∃ judged ∈ run.history, judged.call = minuteLater ∧
      ∃ source ∈ run.history, judged.RestsOn source := by
  have hreach : (healthSystem 0).Reachable
      (((HealthRun.mk .boot (.initial 0) 0 []).judge failingCall).judge minuteLater) :=
    .step (.step (.init ⟨.boot, rfl⟩) trivial (if_pos (by decide))) trivial (if_pos (by decide))
  refine ⟨_, List.mem_append_right _ (List.mem_singleton_self _), rfl, ?_⟩
  exact (judged_of_reachable hreach).1 _ (List.mem_append_right _ (List.mem_singleton_self _))
    300000000 rfl

end HealthMonitor

end Monitor
