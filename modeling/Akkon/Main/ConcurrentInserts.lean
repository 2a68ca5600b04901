import Akkon.Main.ShortForm

/-!
# Insert requests side by side

The worker threads run the data handler at the same time. `QueryEngine::query`,
`QueryEngine::insert` and `DataStorage::insertEntity` are steps of their own, so another request can
come between the duplicate check of a request and its insertion.

* `Phase`: where a thread with an insert request is, with the rest of its handler program;
* `Phase.next_cases`: everything one step of such a thread can do to the stored data;
* `Exclusive`: the invariant, that at most one request for an identifier is past the
  duplicate check;
* `inserts_unique`: in runs in which no duplicate check falls between the check and the insertion of
  another request for the same identifier, each new identifier is inserted at most once.
-/

namespace Main

open Cpp Indexer Db Security

/-- An insert request with fields of 64 characters. -/
structure InsertJob where
  request : Bytes
  identifier : Bytes
  pwk : Bytes
  valid : InsertRequest request identifier pwk

/-- The service, and what the handlers did so far, each effect with its thread. -/
structure Shared (ι : Type) where
  service : Service
  log : List (ι × Effect)

variable {ι : Type} [DecidableEq ι]

/-- An operation of a thread on the shared service. An operation that throws is not answered. -/
def threadOp (i : ι) (env : HandlerEnv) (o : HandlerOp) (s : Shared ι) :
    Option (o.Res × Shared ι) :=
  match handlerOp env o ⟨s.service, []⟩ with
  | .ok (r, w) => some (r, ⟨w.service, s.log ++ w.effects.map (i, ·)⟩)
  | .error _ => none

/-- The workers, each at the start of the data handler for its request. -/
abbrev Workers (ι : Type) := Pool HandlerOp HandlerOp.Res (Shared ι) ι

/-- The workers in front of the first step. -/
def startWorkers (service : Service) (jobs : ι → InsertJob) : Workers ι :=
  ⟨⟨service, []⟩, fun i => dataHandler (jobs i).request⟩

/-- The insert requests handled side by side. A label is a thread and what it is told in its
step. -/
def insertSystem (service : Service) (jobs : ι → InsertJob) :
    StepSystem (Workers ι) (ι × HandlerEnv) :=
  Pool.system threadOp (startWorkers service jobs)

/-- What a thread has sent and asked for. -/
def effectsOf (p : Workers ι) (i : ι) : List Effect :=
  p.shared.log.filterMap fun e => if e.1 = i then some e.2 else none

/-! ## Phases -/

/-- Where a thread is. From `reply` on, `created` tells success from a duplicate. -/
inductive Phase
  | start
  | checkWs
  | count
  | probe
  | query
  | index
  | store
  | reply (created : Bool)
  | close (created : Bool)
  | done (created : Bool)
  deriving DecidableEq, Repr

/-- The two replies. -/
def outcomeText (created : Bool) : Bytes := if created then insertSuccess else duplicateIdentifier

namespace Phase

/-- The rest of the handler. -/
def program (job : InsertJob) : Phase → Handler Unit
  | start => dataHandler job.request
  | checkWs => .op .isWsClient fun is_ws_client =>
      if is_ws_client then webSocketBranch job.request else plainBranch job.request
  | count => insertRoute job.request
  | probe => insertUnlessDuplicate job.identifier job.pwk
  | query => .op (.query job.identifier) fun res =>
      if res = .DEFINITELY_YES then Handler.reply duplicateIdentifier
      else storeEntity job.identifier job.pwk
  | index => storeEntity job.identifier job.pwk
  | store => .op (.insertEntity (entityOf job.identifier job.pwk)) fun _ =>
      Handler.reply insertSuccess
  | reply created => Handler.reply (outcomeText created)
  | close _ => Handler.closeClient
  | done _ => .ret ()

/-- What the thread has done so far. -/
def sent : Phase → List Effect
  | close created => [.sendData (outcomeText created)]
  | done created => replied (outcomeText created)
  | _ => []

/-- What the thread does in its next step. -/
def emit : Phase → List Effect
  | reply created => [.sendData (outcomeText created)]
  | close _ => [.closeClient]
  | _ => []

/-- The next phase and the service behind the step. -/
def next (s : Service) (job : InsertJob) (storage : StorageEnv) : Phase → Option (Phase × Service)
  | start => some (checkWs, s)
  | checkWs => some (count, s)
  | count => some (probe, s.counted)
  | probe => some (query, s)
  | query => some (if job.identifier ∈ s.query_engine.members then reply false else index, s)
  | index => some (store, { s with query_engine := s.query_engine.inserted job.identifier })
  | store => some (reply true, { s with
      data_storage := (s.data_storage.insertEntity (entityOf job.identifier job.pwk) storage).1 })
  | reply created => some (close created, s)
  | close created => some (done created, s)
  | done _ => none

/-- How far an insertion has come: 0 before it is decided, 1 past the duplicate check, 2 in the
index, 3 stored. -/
def stage : Phase → ℕ
  | index => 1
  | store => 2
  | reply created | close created | done created => if created then 3 else 0
  | _ => 0

/-- Everything a step can do to the stored data: nothing, pass the duplicate check, put the
identifier into the index, or store it. -/
theorem next_cases {s s' : Service} {job : InsertJob} {storage : StorageEnv} {ph ph' : Phase}
    (h : ph.next s job storage = some (ph', s')) :
    (ph'.stage = ph.stage ∧ s'.stored = s.stored) ∨
      (ph.stage = 0 ∧ ph'.stage = 1 ∧ ph = query ∧ job.identifier ∉ s.query_engine.members ∧
        s' = s) ∨
      (ph.stage = 1 ∧ ph'.stage = 2 ∧
        s' = { s with query_engine := s.query_engine.inserted job.identifier }) ∨
      (ph.stage = 2 ∧ ph'.stage = 3 ∧ s' = { s with
        data_storage :=
          (s.data_storage.insertEntity (entityOf job.identifier job.pwk) storage).1 }) := by
  cases ph with
  -- the duplicate check is the only phase with two outcomes
  | query =>
    by_cases hmem : job.identifier ∈ s.query_engine.members
    · simp only [next, if_pos hmem, Option.some.injEq, Prod.mk.injEq] at h
      obtain ⟨rfl, rfl⟩ := h
      exact .inl ⟨rfl, rfl⟩
    · simp only [next, if_neg hmem, Option.some.injEq, Prod.mk.injEq] at h
      obtain ⟨rfl, rfl⟩ := h
      exact .inr (.inl ⟨rfl, rfl, rfl, hmem, rfl⟩)
  | index =>
    cases h
    exact .inr (.inr (.inl ⟨rfl, rfl, rfl⟩))
  | store =>
    cases h
    exact .inr (.inr (.inr ⟨rfl, rfl, rfl⟩))
  | done created => cases h
  | _ =>
    cases h
    exact .inl ⟨rfl, rfl⟩

/-- The operation a thread is about to call. -/
def nextOp (job : InsertJob) : Phase → Option HandlerOp
  | start => some .getLockdownState
  | checkWs => some .isWsClient
  | count => some .countQuery
  | probe => some .probeDisk
  | query => some (.query job.identifier)
  | index => some (.insertIndex job.identifier)
  | store => some (.insertEntity (entityOf job.identifier job.pwk))
  | reply created => some (.sendData (outcomeText created))
  | close _ => some .closeClient
  | done _ => none

theorem head_program (job : InsertJob) (ph : Phase) : (ph.program job).head = ph.nextOp job := by
  cases ph with
  | count =>
    rw [program, insertRoute_of_fields job.valid.fields]
    rfl
  | _ => rfl

/-- A thread with nothing left to do is done. -/
theorem program_eq_ret {job : InsertJob} {ph : Phase} (h : ph.program job = .ret ()) :
    ∃ created, ph = done created := by
  have hhead := head_program job ph
  rw [h] at hhead
  cases ph with
  | done created => exact ⟨created, rfl⟩
  | _ => cases hhead

end Phase

/-- The step of a thread that is in a phase. -/
theorem step_program {p : Workers ι} {i : ι} {env : HandlerEnv} (henv : Serving env)
    {job : InsertJob} {ph ph' : Phase} {s' : Service} (hthread : p.threads i = ph.program job)
    (hnext : ph.next p.shared.service job env.storage = some (ph', s')) :
    Pool.step threadOp p (i, env) = some ⟨⟨s', p.shared.log ++ ph.emit.map (i, ·)⟩,
      Function.update p.threads i (ph'.program job)⟩ := by
  cases ph with
  | start =>
    cases hnext
    have hop : threadOp i env .getLockdownState p.shared
        = some (.NONE, ⟨p.shared.service, p.shared.log ++ []⟩) := by
      rw [← henv.lockdown]
      rfl
    exact Pool.step_eq_some (hthread.trans rfl) hop
  | checkWs =>
    cases hnext
    have hop : threadOp i env .isWsClient p.shared
        = some (false, ⟨p.shared.service, p.shared.log ++ []⟩) := by
      rw [← henv.plain]
      rfl
    rw [Phase.program, ← plainBranch_of_route job.valid.route]
    exact Pool.step_eq_some (hthread.trans rfl) hop
  -- the fields are read behind the count, without an operation of their own
  | count =>
    cases hnext
    rw [Phase.program, insertRoute_of_fields job.valid.fields] at hthread
    rw [Pool.step_eq_some hthread (show threadOp i env .countQuery p.shared
      = some ((), ⟨p.shared.service.counted, p.shared.log ++ []⟩) from rfl),
      if_pos ⟨job.valid.length_identifier, job.valid.length_pwk⟩]
    rfl
  | probe =>
    cases hnext
    have hop : threadOp i env .probeDisk p.shared
        = some (env.probe, ⟨p.shared.service, p.shared.log ++ []⟩) := rfl
    have hbranch : (if env.probe.low then Handler.reply insufficientStorage
        else Phase.program job .query) = Phase.program job .query := if_neg (by simp [henv.probe])
    rw [← hbranch]
    exact Pool.step_eq_some (hthread.trans rfl) hop
  | query =>
    have hop : threadOp i env (.query job.identifier) p.shared
        = some (p.shared.service.query_engine.answer job.identifier,
          ⟨p.shared.service, p.shared.log ++ []⟩) := by
      simp only [threadOp, handlerOp_query]
      rfl
    rw [Pool.step_eq_some hthread hop]
    by_cases hmem : job.identifier ∈ p.shared.service.query_engine.members
    · rw [Phase.next, if_pos hmem] at hnext
      cases hnext
      rw [if_pos (QueryEngine.answer_eq_definitelyYes_iff.mpr hmem)]
      rfl
    · rw [Phase.next, if_neg hmem] at hnext
      cases hnext
      rw [if_neg (mt QueryEngine.answer_eq_definitelyYes_iff.mp hmem)]
      rfl
  | index =>
    cases hnext
    have hop : threadOp i env (.insertIndex job.identifier) p.shared
        = some ((), ⟨{ p.shared.service with
          query_engine := p.shared.service.query_engine.inserted job.identifier },
          p.shared.log ++ []⟩) := by
      simp only [threadOp, handlerOp_insertIndex]
      rfl
    exact Pool.step_eq_some (hthread.trans rfl) hop
  | store =>
    cases hnext
    exact Pool.step_eq_some hthread rfl
  | reply created =>
    cases hnext
    exact Pool.step_eq_some (hthread.trans rfl) rfl
  | close created =>
    cases hnext
    exact Pool.step_eq_some (hthread.trans rfl) rfl
  | done created => cases hnext

/-! ## Workers in phases -/

/-- Each worker is in a phase: its program and its effects are those of the phase. -/
structure InPhases (jobs : ι → InsertJob) (phase : ι → Phase) (p : Workers ι) : Prop where
  program : ∀ i, p.threads i = (phase i).program (jobs i)
  sent : ∀ i, effectsOf p i = (phase i).sent

theorem inPhases_start (service : Service) (jobs : ι → InsertJob) :
    InPhases jobs (fun _ => .start) (startWorkers service jobs) :=
  ⟨fun _ => rfl, fun _ => rfl⟩

/-- A step of a worker moves it to its next phase and leaves the others in theirs. -/
theorem InPhases.step {jobs : ι → InsertJob} {phase : ι → Phase} {p : Workers ι}
    (h : InPhases jobs phase p) {i : ι} {env : HandlerEnv} (henv : Serving env) {ph' : Phase}
    {s' : Service}
    (hnext : (phase i).next p.shared.service (jobs i) env.storage = some (ph', s')) :
    ∃ p', Pool.step threadOp p (i, env) = some p' ∧ p'.shared.service = s' ∧
      InPhases jobs (Function.update phase i ph') p' := by
  -- The programs of the other threads and what they have sent are as before.
  refine ⟨_, step_program henv (h.program i) hnext, rfl, fun j => ?_, fun j => ?_⟩
  · by_cases hj : j = i
    · subst hj
      simp
    · simpa [hj] using h.program j
  · -- what the phase emits is what the next phase has sent in addition
    have hsent : (phase i).sent ++ (phase i).emit = ph'.sent := by
      cases hph : phase i with
      | query =>
        rw [hph, Phase.next] at hnext
        split_ifs at hnext
        · cases hnext
          rfl
        · cases hnext
          rfl
      | done created =>
        rw [hph] at hnext
        cases hnext
      | _ =>
        rw [hph] at hnext
        cases hnext
        rfl
    rw [effectsOf, List.filterMap_append]
    change effectsOf p j ++ _ = _
    rw [h.sent j]
    by_cases hj : j = i
    · subst hj
      rw [Function.update_self, ← hsent, List.filterMap_map]
      simp
    · -- what the step emits is not among the effects of another thread
      have hother : ((phase i).emit.map (i, ·)).filterMap
          (fun e => if e.1 = j then some e.2 else none) = [] := by
        rw [List.filterMap_map, List.filterMap_eq_nil_iff]
        intro e _
        exact if_neg fun heq => hj heq.symm
      rw [Function.update_of_ne hj, hother, List.append_nil]

/-- Every step of workers in phases is such a step. -/
theorem InPhases.step_inv {jobs : ι → InsertJob} {phase : ι → Phase} {p p' : Workers ι}
    (h : InPhases jobs phase p) {i : ι} {env : HandlerEnv} (henv : Serving env)
    (hstep : Pool.step threadOp p (i, env) = some p') :
    ∃ ph', (phase i).next p.shared.service (jobs i) env.storage
        = some (ph', p'.shared.service) ∧
      InPhases jobs (Function.update phase i ph') p' := by
  cases hnext : (phase i).next p.shared.service (jobs i) env.storage with
  | none =>
    have hdone : (phase i).program (jobs i) = .ret () := by
      cases hph : phase i with
      | done created => rfl
      | _ =>
        rw [hph] at hnext
        cases hnext
    simp [Pool.step, h.program i, hdone] at hstep
  | some r =>
    obtain ⟨ph', s'⟩ := r
    obtain ⟨p'', hstep', hservice, hphases⟩ := h.step henv hnext
    rw [hstep] at hstep'
    cases hstep'
    exact ⟨ph', by rw [hservice], hphases⟩

/-! ## Exclusion -/

/-- At most one request for `x` is past the duplicate check, `x` is in the index when one has put it
there, and it is stored at most once, by a request that has come so far. -/
structure Exclusive (jobs : ι → InsertJob) (x : Bytes) (phase : ι → Phase) (s : Service) :
    Prop where
  unique : ∀ i j, (jobs i).identifier = x → (jobs j).identifier = x →
    1 ≤ (phase i).stage → 1 ≤ (phase j).stage → i = j
  indexed : ∀ i, (jobs i).identifier = x → 2 ≤ (phase i).stage → x ∈ s.query_engine.members
  rows_nil : (∀ i, (jobs i).identifier = x → (phase i).stage < 3) →
    s.data_storage.rowsWith x = []
  rows_le : (s.data_storage.rowsWith x).length ≤ 1

/-- The part of a text in front of its first NUL is as long as the text only when it is the text. -/
theorem eq_of_cStr_eq {s x : Bytes} (hs : cStr s = x) (hlen : s.length = x.length) : s = x := by
  rw [← hs]
  refine ((List.takeWhile_prefix _).eq_of_length ?_).symm
  change (cStr s).length = s.length
  rw [hs, hlen]

/-- Storing the entity of a request for another identifier adds no row with `x`. -/
theorem length_rowsWith_of_ne {job : InsertJob} {x : Bytes} (hx : x.length = 64)
    (hid : job.identifier ≠ x) (ds : DataStorage) (storage : StorageEnv) :
    ((ds.insertEntity (entityOf job.identifier job.pwk) storage).1.rowsWith x).length
      = (ds.rowsWith x).length := by
  have hne : cStr (entityOf job.identifier job.pwk).identifyer ≠ x := fun heq =>
    hid (eq_of_cStr_eq heq (job.valid.length_identifier.trans hx.symm))
  rw [DataStorage.length_rowsWith_insertEntity, if_neg (by simp [hne]), Nat.add_zero]

section Steps

variable {jobs : ι → InsertJob} {x : Bytes} {phase : ι → Phase} {s : Service} {i : ι} {ph' : Phase}

/-- What holds of the thread that moved before its step, and of a thread behind the step, holds of
that thread before the step. -/
theorem of_update (P : Phase → Prop) (hi : P (phase i)) {j : ι}
    (h : P (Function.update phase i ph' j)) : P (phase j) := by
  rcases eq_or_ne j i with rfl | hj
  · exact hi
  · rwa [Function.update_of_ne hj] at h

/-- A step that does not touch the stored data and takes no request further keeps exclusion. -/
theorem Exclusive.of_stage_eq {s' : Service} (h : Exclusive jobs x phase s)
    (hstage : ph'.stage = (phase i).stage) (hstored : s'.stored = s.stored) :
    Exclusive jobs x (Function.update phase i ph') s' := by
  have hphase (j : ι) : (Function.update phase i ph' j).stage = (phase j).stage := by
    rcases eq_or_ne j i with rfl | hj
    · rw [Function.update_self, hstage]
    · rw [Function.update_of_ne hj]
  obtain ⟨hqe, hds⟩ := Prod.mk.inj hstored
  refine ⟨?_, ?_, ?_, ?_⟩
  · simpa only [hphase] using h.unique
  · simpa only [hphase, hqe] using h.indexed
  · simpa only [hphase, hds] using h.rows_nil
  · simpa only [hds] using h.rows_le

/-- Passing the duplicate check keeps exclusion, when no other request for `x` has come so far. -/
theorem Exclusive.check (h : Exclusive jobs x phase s) (h0 : (phase i).stage = 0)
    (h1 : ph'.stage = 1)
    (halone : (jobs i).identifier = x → ∀ j, (jobs j).identifier = x → (phase j).stage = 0) :
    Exclusive jobs x (Function.update phase i ph') s where
  unique a b ha hb hsa hsb := by
    by_cases hai : a = i
    · by_cases hbi : b = i
      · rw [hai, hbi]
      · rw [Function.update_of_ne hbi, halone (hai ▸ ha) b hb] at hsb
        omega
    · by_cases hbi : b = i
      · rw [Function.update_of_ne hai, halone (hbi ▸ hb) a ha] at hsa
        omega
      · rw [Function.update_of_ne hai] at hsa
        rw [Function.update_of_ne hbi] at hsb
        exact h.unique a b ha hb hsa hsb
  indexed a ha hsa := by
    rcases eq_or_ne a i with rfl | hai
    · rw [Function.update_self] at hsa
      omega
    · rw [Function.update_of_ne hai] at hsa
      exact h.indexed a ha hsa
  rows_nil hlt := h.rows_nil fun a ha =>
    of_update (·.stage < 3) (by omega) (hlt a ha)
  rows_le := h.rows_le

/-- Putting the identifier into the index keeps exclusion. -/
theorem Exclusive.index (h : Exclusive jobs x phase s) (h1 : (phase i).stage = 1) :
    Exclusive jobs x (Function.update phase i ph')
      { s with query_engine := s.query_engine.inserted (jobs i).identifier } where
  unique a b ha hb hsa hsb :=
    h.unique a b ha hb (of_update (1 ≤ ·.stage) (by omega) hsa)
      (of_update (1 ≤ ·.stage) (by omega) hsb)
  indexed a ha hsa := by
    change x ∈ insert (jobs i).identifier s.query_engine.members
    rcases eq_or_ne a i with rfl | hai
    · rw [ha]
      exact Finset.mem_insert_self _ _
    · rw [Function.update_of_ne hai] at hsa
      exact Finset.mem_insert_of_mem (h.indexed a ha hsa)
  rows_nil hlt := h.rows_nil fun a ha =>
    of_update (·.stage < 3) (by omega) (hlt a ha)
  rows_le := h.rows_le

/-- Storing the entity keeps exclusion. -/
theorem Exclusive.store (h : Exclusive jobs x phase s) (hx : x.length = 64)
    (h2 : (phase i).stage = 2) (h3 : ph'.stage = 3) (storage : StorageEnv) :
    Exclusive jobs x (Function.update phase i ph') { s with
      data_storage := (s.data_storage.insertEntity
        (entityOf (jobs i).identifier (jobs i).pwk) storage).1 } where
  unique a b ha hb hsa hsb :=
    h.unique a b ha hb (of_update (1 ≤ ·.stage) (by omega) hsa)
      (of_update (1 ≤ ·.stage) (by omega) hsb)
  indexed a ha hsa := h.indexed a ha (of_update (2 ≤ ·.stage) (by omega) hsa)
  rows_nil hlt := by
    -- a request for `x` that has just been stored is at stage 3, so this one is for another
    have hid : (jobs i).identifier ≠ x := fun hid => by
      have hi := hlt i hid
      rw [Function.update_self] at hi
      omega
    rw [← List.length_eq_zero_iff, length_rowsWith_of_ne hx hid, List.length_eq_zero_iff]
    exact h.rows_nil fun a ha => of_update (·.stage < 3) (by omega) (hlt a ha)
  rows_le := by
    by_cases hid : (jobs i).identifier = x
    · -- it is the first row: the only request this far is this one
      have hnil : s.data_storage.rowsWith x = [] := h.rows_nil fun a ha => by
        by_contra hge
        have hai : a = i := h.unique a i ha hid (by omega) (by omega)
        rw [hai] at hge
        omega
      rw [DataStorage.length_rowsWith_insertEntity, hnil]
      split_ifs <;> simp
    · rw [length_rowsWith_of_ne hx hid]
      exact h.rows_le

/-- A step keeps exclusion, when a duplicate check for `x` is only passed while no other request for
`x` stands between its check and its insertion. -/
theorem Exclusive.step (h : Exclusive jobs x phase s) (hx : x.length = 64) {s' : Service}
    {storage : StorageEnv} (hnext : (phase i).next s (jobs i) storage = some (ph', s'))
    (hfree : phase i = .query → (jobs i).identifier = x →
      ∀ j, (jobs j).identifier = x → (phase j).stage ≠ 1) :
    Exclusive jobs x (Function.update phase i ph') s' := by
  rcases Phase.next_cases hnext with ⟨hstage, hstored⟩ | ⟨h0, h1, hquery, hmem, rfl⟩ |
    ⟨h1, -, rfl⟩ | ⟨h2, h3, rfl⟩
  · exact h.of_stage_eq hstage hstored
  · refine h.check h0 h1 fun hid j hj => ?_
    -- a request that has come further would have put `x` into the index
    have hlt : ¬ 2 ≤ (phase j).stage := fun hle => hmem (hid ▸ h.indexed j hj hle)
    have hne : (phase j).stage ≠ 1 := hfree hquery hid j hj
    omega
  · exact h.index h1
  · exact h.store hx h2 h3 storage

end Steps

/-! ## Runs -/

/-- The steps in which every write succeeds and no duplicate check is made while another request
stands between the check and the insertion of the same identifier. -/
def Orderly (p : Workers ι) (l : ι × HandlerEnv) : Prop :=
  Serving l.2 ∧ ∀ x, (p.threads l.1).head = some (.query x) →
    ∀ j, (p.threads j).head ≠ some (.insertIndex x)

/-- What is asked for an identifier: at most one request for it is answered `200`, every other one
that is finished was answered `409`, and there is at most one row with it. -/
structure UniqueInsert (jobs : ι → InsertJob) (x : Bytes) (p : Workers ι) : Prop where
  acknowledged_once : ∀ i j, (jobs i).identifier = x → (jobs j).identifier = x →
    .sendData insertSuccess ∈ effectsOf p i → .sendData insertSuccess ∈ effectsOf p j → i = j
  answered : ∀ i, (jobs i).identifier = x → p.threads i = .ret () →
    effectsOf p i = replied insertSuccess ∨ effectsOf p i = replied duplicateIdentifier
  rows_le : (p.shared.service.data_storage.rowsWith x).length ≤ 1

/-- Only a thread that stored its entity was answered `200`. -/
theorem Phase.stage_of_sent {ph : Phase} (h : .sendData insertSuccess ∈ ph.sent) :
    ph.stage = 3 := by
  cases ph with
  | close created =>
    cases created with
    | true => rfl
    | false => exact absurd h (by decide)
  | done created =>
    cases created with
    | true => rfl
    | false => exact absurd h (by decide)
  | _ => simp [sent] at h

/-- Only a thread that is about to insert is just past its check. -/
theorem Phase.eq_index_of_stage {ph : Phase} (h : ph.stage = 1) : ph = .index := by
  cases ph with
  | index => rfl
  | reply created | close created | done created =>
    cases created <;> exact absurd h (by decide)
  | _ => exact absurd h (by decide)

/-- Exclusion gives what is asked. -/
theorem Exclusive.uniqueInsert {jobs : ι → InsertJob} {x : Bytes} {phase : ι → Phase}
    {p : Workers ι} (h : Exclusive jobs x phase p.shared.service)
    (hphases : InPhases jobs phase p) : UniqueInsert jobs x p where
  acknowledged_once i j hi hj hsi hsj := by
    rw [hphases.sent] at hsi hsj
    -- both have stored their entity, so both are past the check
    have h3i := Phase.stage_of_sent hsi
    have h3j := Phase.stage_of_sent hsj
    exact h.unique i j hi hj (by omega) (by omega)
  answered i _ hret := by
    rw [hphases.program] at hret
    obtain ⟨created, hdone⟩ := Phase.program_eq_ret hret
    rw [hphases.sent, hdone]
    cases created with
    | true => exact .inl rfl
    | false => exact .inr rfl
  rows_le := h.rows_le

/-- In every orderly run from any shards, each identifier that was not stored before is inserted at
most once, and every other request for it is told of the duplicate. -/
theorem inserts_unique (opened : List (Option Shard)) (jobs : ι → InsertJob) :
    ∃ s, boot opened (fun _ => .complete) = .ok s ∧
      ∀ p, (insertSystem s jobs).ReachableUnder Orderly p → ∀ k,
        (jobs k).identifier ∉ (DataStorage.initializeDbs opened).identifiers →
        UniqueInsert jobs (jobs k).identifier p := by
  obtain ⟨s, hboot, hagrees, hds⟩ := boot_complete opened
  refine ⟨s, hboot, fun p hreach k hnew => ?_⟩
  rw [← hds] at hnew
  have hinv : ∃ phase, InPhases jobs phase p ∧
      Exclusive jobs (jobs k).identifier phase p.shared.service := by
    refine hreach.invariant (I := fun p => ∃ phase, InPhases jobs phase p ∧
      Exclusive jobs (jobs k).identifier phase p.shared.service) ?_ ?_
    · rintro p rfl
      refine ⟨fun _ => .start, inPhases_start s jobs, ?_, ?_, fun _ => ?_, ?_⟩
      · intro i j _ _ h
        exact absurd h (by decide)
      · intro i _ h
        exact absurd h (by decide)
      · by_contra hrow
        exact hnew (DataStorage.mem_identifiers_iff_rowsWith.mpr hrow)
      · rw [DataStorage.mem_identifiers_iff_rowsWith, not_not] at hnew
        exact (congrArg List.length hnew).trans_le (Nat.zero_le _)
    · rintro p ⟨i, env⟩ p' ⟨phase, hphases, hexcl⟩ ⟨henv, hfree⟩ hstep
      obtain ⟨ph', hnext, hphases'⟩ := hphases.step_inv henv hstep
      refine ⟨_, hphases', hexcl.step (jobs k).valid.length_identifier hnext ?_⟩
      -- another request past its check has the insertion as its next operation
      intro hquery hid j hj hstage
      refine hfree (jobs k).identifier ?_ j ?_
      · rw [hphases.program i, Phase.head_program, hquery, ← hid]
        rfl
      · rw [hphases.program j, Phase.head_program, Phase.eq_index_of_stage hstage, ← hj]
        rfl
  obtain ⟨phase, hphases, hexcl⟩ := hinv
  exact hexcl.uniqueInsert hphases

/-! ## Schedules -/

/-- The phases and the service along a schedule of threads, as long as the schedule meets
`guard`. -/
def phaseRun (jobs : ι → InsertJob) (storage : StorageEnv) (guard : (ι → Phase) → ι → Bool) :
    List ι → (ι → Phase) → Service → Option ((ι → Phase) × Service)
  | [], phase, s => some (phase, s)
  | i :: schedule, phase, s =>
    if guard phase i then
      match (phase i).next s (jobs i) storage with
      | some (ph', s') => phaseRun jobs storage guard schedule (Function.update phase i ph') s'
      | none => none
    else none

/-- A schedule of the phases is a run of the workers. -/
theorem exists_reachable_of_phaseRun {jobs : ι → InsertJob} {service : Service}
    {ok : Workers ι → ι × HandlerEnv → Prop} {phase phase' : ι → Phase} {p : Workers ι}
    (hreach : (insertSystem service jobs).ReachableUnder ok p) (hphases : InPhases jobs phase p)
    {env : HandlerEnv} (henv : Serving env) {guard : (ι → Phase) → ι → Bool}
    (hok : ∀ phase p i, InPhases jobs phase p → guard phase i = true → ok p (i, env))
    {schedule : List ι} {s' : Service}
    (hrun : phaseRun jobs env.storage guard schedule phase p.shared.service
      = some (phase', s')) :
    ∃ p', (insertSystem service jobs).ReachableUnder ok p' ∧ p'.shared.service = s' ∧
      InPhases jobs phase' p' := by
  induction schedule generalizing phase p with
  | nil =>
    cases hrun
    exact ⟨p, hreach, rfl, hphases⟩
  | cons i schedule ih =>
    rw [phaseRun] at hrun
    split_ifs at hrun with hguard
    -- the phases and the workers step together
    cases hnext : (phase i).next p.shared.service (jobs i) env.storage with
    | none => simp [hnext] at hrun
    | some r =>
      obtain ⟨ph', s₁⟩ := r
      obtain ⟨p₁, hstep, hservice, hphases₁⟩ := hphases.step henv hnext
      rw [hnext, ← hservice] at hrun
      exact ih (.step hreach (hok phase p i hphases hguard) hstep) hphases₁ hrun

section Blocks

variable {jobs : ι → InsertJob} {storage : StorageEnv} {guard : (ι → Phase) → ι → Bool}
  {phase : ι → Phase} {i : ι} {s : Service}

/-- Five steps take a new request past its duplicate check. -/
theorem phaseRun_check (hstart : phase i = .start)
    (hguard : ∀ ph, guard (Function.update phase i ph) i = true)
    (hnew : (jobs i).identifier ∉ s.query_engine.members) (rest : List ι) :
    phaseRun jobs storage guard (List.replicate 5 i ++ rest) phase s
      = phaseRun jobs storage guard rest (Function.update phase i .index) s.counted := by
  have hphase : phase = Function.update phase i .start := by
    rw [← hstart, Function.update_eq_self]
  have hcheck : (jobs i).identifier ∉ s.counted.query_engine.members := hnew
  conv_lhs => rw [hphase]
  simp only [List.replicate, List.cons_append, List.nil_append, phaseRun, hguard, if_true,
    Function.update_self, Function.update_idem, Phase.next, if_neg hcheck]

/-- Five steps take a request for a member to its refusal, and two more to its end. -/
theorem phaseRun_duplicate (hstart : phase i = .start)
    (hguard : ∀ ph, guard (Function.update phase i ph) i = true)
    (hmem : (jobs i).identifier ∈ s.query_engine.members) (rest : List ι) :
    phaseRun jobs storage guard (List.replicate 7 i ++ rest) phase s
      = phaseRun jobs storage guard rest (Function.update phase i (.done false)) s.counted := by
  have hphase : phase = Function.update phase i .start := by
    rw [← hstart, Function.update_eq_self]
  have hcheck : (jobs i).identifier ∈ s.counted.query_engine.members := hmem
  conv_lhs => rw [hphase]
  simp only [List.replicate, List.cons_append, List.nil_append, phaseRun, hguard, if_true,
    Function.update_self, Function.update_idem, Phase.next, if_pos hcheck]

/-- Three steps take a request past its duplicate check to its acknowledgement. -/
theorem phaseRun_store (hindex : phase i = .index)
    (hguard : ∀ ph, guard (Function.update phase i ph) i = true) (rest : List ι) :
    phaseRun jobs storage guard (List.replicate 3 i ++ rest) phase s
      = phaseRun jobs storage guard rest (Function.update phase i (.close true))
        (s.written (jobs i).identifier (jobs i).pwk storage) := by
  have hphase : phase = Function.update phase i .index := by
    rw [← hindex, Function.update_eq_self]
  conv_lhs => rw [hphase]
  simp only [List.replicate, List.cons_append, List.nil_append, phaseRun, hguard, if_true,
    Function.update_self, Function.update_idem, Phase.next]
  rfl

end Blocks

/-! ## Two requests for one identifier -/

/-- Two insertions of one identifier with different pwks. -/
def twoJobs (second : Bool) : InsertJob where
  request := shortPost digitsA (if second then digitsC else digitsB) httpTail
  identifier := digitsA.1
  pwk := (if second then digitsC else digitsB).1
  valid := insertRequest_shortPost _ _ _

/-- One empty shard does not have the identifier. -/
theorem twoJobs_new (k : Bool) :
    (twoJobs k).identifier ∉ (DataStorage.initializeDbs [some []]).identifiers := by
  simp [DataStorage.initializeDbs, DataStorage.identifiers, DataStorage.rows]

/-- One after the other, the first request is answered `200` and the second `409`. -/
theorem inserts_unique_twoJobs :
    ∃ s p, boot [some []] (fun _ => .complete) = .ok s ∧
      (insertSystem s twoJobs).ReachableUnder Orderly p ∧
      .sendData insertSuccess ∈ effectsOf p false ∧
      effectsOf p true = replied duplicateIdentifier ∧
      UniqueInsert twoJobs (twoJobs false).identifier p := by
  obtain ⟨s, hboot, hunique⟩ := inserts_unique [some []] twoJobs
  obtain ⟨s₀, hboot₀, hagrees, hds⟩ := boot_complete [some []]
  rw [hboot₀] at hboot
  cases hboot
  have hnew : (twoJobs false).identifier ∉ s.query_engine.members := by
    rw [agrees_iff.mp hagrees, hds]
    exact twoJobs_new false
  -- a step is orderly when no thread is past its check, or the step is no check
  let guard (phase : Bool → Phase) (i : Bool) : Bool :=
    phase i != .query || (phase false != .index && phase true != .index)
  obtain ⟨phase, s', hrun, hfalse, htrue⟩ : ∃ phase s', phaseRun twoJobs
      (quietEnv (dbFileSystem [])).storage guard
      (List.replicate 5 false ++ (List.replicate 3 false ++ (List.replicate 7 true ++ [])))
      (fun _ => .start) s
      = some (phase, s') ∧ phase false = .close true ∧ phase true = .done false := by
    rw [phaseRun_check, phaseRun_store, phaseRun_duplicate]
    · exact ⟨_, _, rfl, rfl, rfl⟩
    · rfl
    · rintro (_ | _ | _ | _ | _ | _ | _ | _ | _ | _) <;> rfl
    · exact Finset.mem_insert_self _ _
    · rfl
    · rintro (_ | _ | _ | _ | _ | _ | _ | _ | _ | _) <;> rfl
    · rfl
    · rintro (_ | _ | _ | _ | _ | _ | _ | _ | _ | _) <;> rfl
    · exact hnew
  have hok (phase : Bool → Phase) (p : Workers Bool) (i : Bool) (h : InPhases twoJobs phase p)
      (hguard : guard phase i = true) : Orderly p (i, quietEnv (dbFileSystem [])) := by
    refine ⟨serving_quietEnv _, fun x hquery j hindex => ?_⟩
    rw [h.program i, Phase.head_program] at hquery
    rw [h.program j, Phase.head_program] at hindex
    have hi : phase i = .query := by
      cases hph : phase i <;> simp_all [Phase.nextOp]
    have hj : phase j = .index := by
      cases hph : phase j <;> simp_all [Phase.nextOp]
    cases j <;> simp [guard, hi, hj] at hguard
  have hinit : (insertSystem s twoJobs).ReachableUnder Orderly (startWorkers s twoJobs) := .init rfl
  obtain ⟨p, hreach, -, hphases⟩ := exists_reachable_of_phaseRun hinit (inPhases_start s twoJobs)
    (serving_quietEnv (dbFileSystem [])) hok hrun
  refine ⟨s, p, hboot₀, hreach, ?_, ?_, hunique p hreach false (twoJobs_new false)⟩
  · rw [hphases.sent, hfalse]
    exact List.mem_singleton.mpr rfl
  · rw [hphases.sent, htrue]
    rfl

/-- With all writes succeeding, both requests can be answered `200`: both pass the duplicate check
before either is in the index. -/
theorem not_inserts_unique_twoJobs :
    ¬ ∀ (opened : List (Option Shard)) (jobs : Bool → InsertJob), ∃ s,
      boot opened (fun _ => .complete) = .ok s ∧
        ∀ p, (insertSystem s jobs).ReachableUnder (fun _ l => Serving l.2) p → ∀ k,
          (jobs k).identifier ∉ (DataStorage.initializeDbs opened).identifiers →
          UniqueInsert jobs (jobs k).identifier p := by
  intro h
  obtain ⟨s, hboot, hunique⟩ := h [some []] twoJobs
  obtain ⟨s₀, hboot₀, hagrees, hds⟩ := boot_complete [some []]
  rw [hboot₀] at hboot
  cases hboot
  have hnew (k : Bool) : (twoJobs k).identifier ∉ s.query_engine.members := by
    rw [agrees_iff.mp hagrees, hds]
    exact twoJobs_new k
  -- Both threads query before either of them inserts, so both find the identifier new.
  obtain ⟨phase, s', hrun, hphase⟩ : ∃ phase s', phaseRun twoJobs
      (quietEnv (dbFileSystem [])).storage (fun _ _ => true)
      (List.replicate 5 false ++ (List.replicate 5 true ++
        (List.replicate 3 false ++ (List.replicate 3 true ++ [])))) (fun _ => .start) s
      = some (phase, s') ∧ ∀ i, phase i = .close true := by
    have hcounted : (twoJobs true).identifier ∉ s.counted.query_engine.members := hnew true
    rw [phaseRun_check rfl (fun _ => rfl) (hnew false),
      phaseRun_check rfl (fun _ => rfl) hcounted, phaseRun_store, phaseRun_store]
    · exact ⟨_, _, rfl, fun i => by cases i <;> rfl⟩
    all_goals simp
  have hinit : (insertSystem s twoJobs).ReachableUnder (fun _ l => Serving l.2)
      (startWorkers s twoJobs) := .init rfl
  obtain ⟨p, hreach, -, hphases⟩ := exists_reachable_of_phaseRun hinit (inPhases_start s twoJobs)
    (serving_quietEnv (dbFileSystem [])) (fun _ _ _ _ _ => serving_quietEnv _) hrun
  -- In the state that is reached both have sent their `200`.
  have hsent (i : Bool) : .sendData insertSuccess ∈ effectsOf p i := by
    rw [hphases.sent i, hphase i]
    exact List.mem_singleton.mpr rfl
  exact absurd ((hunique p hreach false (twoJobs_new false)).acknowledged_once false true rfl rfl
    (hsent false) (hsent true)) (by decide)

end Main
