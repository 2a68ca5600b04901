import Akkon.Main.ShortForm
import Akkon.ToMathlib.StepSystem

/-!
# The service as a set of identifiers

What the insert and exists routes are for: a set of identifiers to which an identifier can be added
once, and which can be asked about. The set survives restarts.

* `setStep`: the abstract service;
* `serviceStep`: the handler and the restart, observed through the replies;
* `serviceStep_refines`: the handler simulates the set;
* `service_outputs`: over every run the replies are those of the set.
-/

namespace Main

open Cpp Indexer Db Security

/-- A request of the short form or a restart. -/
inductive ServiceEvent
  | post (env : { env : HandlerEnv // Serving env }) (identifier pwk : HexId) (tail : Tail)
  | get (env : { env : HandlerEnv // Serving env }) (identifier : HexId) (tail : Tail)
  | restart

/-- What a client is told. -/
inductive Answer
  /-- `200` for an insertion. -/
  | created
  /-- `409`. -/
  | conflict
  /-- `DEFINITELY_YES`. -/
  | found
  /-- `DEFINITELY_NO` or `PROBABLY_YES`. -/
  | notFound
  | restarted
  /-- Any other reply. -/
  | other
  deriving DecidableEq, Repr

/-- An answer, and whether the stored data stayed as they were. -/
structure Observation where
  answer : Answer
  unchanged : Bool
  deriving DecidableEq, Repr

/-! ## The set -/

/-- The abstract service. -/
def setStep (S : Finset Bytes) : ServiceEvent → Finset Bytes × Observation
  | .post _ identifier _ _ =>
    if identifier.1 ∈ S then (S, ⟨.conflict, true⟩) else (insert identifier.1 S, ⟨.created, false⟩)
  | .get _ identifier _ => (S, ⟨if identifier.1 ∈ S then .found else .notFound, true⟩)
  | .restart => (S, ⟨.restarted, true⟩)

/-! ## The service -/

/-- The answer a reply stands for. -/
def readAnswer (effects : List Effect) : Answer :=
  if effects = replied insertSuccess then .created
  else if effects = replied duplicateIdentifier then .conflict
  else if effects = replied (existsResult .DEFINITELY_YES) then .found
  else if effects = replied (existsResult .DEFINITELY_NO) ∨
    effects = replied (existsResult .PROBABLY_YES) then .notFound
  else .other

/-- One event of the service. A request leaves the index, the tables and the round-robin index as
they were or not; a restart is only asked about the tables. -/
def serviceStep (s : Service) :
    ServiceEvent → Except HandlerFault (Service × Observation)
  | .post env identifier pwk tail =>
    (handle env.1 s (shortPost identifier pwk tail)).map fun r =>
      (r.1, ⟨readAnswer r.2, decide (r.1.stored = s.stored)⟩)
  | .get env identifier tail =>
    (handle env.1 s (shortGet identifier tail)).map fun r =>
      (r.1, ⟨readAnswer r.2, decide (r.1.stored = s.stored)⟩)
  | .restart =>
    match restart s with
    | .ok s' =>
      .ok (s', ⟨.restarted, decide (s'.data_storage.m_data_dbs = s.data_storage.m_data_dbs)⟩)
    | .error e => .error (.exn e)

theorem readAnswer_insertSuccess : readAnswer (replied insertSuccess) = .created := if_pos rfl

theorem readAnswer_duplicateIdentifier :
    readAnswer (replied duplicateIdentifier) = .conflict := by
  rw [readAnswer, if_neg (by decide), if_pos rfl]

/-- Only `DEFINITELY_YES` is read as found. -/
theorem readAnswer_existsResult (res : QueryResult) :
    readAnswer (replied (existsResult res))
      = if res = .DEFINITELY_YES then .found else .notFound := by
  cases res <;> decide +kernel

/-- The service stands for the set of the stored identifiers, all of them in the index, and there is
a shard to write to. -/
structure StandsFor (s : Service) (S : Finset Bytes) : Prop where
  members : s.query_engine.members = S
  identifiers : s.data_storage.identifiers = S
  opened : s.data_storage.m_data_dbs ≠ []

/-- An identifier of hexadecimal digits has no NUL. -/
theorem cStr_hexId (identifier : HexId) : cStr identifier.1 = identifier.1 :=
  cStr_eq_self (identifier.not_mem rfl)

/-- An insertion by a working storage. -/
theorem StandsFor.inserting {s : Service} {S : Finset Bytes} (h : StandsFor s S)
    {env : HandlerEnv} (henv : Serving env) (identifier pwk : HexId) :
    StandsFor (s.inserting identifier.1 pwk.1 env.storage) (insert identifier.1 S) := by
  have hne : (entityOf identifier.1 pwk.1).identifyer ≠ [] :=
    List.ne_nil_of_length_pos (lt_of_lt_of_eq (by decide) identifier.2.1.symm)
  have hwrite := (DataStorage.insertEntity_snd_iff hne).mpr
    ⟨h.opened, henv.disk, henv.prepareOk, henv.stepDone⟩
  refine ⟨?_, ?_, ?_⟩
  · exact congrArg (insert identifier.1) h.members
  · change (s.data_storage.insertEntity _ _).1.identifiers = _
    rw [DataStorage.identifiers_insertEntity, if_pos hwrite, h.identifiers]
    exact congrArg (insert · S) (cStr_hexId identifier)
  · -- one more row, so some shard has a row
    intro hnil
    have hperm := DataStorage.insertEntity_true hwrite
    change (s.data_storage.insertEntity _ _).1.m_data_dbs = [] at hnil
    rw [DataStorage.rows, hnil] at hperm
    simpa using hperm.length_eq

/-- One event keeps the correspondence, and the client is told what the set says. -/
theorem serviceStep_refines :
    Refines serviceStep setStep (fun _ => True) StandsFor where
  step := by
    rintro s S (⟨⟨env, henv⟩, identifier, pwk, tail⟩ | ⟨⟨env, henv⟩, identifier, tail⟩ | _) hrel -
    · have hhandle := handle_insert henv.lockdown henv.plain s
        (insertRequest_shortPost identifier pwk tail)
      rw [insertOutcome, if_neg (by simp [henv.probe]), hrel.members] at hhandle
      by_cases hmem : identifier.1 ∈ S
      · rw [if_pos hmem] at hhandle
        -- a duplicate
        refine ⟨s.counted, ?_, ?_⟩
        · simp only [serviceStep, hhandle, setStep, if_pos hmem]
          rw [Except.map, readAnswer_duplicateIdentifier]
          simp [Service.counted, Service.stored]
        · simp only [setStep, if_pos hmem]
          exact ⟨hrel.members, hrel.identifiers, hrel.opened⟩
      · rw [if_neg hmem] at hhandle
        -- a new identifier
        have hinserting := hrel.inserting henv identifier pwk
        refine ⟨s.inserting identifier.1 pwk.1 env.storage, ?_, ?_⟩
        · have hchanged : (s.inserting identifier.1 pwk.1 env.storage).stored ≠ s.stored := by
            intro heq
            have hmembers := congrArg (·.1.members) heq
            simp only [Service.stored, hinserting.members, hrel.members] at hmembers
            exact hmem (hmembers ▸ Finset.mem_insert_self _ _)
          simp only [serviceStep, hhandle, setStep, if_neg hmem]
          rw [Except.map, readAnswer_insertSuccess]
          simp [hchanged]
        · simpa only [setStep, if_neg hmem] using hinserting
    · have hhandle := handle_shortGet henv.lockdown henv.plain s identifier tail
      refine ⟨s.counted, ?_, ⟨hrel.members, hrel.identifiers, hrel.opened⟩⟩
      have hanswer : readAnswer (replied (existsResult (s.query_engine.answer identifier.1)))
          = if identifier.1 ∈ S then .found else .notFound := by
        -- a collision in the filter only decides between the two other results
        rw [readAnswer_existsResult, ← hrel.members]
        exact if_congr QueryEngine.answer_eq_definitelyYes_iff rfl rfl
      simp only [serviceStep, hhandle, setStep]
      rw [Except.map, hanswer]
      simp [Service.counted, Service.stored]
    · obtain ⟨s', hrestart, hagrees, hdbs⟩ := restart_eq s
      -- the index is built anew from tables that have not changed
      have hids : s'.data_storage.identifiers = S := by
        rw [← hrel.identifiers]
        simp only [DataStorage.identifiers, DataStorage.rows, hdbs]
      refine ⟨s', ?_, ?_, hids, ?_⟩
      · simp [serviceStep, hrestart, hdbs, setStep]
      · rw [agrees_iff.mp hagrees]
        exact hids
      · rw [hdbs]
        exact hrel.opened

/-- Started from any shards, at least one of which opens, the service answers every run of requests
of the short form and restarts as the set of the stored identifiers does, and stands for that set at
the end. -/
theorem service_outputs (opened : List (Option Shard))
    (h : (DataStorage.initializeDbs opened).m_data_dbs ≠ []) :
    ∃ s, boot opened (fun _ => .complete) = .ok s ∧
      ∀ events : List ServiceEvent, ∃ s',
        runOutputs serviceStep s events = .ok (s',
          (specOutputs setStep (DataStorage.initializeDbs opened).identifiers events).2) ∧
        StandsFor s'
          (specOutputs setStep (DataStorage.initializeDbs opened).identifiers events).1 := by
  obtain ⟨s, hboot, hagrees, hds⟩ := boot_complete opened
  refine ⟨s, hboot, fun events => ?_⟩
  have hrel : StandsFor s (DataStorage.initializeDbs opened).identifiers := by
    rw [← hds] at h ⊢
    exact ⟨agrees_iff.mp hagrees, rfl, h⟩
  exact serviceStep_refines.outputs_eq hrel fun _ _ => trivial

/-- An insertion, a lookup, a restart, a repeated insertion and another lookup, on one empty
shard. -/
def rebootEvents : List ServiceEvent :=
  let env : { env : HandlerEnv // Serving env } :=
    ⟨quietEnv (dbFileSystem []), serving_quietEnv _⟩
  [.post env digitsA digitsB httpTail, .get env digitsA httpTail, .restart,
    .post env digitsA digitsB httpTail, .get env digitsB httpTail]

/-- The set's answers to these events: created, found, restarted, conflict, not found. -/
theorem service_outputs_rebootEvents :
    ∃ s s', boot [some []] (fun _ => .complete) = .ok s ∧
      runOutputs serviceStep s rebootEvents = .ok (s',
        [⟨.created, false⟩, ⟨.found, true⟩, ⟨.restarted, true⟩, ⟨.conflict, true⟩,
          ⟨.notFound, true⟩]) := by
  obtain ⟨s, hboot, hrun⟩ := service_outputs [some []] (by decide)
  obtain ⟨s', houtputs, -⟩ := hrun rebootEvents
  have hspec : (specOutputs setStep (DataStorage.initializeDbs [some []]).identifiers
      rebootEvents).2 = [⟨.created, false⟩, ⟨.found, true⟩, ⟨.restarted, true⟩, ⟨.conflict, true⟩,
        ⟨.notFound, true⟩] := by
    decide +kernel
  rw [hspec] at houtputs
  exact ⟨s, s', hboot, houtputs⟩

end Main
