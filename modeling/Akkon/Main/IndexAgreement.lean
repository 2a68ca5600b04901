import Akkon.Main.ShortForm
import Akkon.ToMathlib.StepSystem

/-!
# The index and the shards over runs of inserts

The insert route puts an identifier into the index before it stores the entity, and it does not look
at what `insertEntity` returns.

* `runFaithful_iff`: in a run of insert requests the index and the shards agree after every request,
  acknowledged identifiers survive restarts and failed writes can be repeated, exactly when every
  write that is tried succeeds.
-/

namespace Main

open Cpp Indexer Db Security

/-- An insert request of 64 NUL-free characters each, and what the handler is told while it handles
it. -/
structure InsertAttempt where
  env : HandlerEnv
  plain : env.is_ws_client = false
  request : Bytes
  identifier : Bytes
  pwk : Bytes
  valid : InsertRequest request identifier pwk
  nul_free : 0 ∉ identifier ∧ 0 ∉ pwk

/-- Handling an attempt. -/
def attemptStep (s : Service) (a : InsertAttempt) : Except HandlerFault (Service × List Effect) :=
  handle a.env s a.request

/-- The handler stops before it stores anything: a lockdown, a full disk or a duplicate. -/
def Stopped (s : Service) (a : InsertAttempt) : Prop :=
  a.env.lockdown ≠ .NONE ∨ a.env.probe.low = true ∨ a.identifier ∈ s.query_engine.members

/-- `insertEntity` is called and returns false. -/
def WriteFails (s : Service) (a : InsertAttempt) : Prop :=
  ¬ Stopped s a ∧
    (s.data_storage.insertEntity (entityOf a.identifier a.pwk) a.env.storage).2 = false

/-- After a restart that reloads the shards the identifier is answered `DEFINITELY_YES`. -/
def SurvivesRestart (s : Service) (identifier : Bytes) : Prop :=
  ∃ s', restart s = .ok s' ∧ s'.query_engine.query identifier = .ok .DEFINITELY_YES

/-- The request can be repeated without being told of a duplicate. -/
def Retryable (s : Service) (a : InsertAttempt) : Prop :=
  ∀ env : HandlerEnv, env.is_ws_client = false → ∃ s' effects,
    handle env s a.request = .ok (s', effects) ∧ effects ≠ replied duplicateIdentifier

/-- What is asked of one request: agreement behind it, an acknowledged identifier survives a
restart, and a failed write is not acknowledged and can be repeated. -/
def StepFaithful (s : Service) (a : InsertAttempt) (s' : Service) (effects : List Effect) : Prop :=
  s'.Agrees ∧ (effects = replied insertSuccess → SurvivesRestart s' a.identifier) ∧
    (WriteFails s a → effects ≠ replied insertSuccess ∧ Retryable s' a)

/-- What is asked of a run: every request is faithful, and at the end every identifier that was
acknowledged survives a restart. -/
def RunFaithful (s : Service) (attempts : List InsertAttempt) : Prop :=
  EachStep attemptStep StepFaithful s attempts ∧
    ∃ s' os, runOutputs attemptStep s attempts = .ok (s', os) ∧
      ∀ p ∈ attempts.zip os, p.2 = replied insertSuccess → SurvivesRestart s' p.1.identifier

/-- The request is stopped in front of the storage, or every call of the storage succeeds. -/
def WriteSucceeds (s : Service) (a : InsertAttempt) : Prop :=
  a.env.lockdown ≠ .NONE ∨ a.env.probe.low = true ∨ a.identifier ∈ s.data_storage.identifiers ∨
    s.data_storage.WriteOk a.env.storage

/-! ## One request -/

theorem agrees_of_stored {s s' : Service} (h : s'.stored = s.stored) (hs : s.Agrees) :
    s'.Agrees := by
  obtain ⟨hqe, hds⟩ := Prod.mk.inj h
  rw [agrees_iff] at hs ⊢
  rw [hqe, hds, hs]

/-- What survives a restart is what is in the tables. -/
theorem survivesRestart_iff {s : Service} {identifier : Bytes} :
    SurvivesRestart s identifier ↔ identifier ∈ s.data_storage.identifiers := by
  obtain ⟨s', hrestart, hagrees, hdbs⟩ := restart_eq s
  have hids : s'.data_storage.identifiers = s.data_storage.identifiers := by
    simp only [DataStorage.identifiers, DataStorage.rows, hdbs]
  rw [← hids, ← hagrees identifier, SurvivesRestart]
  simp [hrestart]

/-- Everything an attempt can do: it is stopped and the stored data stay as they are, or it is
inserted and acknowledged. -/
theorem attemptStep_cases (s : Service) (a : InsertAttempt) :
    (Stopped s a ∧ ∃ s' effects, attemptStep s a = .ok (s', effects) ∧ s'.stored = s.stored ∧
        effects ≠ replied insertSuccess) ∨
      (¬ Stopped s a ∧ attemptStep s a
        = .ok (s.inserting a.identifier a.pwk a.env.storage, replied insertSuccess)) := by
  by_cases hlock : a.env.lockdown = .NONE
  swap
  · -- in a lockdown
    refine .inl ⟨.inl hlock, s, _, handle_of_lockdown hlock s a.request, rfl, ?_⟩
    unfold lockdownEffects
    split_ifs
    · decide
    · decide
  -- Without a lockdown the request is counted, and then the disk and the index are looked at.
  have hhandle := handle_insert hlock a.plain s a.valid
  rw [insertOutcome] at hhandle
  by_cases hlow : a.env.probe.low = true
  · rw [if_pos hlow] at hhandle
    exact .inl ⟨.inr (.inl hlow), s.counted, _, hhandle, rfl, by decide⟩
  rw [if_neg hlow] at hhandle
  by_cases hmem : a.identifier ∈ s.query_engine.members
  · rw [if_pos hmem] at hhandle
    exact .inl ⟨.inr (.inr hmem), s.counted, _, hhandle, rfl, by decide⟩
  · rw [if_neg hmem] at hhandle
    refine .inr ⟨?_, hhandle⟩
    rintro (h | h | h)
    · exact h hlock
    · exact hlow h
    · exact hmem h

/-- The identifiers in the tables after an insertion. -/
theorem identifiers_inserting (s : Service) (a : InsertAttempt) :
    (s.inserting a.identifier a.pwk a.env.storage).data_storage.identifiers =
      if (s.data_storage.insertEntity (entityOf a.identifier a.pwk) a.env.storage).2 then
        insert a.identifier s.data_storage.identifiers
      else s.data_storage.identifiers := by
  have hid : cStr (entityOf a.identifier a.pwk).identifyer = a.identifier :=
    cStr_eq_self a.nul_free.1
  change (s.data_storage.insertEntity _ a.env.storage).1.identifiers = _
  rw [DataStorage.identifiers_insertEntity, hid]

/-- Where the index and the shards agree, they agree behind an insertion exactly when the write
succeeds. -/
theorem agrees_inserting_iff {s : Service} (hs : s.Agrees) {a : InsertAttempt}
    (hstop : ¬ Stopped s a) :
    (s.inserting a.identifier a.pwk a.env.storage).Agrees ↔
      (s.data_storage.insertEntity (entityOf a.identifier a.pwk) a.env.storage).2 = true := by
  rw [agrees_iff] at hs ⊢
  rw [identifiers_inserting]
  have hmem : a.identifier ∉ s.data_storage.identifiers := by
    rw [← hs]
    exact fun hmem => hstop (.inr (.inr hmem))
  -- the index gains the identifier whatever the storage does
  change insert a.identifier s.query_engine.members = _ ↔ _
  rw [hs]
  split_ifs with hwrite
  · simp [hwrite]
  · refine iff_of_false (fun heq => hmem ?_) hwrite
    rw [← heq]
    exact Finset.mem_insert_self _ _

/-- Where the index and the shards agree, a request is faithful exactly when its write succeeds. -/
theorem stepFaithful_iff {s s' : Service} {a : InsertAttempt} {effects : List Effect}
    (hs : s.Agrees) (hstep : attemptStep s a = .ok (s', effects)) :
    StepFaithful s a s' effects ↔ WriteSucceeds s a := by
  have hids := agrees_iff.mp hs
  have hne : (entityOf a.identifier a.pwk).identifyer ≠ [] :=
    List.ne_nil_of_length_pos (by
      change 0 < a.identifier.length
      rw [a.valid.length_identifier]
      decide)
  rcases attemptStep_cases s a with ⟨hstop, t, os, heq, hstored, hreply⟩ | ⟨hstop, heq⟩
  · -- nothing is stored: the request is faithful, and the condition holds
    rw [hstep] at heq
    cases heq
    refine iff_of_true ⟨agrees_of_stored hstored hs, fun h => absurd h hreply, fun h =>
      absurd hstop h.1⟩ ?_
    rcases hstop with h | h | h
    · exact .inl h
    · exact .inr (.inl h)
    · exact .inr (.inr (.inl (hids ▸ h)))
  · rw [hstep] at heq
    cases heq
    -- behind the guards, `WriteSucceeds` is what `insertEntity` reports
    have hcond : WriteSucceeds s a ↔
        (s.data_storage.insertEntity (entityOf a.identifier a.pwk) a.env.storage).2 = true := by
      rw [DataStorage.insertEntity_snd_iff hne]
      refine ⟨fun h => ?_, fun h => .inr (.inr (.inr h))⟩
      rcases h with h | h | h | h
      · exact absurd (.inl h) hstop
      · exact absurd (.inr (.inl h)) hstop
      · exact absurd (.inr (.inr (hids ▸ h))) hstop
      · exact h
    rw [hcond]
    constructor
    · exact fun h => (agrees_inserting_iff hs hstop).mp h.1
    · intro hwrite
      refine ⟨(agrees_inserting_iff hs hstop).mpr hwrite, fun _ => ?_, fun h => ?_⟩
      · rw [survivesRestart_iff, identifiers_inserting, if_pos hwrite]
        exact Finset.mem_insert_self _ _
      · -- a write that succeeds is not one that fails
        rw [h.2] at hwrite
        cases hwrite

/-- No attempt takes an identifier out of the tables. -/
theorem identifiers_mono {s s' : Service} {a : InsertAttempt} {effects : List Effect}
    (hstep : attemptStep s a = .ok (s', effects)) :
    s.data_storage.identifiers ⊆ s'.data_storage.identifiers := by
  rcases attemptStep_cases s a with ⟨-, t, os, heq, hstored, -⟩ | ⟨-, heq⟩
  · rw [hstep] at heq
    cases heq
    rw [(Prod.mk.inj hstored).2]
  · rw [hstep] at heq
    cases heq
    rw [identifiers_inserting]
    split_ifs
    · exact Finset.subset_insert _ _
    · rfl

/-! ## Runs -/

/-- Started from any shards, a run of insert requests is faithful exactly when every write that is
tried succeeds. -/
theorem runFaithful_iff (opened : List (Option Shard)) :
    ∃ s, boot opened (fun _ => .complete) = .ok s ∧ s.Agrees ∧ ∀ attempts : List InsertAttempt,
      RunFaithful s attempts ↔
        EachStep attemptStep (fun s a _ _ => WriteSucceeds s a) s attempts := by
  obtain ⟨s, hboot, hagrees, -⟩ := boot_complete opened
  refine ⟨s, hboot, hagrees, fun attempts => ?_⟩
  -- agreement is the invariant: a faithful request keeps it
  have hsteps : EachStep attemptStep StepFaithful s attempts ↔
      EachStep attemptStep (fun s a _ _ => WriteSucceeds s a) s attempts :=
    eachStep_congr (fun s a s' o (hs : s.Agrees) hstep => stepFaithful_iff hs hstep)
      (fun s a s' o _ _ h => h.1) hagrees
  rw [← hsteps]
  refine ⟨fun h => h.1, fun h => ⟨h, ?_⟩⟩
  -- what a request is acknowledged for stays in the tables to the end of the run
  refine h.forall_outputs (fun s a s' o _ hfaithful => hfaithful.2.1) ?_
  intro s a s' o hstep _ b q hgood hack
  have hsurvives := hgood hack
  rw [survivesRestart_iff] at hsurvives ⊢
  exact identifiers_mono hstep hsurvives

/-! ## A failed write -/

theorem nul_free_digits : 0 ∉ digitsA.1 ∧ 0 ∉ digitsB.1 := by decide

/-- An insertion for which `sqlite3_step` fails. -/
def failedAttempt : InsertAttempt where
  env := { quietEnv (dbFileSystem []) with storage := ⟨⟨true, none⟩, true, false⟩ }
  plain := rfl
  request := shortPost digitsA digitsB httpTail
  identifier := digitsA.1
  pwk := digitsB.1
  valid := insertRequest_shortPost _ _ _
  nul_free := nul_free_digits

/-- With one empty shard and a write that fails, the run is not faithful. -/
theorem not_runFaithful_failedAttempt :
    ¬ ∀ (opened : List (Option Shard)) (attempts : List InsertAttempt),
      ∃ s, boot opened (fun _ => .complete) = .ok s ∧ RunFaithful s attempts := by
  intro h
  obtain ⟨s, hboot, hsteps, -⟩ := h [some []] [failedAttempt]
  obtain ⟨s₀, hboot₀, hagrees, hds⟩ := boot_complete [some []]
  rw [hboot₀] at hboot
  cases hboot
  obtain ⟨s', effects, hstep, hfaithful, -⟩ := hsteps
  rcases (stepFaithful_iff hagrees hstep).mp hfaithful with hlock | hlow | hmem | hok
  · exact hlock rfl
  · exact absurd hlow (by decide)
  · rw [hds] at hmem
    exact absurd hmem (by decide)
  · exact absurd hok.stepDone (by decide)

end Main
