import Akkon.Main.ReadYourWrites

/-!
# The server in a lockdown

The handlers look at the lockdown state once, at their beginning. So when a lockdown is raised, the
handlers that have looked already go on, and no other one does more than refuse its request.

* `Process.pastCheck`: the workers whose handler has looked at the state and has calls ahead;
* `secured_refusing`: a handler that looks in a lockdown refuses its request;
* `HandlerOp.Asked`, `dataHandler_rule`: what a request asks a handler to store, and the rule for
  what is true of a handler that stores nothing else;
* `Records`: a part of the stored data that one kind of call adds to;
* `Frozen`: what a lockdown leaves open;
* `frozen_of_lockdown`: as long as a lockdown stands, every run is frozen.
-/

namespace Main

open Cpp Indexer Db Security Handler Process

/-! ## The state among the handlers -/

/-- The step does not end a lockdown. -/
def Process.Stands (l : Label) : Prop := l ≠ .setLockdown .NONE

instance (l : Label) : Decidable (Stands l) :=
  match l with
  | .setLockdown state => decidable_of_iff (state ≠ .NONE) (by simp [Stands])
  | .loop _ | .pass _ _ | .worker _ _ _ => .isTrue nofun

/-- The lockdown state is looked at, and no handler changes it. -/
def LockdownAnswers : (o : HandlerOp) → LockdownState → o.Res → LockdownState → Prop
  | .getLockdownState, s, r, t => r = s ∧ t = s
  | _, s, _, t => t = s

theorem lockdownAnswers_answer {p q : Process} {task : Server.Task} {env : HandlerEnv}
    {taken : Option ℕ} {o : HandlerOp} {r : o.Res} (h : p.answer task env taken o = some (r, q)) :
    LockdownAnswers o p.lockdown r q.lockdown := by
  have hsame := (answer_handlerOp h).1
  cases o with
  | getLockdownState =>
    cases h
    exact ⟨rfl, rfl⟩
  | _ => exact hsame

theorem lockdown_step {p q : Process} {l : Label} (hl : Stands l) (h : p.step l = some q)
    (hlock : p.lockdown ≠ .NONE) : q.lockdown ≠ .NONE := by
  rcases (step_frame h).1 with hsame | rfl
  · exact hsame ▸ hlock
  · exact fun hnone => hl (congrArg _ hnone)

/-- The lockdown state as the handlers see it. -/
def lockdownView : Interference LockdownState where
  view := Process.lockdown
  allowed := Stands
  rely s t := s ≠ .NONE → t ≠ .NONE
  answers := LockdownAnswers
  rely_refl _ := id
  rely_trans _ _ _ h h' := h' ∘ h
  rely_step := lockdown_step
  answers_answer := lockdownAnswers_answer
  view_setWorker _ _ _ := rfl

/-! ## Handlers that refuse -/

/-- The operations of a handler that looks at the state in a lockdown. -/
def HandlerOp.Refuses (o : HandlerOp) : Prop :=
  o = .getLockdownState ∨ o = .sendData lockdownResponse ∨ o = .closeClient

theorem secured_refusing (request : Bytes) {s : LockdownState} (hs : s ≠ .NONE) :
    lockdownView.Secured (fun o _ => o.Refuses) (dataHandler request) s := by
  refine fun s₁ h₁ => ⟨.inl rfl, fun state s₂ hanswer => ?_⟩
  obtain ⟨rfl, rfl⟩ : state = s₁ ∧ s₂ = s₁ := hanswer
  change lockdownView.Secured _ (if s₂ ≠ .NONE then _ else _) s₂
  rw [if_pos (h₁ hs)]
  have hclose : closeClient.AllOps HandlerOp.Refuses := ⟨.inr (.inr rfl), fun _ => trivial⟩
  refine Prog.Secured.of_allOps (P := HandlerOp.Refuses) (fun _ _ h => h) ?_ s₂
  unfold refuseInLockdown
  split
  · exact ⟨.inr (.inl rfl), fun _ => hclose⟩
  · exact hclose

/-- The stored data is changed. -/
def HandlerOp.Stores (o : HandlerOp) : Prop :=
  (∃ item, o = .insertIndex item) ∨ ∃ entity, o = .insertEntity entity

theorem HandlerOp.Refuses.reads {o : HandlerOp} (h : o.Refuses) : o.Reads := by
  rcases h with rfl | rfl | rfl
  · trivial
  · trivial
  · trivial

theorem HandlerOp.Reads.not_stores {o : HandlerOp} (h : o.Reads) : ¬ o.Stores := by
  rintro (⟨item, rfl⟩ | ⟨entity, rfl⟩)
  · exact h
  · exact h

/-! ## One insertion for each handler -/

theorem HandlerOp.not_stores {o : HandlerOp} (hindex : ∀ item, o ≠ .insertIndex item)
    (hentity : ∀ entity, o ≠ .insertEntity entity) : ¬ o.Stores := by
  rintro (⟨item, h⟩ | ⟨entity, h⟩)
  · exact hindex item h
  · exact hentity entity h

/-- The operations for frames. -/
def HandlerOp.OfFrames (o : HandlerOp) : Prop := o ≠ .getLockdownState ∧ ¬ o.Stores

/-- Whether an operation is one for frames, by its constructor. -/
def HandlerOp.isOfFrames : HandlerOp → Bool
  | .getLockdownState | .insertIndex _ | .insertEntity _ => false
  | _ => true

theorem HandlerOp.OfFrames.intro {o : HandlerOp} (h : o.isOfFrames = true) : o.OfFrames := by
  refine ⟨?_, HandlerOp.not_stores ?_ ?_⟩
  · rintro rfl
    cases h
  · rintro item rfl
    cases h
  · rintro entity rfl
    cases h

theorem ofFrames_ofExcept {α : Type} (x : Except Exn α) :
    (ofExcept x).AllOps HandlerOp.OfFrames := by
  cases x with
  | ok a => trivial
  | error e => exact ⟨.intro rfl, nofun⟩

theorem ofFrames_batchResults (ids : List Bytes) :
    (batchResults ids).AllOps HandlerOp.OfFrames := by
  induction ids with
  | nil => trivial
  | cons id ids ih =>
    unfold batchResults
    split
    · exact ⟨.intro rfl, fun _ =>
        ⟨.intro rfl, fun _ => ih.bind fun _ => trivial⟩⟩
    · exact ih

theorem ofFrames_answerPayload (payload : Bytes) :
    (answerPayload payload).AllOps HandlerOp.OfFrames := by
  refine (ofFrames_ofExcept _).bind fun action => ?_
  split
  · refine (ofFrames_ofExcept _).bind fun ids => (ofFrames_ofExcept _).bind fun batch_id => ?_
    exact (ofFrames_batchResults ids).bind fun results =>
      ⟨.intro rfl, fun _ => trivial⟩
  · trivial

theorem ofFrames_answerPayloads (payloads : List Bytes) :
    (answerPayloads payloads).AllOps HandlerOp.OfFrames := by
  induction payloads with
  | nil => trivial
  | cons payload payloads ih => exact (ofFrames_answerPayload payload).bind fun _ => ih

theorem ofFrames_webSocketBranch (request : Bytes) :
    (webSocketBranch request).AllOps HandlerOp.OfFrames := by
  unfold webSocketBranch
  split
  · exact ⟨.intro rfl, nofun⟩
  · next payloads _ =>
    exact (ofFrames_answerPayloads payloads).bind fun _ =>
      ⟨.intro rfl, fun _ => trivial⟩

/-- The handler stores only what the request asks for. -/
def HandlerOp.Asked (request : Bytes) : HandlerOp → Prop
  | .insertIndex item => ∃ pwk, InsertRequest request item pwk
  | .insertEntity entity =>
    ∃ identifier pwk, InsertRequest request identifier pwk ∧ entity = entityOf identifier pwk
  | _ => True

theorem HandlerOp.asked_of_not_stores {o : HandlerOp} (h : ¬ o.Stores) (request : Bytes) :
    o.Asked request := by
  cases o with
  | insertIndex item => exact absurd (.inl ⟨item, rfl⟩) h
  | insertEntity entity => exact absurd (.inr ⟨entity, rfl⟩) h
  | _ => trivial

section Rule

variable {Φ : Handler Unit → Prop} {request : Bytes}
  (hquiet : ∀ program : Handler Unit, program.AllOps (fun o => ¬ o.Stores) → Φ program)
  (hcall : ∀ (o : HandlerOp) (k : o.Res → Handler Unit), ¬ o.Stores → (∀ r, Φ (k r)) → Φ (.op o k))
  (hstore : ∀ identifier pwk, InsertRequest request identifier pwk →
    Φ (storeEntity identifier pwk))

theorem not_stores_reply (res : Bytes) :
    (Handler.reply res).AllOps fun o => ¬ o.Stores :=
  ⟨HandlerOp.not_stores nofun nofun, fun _ => ⟨HandlerOp.not_stores nofun nofun, fun _ => trivial⟩⟩

include hquiet hcall hstore

theorem insertRoute_rule (hroute : TakesInsertRoute request) : Φ (insertRoute request) := by
  obtain ⟨⟨identifier, pwk⟩, hfields⟩ := insertFields_isOk request
  rw [insertRoute_of_fields hfields]
  refine hcall _ _ (HandlerOp.not_stores nofun nofun) fun _ => ?_
  split
  · next hlen =>
    refine hcall _ _ (HandlerOp.not_stores nofun nofun) fun probe => ?_
    change Φ (if probe.low = true then _ else _)
    split
    · exact hquiet _ (not_stores_reply _)
    · refine hcall _ _ (HandlerOp.not_stores nofun nofun) fun res => ?_
      change Φ (if res = .DEFINITELY_YES then _ else _)
      split
      · exact hquiet _ (not_stores_reply _)
      · exact hstore identifier pwk ⟨hroute, hfields, hlen.1, hlen.2⟩
  · exact hquiet _ (not_stores_reply _)

/-- What holds of handlers that store nothing, passes through calls that store nothing, and holds of
the storing of what is asked for, holds of the whole handler. -/
theorem dataHandler_rule : Φ (dataHandler request) := by
  refine hcall _ _ (HandlerOp.not_stores nofun nofun) fun state => ?_
  change Φ (if state ≠ .NONE then _ else _)
  split
  · exact hquiet _ ((closesLast_refuseInLockdown request).reads.mono fun _ h => h.not_stores)
  · refine hcall _ _ (HandlerOp.not_stores nofun nofun) fun is_ws_client => ?_
    change Φ (if is_ws_client = true then _ else _)
    split
    · exact hquiet _ ((ofFrames_webSocketBranch request).mono fun _ h => h.2)
    · by_cases hroute : TakesInsertRoute request
      · rw [plainBranch_of_route hroute]
        exact insertRoute_rule hquiet hcall hstore hroute
      · exact hquiet _ ((reads_plainBranch hroute).mono fun _ h => h.not_stores)

end Rule

/-- A handler stores only what its request asks for. -/
theorem asked_dataHandler (request : Bytes) :
    (dataHandler request).AllOps (HandlerOp.Asked request) := by
  have hquiet (program : Handler Unit) (h : program.AllOps fun o => ¬ o.Stores) :
      program.AllOps (HandlerOp.Asked request) :=
    h.mono fun _ ho => HandlerOp.asked_of_not_stores ho request
  refine dataHandler_rule hquiet (fun o k ho hk => ⟨HandlerOp.asked_of_not_stores ho request, hk⟩)
    fun identifier pwk hreq => ?_
  exact ⟨⟨pwk, hreq⟩, fun _ => ⟨⟨identifier, pwk, hreq, rfl⟩,
    fun _ => hquiet _ (not_stores_reply _)⟩⟩

/-- Calls that store, of one of the two kinds. -/
structure StoreKind {α : Type} (call : α → HandlerOp) : Prop where
  stores : ∀ a, (call a).Stores
  single : ∀ item entity, .insertIndex item ∈ Set.range call → .insertEntity entity ∉ Set.range call

theorem StoreKind.not_mem {α : Type} {call : α → HandlerOp} (hkind : StoreKind call)
    {o : HandlerOp} (h : ¬ o.Stores) : o ∉ Set.range call := by
  rintro ⟨a, rfl⟩
  exact h (hkind.stores a)

/-- A handler inserts once at most. -/
theorem atMostOnce_dataHandler {α : Type} {call : α → HandlerOp} (hkind : StoreKind call)
    (request : Bytes) : (dataHandler request).AtMostOnce (· ∈ Set.range call) := by
  have hquiet (program : Handler Unit) (h : program.AllOps fun o => ¬ o.Stores) :
      program.AllOps (· ∉ Set.range call) :=
    h.mono fun _ ho => hkind.not_mem ho
  have hreply (res : Bytes) := hquiet _ (not_stores_reply res)
  refine dataHandler_rule (fun program h => .of_allOps (hquiet program h))
    (fun o k ho hk => ⟨fun h => absurd h (hkind.not_mem ho), hk⟩) fun identifier pwk _ => ?_
  -- the index is told first, and then the storage
  refine ⟨fun h _ => ⟨hkind.single _ _ h, fun _ => hreply _⟩, fun _ => ?_⟩
  exact ⟨fun _ _ => hreply _, fun _ => .of_allOps (hreply _)⟩

/-- The state is looked at first, and never again. -/
theorem checksFirst {m_server_fd : ℤ} {service : Service} {p : Process}
    {w : Fin Server.threadPoolSize} {task : Server.Task} {program : Handler Unit}
    (hp : (processSystem m_server_fd service).Reachable p)
    (hw : p.workers w = some ⟨task, program⟩) :
    program = dataHandler task.data ∨ program.AllOps (· ≠ .getLockdownState) := by
  refine forall_running (Φ := fun task program => program = dataHandler task.data ∨
    program.AllOps (· ≠ .getLockdownState)) (fun _ => .inl rfl) (fun task o k r h => .inr ?_) hp hw
  rcases h with h | h
  · obtain ⟨rfl, hk⟩ := Prog.op.inj h
    obtain rfl := eq_of_heq hk
    change (if r ≠ .NONE then _ else _ : Handler Unit).AllOps _
    split
    · unfold refuseInLockdown
      split
      · exact ⟨nofun, fun _ => ⟨nofun, fun _ => trivial⟩⟩
      · exact ⟨nofun, fun _ => trivial⟩
    · refine ⟨nofun, fun is_ws_client => ?_⟩
      change (if is_ws_client = true then _ else _ : Handler Unit).AllOps _
      split
      · exact (ofFrames_webSocketBranch task.data).mono fun _ h => h.1
      · exact (ofRoute_plainBranch task.data).mono fun _ h => h.1
  · exact h.2 r

/-! ## What a lockdown leaves open -/

/-- The workers whose handler has looked at the lockdown state and has calls ahead. -/
def Process.pastCheck (p : Process) : Finset (Fin Server.threadPoolSize) :=
  Finset.univ.filter fun w => (p.workers w).any fun running =>
    running.program.head.isSome && running.program.head ≠ some .getLockdownState

/-- The runs from a state on along which the lockdown stands. -/
def Process.StandsUntil (m_server_fd : ℤ) (service : Service) (p q : Process) : Prop :=
  ((processSystem m_server_fd service).startingAt p).ReachableUnder (fun _ l => Stands l) q

/-- The insertions of some of the handlers that have looked at the lockdown state, one for each, and
asked for by its request. -/
def Process.AskedBy {α : Type} (p : Process) (call : α → HandlerOp)
    (workers : List (Fin Server.threadPoolSize)) (insertions : List α) : Prop :=
  workers.Nodup ∧ List.Forall₂ (fun w a => w ∈ p.pastCheck ∧
    ∃ task program, p.workers w = some ⟨task, program⟩ ∧ (call a).Asked task.data)
      workers insertions

/-- What a lockdown that stands leaves open: the rows and the index stay, and each handler that had
looked at the state may still store the entity that its request asks for, as one row and one member
of the index. Every other handler refuses its request. -/
structure Frozen (p q : Process) : Prop where
  tables : Prefixes p.service.data_storage.m_data_dbs q.service.data_storage.m_data_dbs
  rows : ∃ workers entities, p.AskedBy .insertEntity workers entities ∧
    q.service.data_storage.rows.Perm
      (entities.map DbEntity.toRow ++ p.service.data_storage.rows)
  index : ∃ workers items, p.AskedBy .insertIndex workers items ∧
    q.service.query_engine = items.foldr (fun item qe => qe.inserted item) p.service.query_engine
  stored : p.pastCheck = ∅ → q.service.stored = p.service.stored
  refused : ∀ w task o k, q.workers w = some ⟨task, .op o k⟩ →
    (w ∈ p.pastCheck ∧ StaysAt Stands w p q) ∨ o.Refuses

/-- A part of the stored data to which a call of one kind adds one element at most, and which no
other call changes. -/
structure Records {α : Type} (call : α → HandlerOp) (grown : Service → List α → Service → Prop) :
    Prop extends StoreKind call where
  start : ∀ s, grown s [] s
  add : ∀ {s as env a w r w'}, grown s as w.service → handlerOp env (call a) w = .ok (r, w') →
    grown s as w'.service ∨ grown s (a :: as) w'.service
  keep : ∀ {s as env o w r w'}, grown s as w.service → o ∉ Set.range call →
    handlerOp env o w = .ok (r, w') → grown s as w'.service

theorem records_rows : Records .insertEntity fun s entities s' =>
    s'.data_storage.rows.Perm (entities.map DbEntity.toRow ++ s.data_storage.rows) where
  stores entity := .inr ⟨entity, rfl⟩
  single _ _ h := nomatch h
  start _ := .refl _
  add := by
    intro s entities env entity w r w' hgrown h
    cases h
    cases hdone : (w.service.data_storage.insertEntity entity env.storage).2 with
    | false =>
      refine .inl (List.Perm.trans (.of_eq ?_) hgrown)
      exact congrArg List.flatten (DataStorage.insertEntity_false hdone)
    | true => exact .inr ((DataStorage.insertEntity_true hdone).trans (hgrown.cons _))
  keep := by
    intro s entities env o w r w' hgrown hnot h
    rcases handlerOp_cases h with ⟨item, -, -, hstorage⟩ | ⟨entity, rfl, -⟩ | ⟨-, hstorage⟩
    · rwa [hstorage]
    · exact absurd ⟨entity, rfl⟩ hnot
    · rwa [hstorage]

theorem records_index : Records .insertIndex fun s items s' =>
    s'.query_engine = items.foldr (fun item qe => qe.inserted item) s.query_engine where
  stores item := .inl ⟨item, rfl⟩
  single _ _ _ h := nomatch h
  start _ := rfl
  add := by
    intro s items env item w r w' hgrown h
    rw [handlerOp_insertIndex] at h
    cases h
    exact .inr (congrArg (·.inserted item) hgrown)
  keep := by
    intro s items env o w r w' hgrown hnot h
    rcases handlerOp_cases h with ⟨item, rfl, -⟩ | ⟨entity, -, hindex, -⟩ | ⟨hindex, -⟩
    · exact absurd ⟨item, rfl⟩ hnot
    · rwa [hindex]
    · rwa [hindex]

/-! ## Runs in a lockdown -/

/-- What the worker runs, if anything, has the property. -/
def Process.Runs (p : Process) (w : Fin Server.threadPoolSize) (Φ : Handler Unit → Prop) : Prop :=
  ∀ task program, p.workers w = some ⟨task, program⟩ → Φ program

/-- The worker is at the task that it had in the first state, past the look at the lockdown state,
with one call of the kind ahead at most, as its request asks for it. -/
def Process.Ahead (p : Process) (kind : HandlerOp → Prop) (q : Process)
    (w : Fin Server.threadPoolSize) : Prop :=
  w ∈ p.pastCheck ∧ ∃ task old program, p.workers w = some ⟨task, old⟩ ∧
    q.workers w = some ⟨task, program⟩ ∧ program.AtMostOnce kind ∧
      program.AllOps (HandlerOp.Asked task.data)

section Budget

variable {α : Type} {call : α → HandlerOp} {grown : Service → List α → Service → Prop}
  {p q q' : Process} {l : Label} {w : Fin Server.threadPoolSize}

/-- Another call of a secured handler, or a handler that refuses its request. -/
theorem secured_step {ok : HandlerOp → LockdownState → Prop} (hok : ∀ o s, o.Refuses → ok o s)
    (hl : Stands l) (h : q.step l = some q') (hlock : q.lockdown ≠ .NONE)
    (hw : q.Runs w fun program => lockdownView.Secured ok program q.lockdown) :
    q'.Runs w fun program => lockdownView.Secured ok program q'.lockdown := by
  intro task program hw'
  cases hbusy : q.workers w with
  | none =>
    rcases worker_start h hbusy with hnone | ⟨task', hstart⟩
    · rw [hnone] at hw'
      cases hw'
    · obtain ⟨rfl, rfl⟩ := Running.mk.inj (Option.some.inj (hstart.symm.trans hw'))
      exact (secured_refusing _ (lockdown_step hl h hlock)).mono hok fun _ _ h => h
  | some running =>
    rcases lockdownView.secured_step hl h hbusy (hw running.task running.program hbusy) with
      hnone | ⟨program', hnext, hsecured⟩
    · rw [hnone] at hw'
      cases hw'
    · obtain ⟨rfl, rfl⟩ := Running.mk.inj (Option.some.inj (hnext.symm.trans hw'))
      exact hsecured

/-- The worker makes no call of the kind as long as the lockdown stands. -/
def Process.Drained (kind : HandlerOp → Prop) (q : Process) (w : Fin Server.threadPoolSize) : Prop :=
  q.Runs w fun program => lockdownView.Secured (fun o _ => ¬ kind o) program q.lockdown

theorem Process.Ahead.step {kind : HandlerOp → Prop} (hw : p.Ahead kind q w)
    (h : q.step l = some q') : p.Ahead kind q' w ∨ q'.Drained kind w := by
  obtain ⟨hpast, task, old, program, hold, hprogram, honce, hasked⟩ := hw
  rcases worker_step h hprogram with hnone | hsame | ⟨o, k, _, _, r, q'', rfl, -, rfl⟩
  · refine .inr fun task' program' hprogram' => ?_
    rw [hnone] at hprogram'
    cases hprogram'
  · exact .inl ⟨hpast, task, old, program, hold, hsame.trans hprogram, honce, hasked⟩
  · exact .inl ⟨hpast, task, old, k r, hold, Function.update_self _ _ _, honce.2 r, hasked.2 r⟩

/-- What has been inserted since the first state, and by whom. Of the other workers, those whose
handler had looked at the state may make a call of the kind, and the rest will make none. -/
structure Budget (call : α → HandlerOp) (grown : Service → List α → Service → Prop) (p : Process)
    (workers : List (Fin Server.threadPoolSize)) (insertions : List α) (q : Process) : Prop where
  grown : grown p.service insertions q.service
  asked : p.AskedBy call workers insertions
  others : ∀ w, (w ∉ workers ∧ p.Ahead (· ∈ Set.range call) q w) ∨
    q.Drained (· ∈ Set.range call) w

variable {workers : List (Fin Server.threadPoolSize)} {insertions : List α}

theorem Budget.others_step (hkind : StoreKind call) (hB : Budget call grown p workers insertions q)
    (hl : Stands l) (h : q.step l = some q') (hlock : q.lockdown ≠ .NONE)
    (w : Fin Server.threadPoolSize) :
    (w ∉ workers ∧ p.Ahead (· ∈ Set.range call) q' w) ∨ q'.Drained (· ∈ Set.range call) w := by
  rcases hB.others w with ⟨hnew, hahead⟩ | hdrained
  · exact (hahead.step h).imp_left fun hahead' => ⟨hnew, hahead'⟩
  · exact .inr (secured_step (fun _ _ ho => hkind.not_mem ho.reads.not_stores) hl h hlock hdrained)

/-- A call of the kind is the only one of its worker. -/
theorem Budget.step (hrec : Records call grown) (hB : Budget call grown p workers insertions q)
    (hl : Stands l) (h : q.step l = some q') (hlock : q.lockdown ≠ .NONE) :
    ∃ workers' insertions', Budget call grown p workers' insertions' q' := by
  have hothers := hB.others_step hrec.toStoreKind hl h hlock
  have hsame (hgrown : grown p.service insertions q'.service) :
      ∃ workers' insertions', Budget call grown p workers' insertions' q' :=
    ⟨workers, insertions, hgrown, hB.asked, hothers⟩
  -- only a call of a handler changes the stored data
  rcases (step_frame h).2 with heq | ⟨w, task, o, k, env, taken, r, q'', hw, hanswer, rfl⟩
  · exact hsame (heq ▸ hB.grown)
  · obtain ⟨-, env', w', hop, hservice⟩ := answer_handlerOp hanswer
    by_cases ho : o ∈ Set.range call
    · obtain ⟨a, rfl⟩ := ho
      rcases hrec.add hB.grown hop with hgrown | hgrown
      · exact hsame (hservice ▸ hgrown)
      · -- the worker has its call ahead, or it would not make it
        obtain ⟨hnew, hpast, task', old, program, hold, hprogram, honce, hasked⟩ :
            w ∉ workers ∧ p.Ahead (· ∈ Set.range call) q w := by
          refine (hB.others w).resolve_right fun hdrained => ?_
          exact (hdrained task _ hw).head lockdownView.rely_refl ⟨a, rfl⟩
        obtain ⟨rfl, rfl⟩ := Running.mk.inj (Option.some.inj (hprogram.symm.trans hw))
        refine ⟨w :: workers, a :: insertions, hservice ▸ hgrown,
          ⟨List.nodup_cons.mpr ⟨hnew, hB.asked.1⟩,
            .cons ⟨hpast, task', old, hold, hasked.1⟩ hB.asked.2⟩, fun v => ?_⟩
        by_cases hv : v = w
        · -- what is left of its handler has no call of the kind
          subst hv
          refine .inr fun task program hprogram => ?_
          have hnext : (q''.setWorker v (some ⟨task', k r⟩)).workers v = some ⟨task', k r⟩ :=
            Function.update_self _ _ _
          obtain ⟨rfl, rfl⟩ := Running.mk.inj (Option.some.inj (hnext.symm.trans hprogram))
          exact Prog.Secured.of_allOps (fun _ _ h => h) (honce.1 ⟨a, rfl⟩ r) _
        · exact (hothers v).imp_left fun h => ⟨by simp [hv, h.1], h.2⟩
    · exact hsame (hservice ▸ hrec.keep hB.grown ho hop)

end Budget

section Freeze

variable {m_server_fd : ℤ} {service : Service} {p q : Process}

/-- Handlers that have not looked at the state yet will refuse. -/
theorem refusing_of_not_mem (hp : (processSystem m_server_fd service).Reachable p)
    (hlock : p.lockdown ≠ .NONE) {w : Fin Server.threadPoolSize} (hw : w ∉ p.pastCheck) :
    p.Runs w fun program => lockdownView.Secured (fun o _ => o.Refuses) program p.lockdown := by
  intro task program hprogram
  cases program with
  | ret a => exact fun _ _ => trivial
  | op o k =>
    have ho : o = .getLockdownState := by
      by_contra hne
      refine hw (Finset.mem_filter.mpr ⟨Finset.mem_univ w, ?_⟩)
      simpa [hprogram, Prog.head] using hne
    rcases checksFirst hp hprogram with heq | hall
    · rw [heq]
      exact secured_refusing _ hlock
    · exact absurd ho hall.1

/-- Every run in a lockdown keeps to the budget. -/
theorem budget_of_standsUntil {α : Type} {call : α → HandlerOp}
    {grown : Service → List α → Service → Prop} (hrec : Records call grown)
    (hp : (processSystem m_server_fd service).Reachable p) (hlock : p.lockdown ≠ .NONE)
    (hrun : StandsUntil m_server_fd service p q) :
    ∃ workers insertions, p.AskedBy call workers insertions ∧
      grown p.service insertions q.service := by
  obtain ⟨⟨workers, insertions, hB⟩, -⟩ :
      (∃ workers insertions, Budget call grown p workers insertions q) ∧ q.lockdown ≠ .NONE := by
    refine hrun.invariant (I := fun q =>
      (∃ workers insertions, Budget call grown p workers insertions q) ∧ q.lockdown ≠ .NONE) ?_ ?_
    · intro s (hs : s = p)
      rw [hs]
      refine ⟨⟨[], [], hrec.start _, ⟨List.nodup_nil, .nil⟩, fun w => ?_⟩, hlock⟩
      -- at the start every handler past its look may have its call ahead
      by_cases hw : w ∈ p.pastCheck
      · refine .inl ⟨List.not_mem_nil, hw, ?_⟩
        obtain ⟨⟨task, program⟩, hprogram, -⟩ :=
          (Option.any_eq_true _ _).mp (Finset.mem_filter.mp hw).2
        obtain ⟨honce, hasked⟩ := forall_running
          (Φ := fun task program => program.AtMostOnce (· ∈ Set.range call) ∧
            program.AllOps (HandlerOp.Asked task.data))
          (fun _ => ⟨atMostOnce_dataHandler hrec.toStoreKind _, asked_dataHandler _⟩)
          (fun _ _ _ r h => ⟨h.1.2 r, h.2.2 r⟩) hp hprogram
        exact ⟨task, program, program, hprogram, hprogram, honce, hasked⟩
      · refine .inr fun task program hprogram => ?_
        exact (refusing_of_not_mem hp hlock hw task program hprogram).mono
          (fun _ _ ho => hrec.not_mem ho.reads.not_stores) fun _ _ h => h
    · rintro s l s' ⟨⟨workers, insertions, hB⟩, hs⟩ hl hstep
      exact ⟨hB.step hrec hl hstep hs, lockdown_step hl hstep hs⟩
  exact ⟨workers, insertions, hB.asked, hB.grown⟩

/-- The rows that there are stay at their places. -/
theorem prefixes_of_standsUntil (hrun : StandsUntil m_server_fd service p q) :
    Prefixes p.service.data_storage.m_data_dbs q.service.data_storage.m_data_dbs := by
  refine hrun.invariant (I := fun q =>
    Prefixes p.service.data_storage.m_data_dbs q.service.data_storage.m_data_dbs) ?_ ?_
  · rintro _ rfl
    exact List.forall₂_same.mpr fun _ _ => List.prefix_refl _
  · intro s l s' hs _ hstep
    exact keeps_step (P := fun service => Prefixes _ service.data_storage.m_data_dbs)
      prefixes_handlerOp hs hstep

/-- Where nobody has looked at the state before the lockdown, nothing is stored. -/
theorem stored_of_standsUntil (hp : (processSystem m_server_fd service).Reachable p)
    (hlock : p.lockdown ≠ .NONE) (hnone : p.pastCheck = ∅)
    (hrun : StandsUntil m_server_fd service p q) : q.service.stored = p.service.stored := by
  refine (hrun.invariant (I := fun q => q.service.stored = p.service.stored ∧ q.lockdown ≠ .NONE ∧
    ∀ w, q.Runs w fun program => lockdownView.Secured (fun o _ => o.Refuses) program q.lockdown)
    ?_ ?_).1
  · rintro _ rfl
    exact ⟨rfl, hlock, fun w => refusing_of_not_mem hp hlock (by simp [hnone])⟩
  · rintro s l s' ⟨hstored, hs, hrefusing⟩ hl hstep
    refine ⟨?_, lockdown_step hl hstep hs,
      fun w => secured_step (fun _ _ ho => ho) hl hstep hs (hrefusing w)⟩
    rcases (step_frame hstep).2 with hsame | ⟨w, task, o, k, _, _, r, q'', hw, hanswer, rfl⟩
    · rw [hsame]
      exact hstored
    · obtain ⟨-, env', w', hop, hservice⟩ := answer_handlerOp hanswer
      have hreads := ((hrefusing w task _ hw).head lockdownView.rely_refl).reads
      change q''.service.stored = _
      rw [hservice, stored_handlerOp hreads hop]
      exact hstored

/-- As long as a lockdown stands, only the handlers that had looked at the state before do more than
refuse, and each of them inserts at most the one entity that its own request asks for. -/
theorem frozen_of_lockdown (hp : (processSystem m_server_fd service).Reachable p)
    (hlock : p.lockdown ≠ .NONE) (hrun : StandsUntil m_server_fd service p q) : Frozen p q := by
  refine ⟨prefixes_of_standsUntil hrun, budget_of_standsUntil records_rows hp hlock hrun,
    budget_of_standsUntil records_index hp hlock hrun,
    fun hnone => stored_of_standsUntil hp hlock hnone hrun, ?_⟩
  have hrefused : (∀ w, (w ∈ p.pastCheck ∧ StaysAt Stands w p q) ∨
      q.Runs w fun program => lockdownView.Secured (fun o _ => o.Refuses) program q.lockdown) ∧
        q.lockdown ≠ .NONE := by
    refine hrun.invariant (I := fun q => (∀ w, (w ∈ p.pastCheck ∧ StaysAt Stands w p q) ∨
      q.Runs w fun program => lockdownView.Secured (fun o _ => o.Refuses) program q.lockdown) ∧
        q.lockdown ≠ .NONE) ?_ ?_
    · intro s (hs : s = p)
      rw [hs]
      refine ⟨fun w => ?_, hlock⟩
      by_cases hw : w ∈ p.pastCheck
      · exact .inl ⟨hw, .refl p⟩
      · exact .inr (refusing_of_not_mem hp hlock hw)
    · rintro s l s' ⟨hworkers, hs⟩ hl hstep
      refine ⟨fun w => ?_, lockdown_step hl hstep hs⟩
      rcases hworkers w with ⟨hw, hstays⟩ | hrefusing
      · -- the old handler is still there, or the worker is idle
        by_cases hidle : s'.workers w = none
        · refine .inr fun task program hprogram => ?_
          rw [hidle] at hprogram
          cases hprogram
        · exact .inl ⟨hw, hstays.step hl hstep hidle⟩
      · exact .inr (secured_step (fun _ _ ho => ho) hl hstep hs hrefusing)
  intro w task o k hw
  rcases hrefused.1 w with hold | hrefusing
  · exact .inl hold
  · exact .inr ((hrefusing task _ hw).head lockdownView.rely_refl)

end Freeze

/-- An insertion, short form. -/
def postAB : Bytes := shortPost digitsA digitsB httpTail

/-- A small index, and one shard without rows. -/
def smallService : Service := ⟨.new 1 Nat.one_pos, .initializeDbs [some []], 0⟩

/-- A handler has looked at the state when the lockdown is raised. -/
def overtaken : List Label :=
  acceptFirst 3 5 ++ receiveFirst 5 postAB ++ work 3 ++ [.setLockdown .IMMEDIATE]

/-- The handler that was overtaken inserts its row in the lockdown. -/
theorem frozen_of_lockdown_overtaken :
    ∃ p q : Process, p.lockdown = .IMMEDIATE ∧ p.pastCheck.card = 1 ∧
      p.service.data_storage.rows = [] ∧ q.service.data_storage.rows.length = 1 ∧ Frozen p q := by
  have hrun : ((processSystem 3 smallService).runFrom (.start 3 smallService) overtaken).any
      (fun p => p.lockdown == .IMMEDIATE && p.pastCheck.card == 1 &&
        p.service.data_storage.rows.isEmpty &&
        ((((processSystem 3 smallService).startingAt p).restrict fun _ l => Stands l).runFrom p
          (work 5)).any fun q => q.service.data_storage.rows.length == 1) = true := by
    decide +kernel
  obtain ⟨p, hp, hend⟩ := StepSystem.exists_reachable_of_any rfl hrun
  simp only [Bool.and_eq_true, beq_iff_eq, List.isEmpty_iff] at hend
  obtain ⟨⟨⟨hlock, hcard⟩, hempty⟩, hrest⟩ := hend
  obtain ⟨q, hq, hrow⟩ := StepSystem.exists_reachable_of_any rfl hrest
  exact ⟨p, q, hlock, hcard, hempty, beq_iff_eq.mp hrow,
    frozen_of_lockdown hp (by simp [hlock]) (StepSystem.Reachable.of_restrict hq)⟩

end Main
