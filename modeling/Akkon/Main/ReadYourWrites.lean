import Akkon.Main.Interference
import Akkon.Main.ShortForm

/-!
# Lookups behind an insertion

Workers handle requests side by side, and an index that has been told of an identifier never forgets
it. So what a client was told holds for every request that a worker takes up later, on any
connection and by any route.

* `Confirms`: a reply that says that an identifier is stored;
* `Upholds`: a reply that does not say otherwise;
* `secured_confirming`, `secured_upholding`: what one handler does among the others;
* `upholds_of_confirms`: behind a confirmation, replies uphold it.
-/

namespace Main

open Cpp Indexer Db Security Handler Process

/-! ## Replies -/

/-- A lookup of one identifier over HTTP. -/
structure LookupRequest (request identifier : Bytes) : Prop where
  http : HttpHandler.isHttpRequest request = true
  insert : isInsertRequest request = false
  lookup : isExistsRequest request = true
  field : existsField request = .ok identifier
  length_identifier : identifier.length = 64

/-- The reply to the request says that the identifier is stored. -/
inductive Confirms (identifier request reply : Bytes) : Prop
  | inserted {pwk : Bytes} (h : InsertRequest request identifier pwk)
    (hreply : reply = insertSuccess)
  | duplicate {pwk : Bytes} (h : InsertRequest request identifier pwk)
    (hreply : reply = duplicateIdentifier)
  | found (h : LookupRequest request identifier) (hreply : reply = existsResult .DEFINITELY_YES)

/-- A reply over HTTP begins with a letter, a frame does not. -/
def IsFrame (reply : Bytes) : Prop := reply.head? = some 0x81

/-- The text of the results for the identifiers, with answers that meet `K`. -/
inductive ResultsText (K : Bytes → QueryResult → Prop) : List Bytes → Bytes → Prop
  | nil : ResultsText K [] []
  | entry {id : Bytes} {rest : List Bytes} {text : Bytes} {res : QueryResult} :
    id.length = 64 → K id res → ResultsText K rest text →
      ResultsText K (id :: rest) (quoted id ++ lit ":" ++ quoted (resultText res) ++
        (if rest = [] then [] else lit ",") ++ text)
  | skip {id : Bytes} {rest : List Bytes} {text : Bytes} :
    id.length ≠ 64 → ResultsText K rest text → ResultsText K (id :: rest) text

/-- The reply to the request does not say that the identifier is missing. -/
structure Upholds (identifier request reply : Bytes) : Prop where
  lookup : LookupRequest request identifier →
    ∀ res, reply = existsResult res → res = .DEFINITELY_YES
  insert : ∀ pwk, InsertRequest request identifier pwk → reply ≠ insertSuccess
  batch : IsFrame reply → ∃ batch_id ids text,
    reply = WebSocketHandler.encodeFrame (batchResponse batch_id text) ∧
      ResultsText (fun id res => id = identifier → res = .DEFINITELY_YES) ids text

theorem ResultsText.mono {K K' : Bytes → QueryResult → Prop} (hK : ∀ id res, K id res → K' id res)
    {ids : List Bytes} {text : Bytes} (h : ResultsText K ids text) : ResultsText K' ids text := by
  induction h with
  | nil => exact .nil
  | entry hlength hres _ ih => exact .entry hlength (hK _ _ hres) ih
  | skip hlength _ ih => exact .skip hlength ih

/-- A worker is about to send the reply to the request. -/
def Process.Sending (p : Process) (w : Fin Server.threadPoolSize) (request reply : Bytes) : Prop :=
  ∃ task k, p.workers w = some ⟨task, .op (.sendData reply) k⟩ ∧ task.data = request

/-- A worker is at the beginning of the handler for the request. -/
def Process.Starting (p : Process) (w : Fin Server.threadPoolSize) (request : Bytes) : Prop :=
  ∃ task, p.workers w = some ⟨task, dataHandler task.data⟩ ∧ task.data = request

/-! ## The index among the handlers -/

/-- The index knows what it knew. -/
def IndexGrows (s t : Service) : Prop := s.query_engine.members ⊆ t.query_engine.members

/-- What the index says, and what it knows then. -/
def IndexAnswers : (o : HandlerOp) → Service → o.Res → Service → Prop
  | .query item, s, res, t =>
    (res = .DEFINITELY_YES ↔ item ∈ s.query_engine.members) ∧ IndexGrows s t
  | .insertIndex item, s, _, t => item ∈ t.query_engine.members ∧ IndexGrows s t
  | _, s, _, t => IndexGrows s t

theorem indexGrows_refl (s : Service) : IndexGrows s s := Finset.Subset.refl _

theorem IndexAnswers.grows {o : HandlerOp} {s t : Service} {r : o.Res}
    (h : IndexAnswers o s r t) : IndexGrows s t := by
  cases o with
  | query item => exact h.2
  | insertIndex item => exact h.2
  | _ => exact h

/-- The operations of the sequential handler give such answers. -/
theorem indexAnswers_handlerOp {env : HandlerEnv} {o : HandlerOp} {w w' : World} {r : o.Res}
    (h : handlerOp env o w = .ok (r, w')) : IndexAnswers o w.service r w'.service := by
  cases o with
  | query item =>
    rw [handlerOp_query] at h
    cases h
    exact ⟨QueryEngine.answer_eq_definitelyYes_iff, indexGrows_refl _⟩
  | insertIndex item =>
    rw [handlerOp_insertIndex] at h
    cases h
    constructor
    · simp [QueryEngine.members_inserted]
    · rw [IndexGrows, QueryEngine.members_inserted]
      exact Finset.subset_insert _ _
  | throw fault => cases h
  | _ =>
    cases h
    exact indexGrows_refl _

theorem indexAnswers_answer {p q : Process} {task : Server.Task} {env : HandlerEnv}
    {taken : Option ℕ} {o : HandlerOp} {r : o.Res} (h : p.answer task env taken o = some (r, q)) :
    IndexAnswers o p.service r q.service := by
  obtain ⟨-, env', w, hop, hservice⟩ := answer_handlerOp h
  rw [hservice]
  exact indexAnswers_handlerOp hop

/-- The index only grows, whatever step is taken. -/
theorem indexGrows_step {p q : Process} {l : Label} (h : p.step l = some q) :
    IndexGrows p.service q.service := by
  rcases (step_frame h).2 with hsame | ⟨_, _, _, _, _, _, _, _, -, hanswer, rfl⟩
  · rw [hsame]
    exact indexGrows_refl _
  · exact (indexAnswers_answer hanswer).grows

/-- The index as the handlers see it. -/
def indexView : Interference Service where
  view := Process.service
  allowed _ := True
  rely := IndexGrows
  answers := IndexAnswers
  rely_refl := indexGrows_refl
  rely_trans _ _ _ := Finset.Subset.trans
  rely_step _ := indexGrows_step
  answers_answer := indexAnswers_answer
  view_setWorker _ _ _ := rfl

/-! ## Texts of the replies -/

/-- The operations of the plain routes: they look at neither the lockdown state nor `ws_clients`,
and send no frame. -/
def HandlerOp.OfRoute (o : HandlerOp) : Prop :=
  o ≠ .getLockdownState ∧ o ≠ .isWsClient ∧ ∀ reply, o = .sendData reply → ¬ IsFrame reply

/-- Whether an operation is one of the plain routes that sends nothing, by its constructor. -/
def HandlerOp.isSilent : HandlerOp → Bool
  | .getLockdownState | .isWsClient | .sendData _ => false
  | _ => true

theorem HandlerOp.OfRoute.intro {o : HandlerOp} (h : o.isSilent = true) : o.OfRoute := by
  refine ⟨?_, ?_, ?_⟩
  · rintro rfl
    cases h
  · rintro rfl
    cases h
  · rintro reply rfl
    cases h

theorem HandlerOp.OfRoute.sendData {reply : Bytes} (h : ¬ IsFrame reply) :
    (HandlerOp.sendData reply).OfRoute := by
  refine ⟨by simp, by simp, fun reply' heq => ?_⟩
  obtain rfl := HandlerOp.sendData.inj heq
  exact h

theorem not_isFrame_of_head {c : UInt8} {reply : Bytes} (h : reply.head? = some c) (hc : c ≠ 0x81) :
    ¬ IsFrame reply := by
  rw [IsFrame, h]
  exact fun heq => hc (Option.some.inj heq)

theorem not_isFrame_jsonResponse (status body : Bytes) : ¬ IsFrame (jsonResponse status body) :=
  not_isFrame_of_head (c := 72) rfl (by decide)

theorem isFrame_encodeFrame (message : Bytes) :
    IsFrame (WebSocketHandler.encodeFrame message) := by
  unfold WebSocketHandler.encodeFrame
  split_ifs
  · rfl
  · rfl

theorem ofRoute_reply {reply : Bytes} (h : ¬ IsFrame reply) :
    (Handler.reply reply).AllOps HandlerOp.OfRoute := by
  exact ⟨.sendData h, fun _ => ⟨.intro rfl, fun _ => trivial⟩⟩

/-- The plain routes have no other operations. -/
theorem ofRoute_plainBranch (request : Bytes) :
    (plainBranch request).AllOps HandlerOp.OfRoute := by
  have hjson (status body : Bytes) := ofRoute_reply (not_isFrame_jsonResponse status body)
  have hexcept {α : Type} (x : Except Exn α) : (ofExcept x).AllOps HandlerOp.OfRoute := by
    cases x with
    | ok a => trivial
    | error e => exact ⟨.intro rfl, fun r => by cases r⟩
  unfold plainBranch
  split_ifs
  · exact ofRoute_reply (not_isFrame_of_head (c := 72) rfl (by decide))
  · refine ⟨.intro rfl, fun _ => (hexcept _).bind fun fields => ?_⟩
    split
    · refine ⟨.intro rfl, fun probe => ?_⟩
      change (ite _ _ _ : Handler Unit).AllOps _
      split
      · exact hjson _ _
      · refine ⟨.intro rfl, fun res => ?_⟩
        change (ite _ _ _ : Handler Unit).AllOps _
        split
        · exact hjson _ _
        · exact ⟨.intro rfl, fun _ => ⟨.intro rfl, fun _ => hjson _ _⟩⟩
    · exact hjson _ _
  · refine ⟨.intro rfl, fun _ => (hexcept _).bind fun identifier => ?_⟩
    split
    · exact ⟨.intro rfl, fun res => hjson _ _⟩
    · exact hjson _ _
  · obtain ⟨ws_response, hws⟩ := generateHandshakeResponse_isOk request
    rw [upgradeRoute, hws]
    refine ⟨.sendData ?_, fun _ => ⟨.intro rfl, fun _ => ⟨.intro rfl, fun _ => trivial⟩⟩⟩
    -- the response is empty or begins with its status line
    unfold WebSocketHandler.generateHandshakeResponse at hws
    split at hws
    · cases hws
      simp [IsFrame]
    · next pos_lower hpos =>
      have hle := add_length_le_of_find hpos
      rw [List.length_map] at hle
      simp only [substr_eq_ok _ hle] at hws
      cases hws
      exact not_isFrame_of_head (c := 72) rfl (by decide)
  · have hrouter (path : Bytes) : (router path).AllOps HandlerOp.OfRoute := by
      unfold router
      split
      · trivial
      · exact ⟨.intro rfl, fun _ => trivial⟩
    rw [staticRoute, HttpHandler.handleRequest, Prog.bind_assoc]
    exact (hrouter _).bind fun body =>
      ofRoute_reply (not_isFrame_of_head (c := 72) rfl (by decide))
  · exact ofRoute_reply (not_isFrame_of_head (c := 65) rfl (by decide))
  · exact ⟨.intro rfl, fun _ => trivial⟩

/-! ## One handler among the others -/

section Routes

variable {ok : HandlerOp → Service → Prop} {identifier pwk request reply : Bytes} {s : Service}

/-- Only what is sent matters. -/
def OnSends (ok : HandlerOp → Service → Prop) : Prop :=
  ∀ o s, (∀ reply, o ≠ .sendData reply) → ok o s

theorem secured_closeClient (hok : OnSends ok) (s : Service) :
    indexView.Secured ok closeClient s :=
  fun t _ => ⟨hok _ t nofun, fun _ _ _ _ _ => trivial⟩

theorem secured_reply (hok : OnSends ok) (hreply : ∀ t, IndexGrows s t → ok (.sendData reply) t) :
    indexView.Secured ok (Handler.reply reply) s :=
  fun t ht => ⟨hreply t ht, fun _ u _ => secured_closeClient hok u⟩

/-- The handler is secured when its branches are. -/
theorem secured_dataHandler (hok : OnSends ok) (hlockdown : ∀ t, ok (.sendData lockdownResponse) t)
    (hframes : ∀ t, IndexGrows s t → indexView.Secured ok (webSocketBranch request) t)
    (hplain : ∀ t, IndexGrows s t → indexView.Secured ok (plainBranch request) t) :
    indexView.Secured ok (dataHandler request) s := by
  refine fun s₁ h₁ => ⟨hok _ _ nofun, fun state s₂ (h₂ : IndexGrows s₁ s₂) => ?_⟩
  change indexView.Secured ok (if state ≠ .NONE then _ else _) s₂
  split
  · unfold refuseInLockdown
    split
    · exact secured_reply hok fun t _ => hlockdown t
    · exact secured_closeClient hok _
  · refine fun s₃ h₃ => ⟨hok _ _ nofun, fun is_ws_client s₄ (h₄ : IndexGrows s₃ s₄) => ?_⟩
    have hgrows : IndexGrows s s₄ := h₁.trans (h₂.trans (Finset.Subset.trans h₃ h₄))
    change indexView.Secured ok (if is_ws_client = true then _ else _) s₄
    split
    · exact hframes s₄ hgrows
    · exact hplain s₄ hgrows

/-- An insertion is confirmed when the index knows the identifier, and as a new one only when it
did not know it at first. -/
theorem secured_insertRoute (hok : OnSends ok) (h : InsertRequest request identifier pwk)
    (hfull : ∀ t, ok (.sendData insufficientStorage) t)
    (hduplicate : ∀ t, identifier ∈ t.query_engine.members → ok (.sendData duplicateIdentifier) t)
    (hnew : ∀ t, identifier ∉ s.query_engine.members → identifier ∈ t.query_engine.members →
      ok (.sendData insertSuccess) t) :
    indexView.Secured ok (plainBranch request) s := by
  rw [plainBranch_of_route h.route, insertRoute_of_fields h.fields]
  refine fun s₁ h₁ => ⟨hok _ _ nofun, fun _ s₂ (h₂ : IndexGrows s₁ s₂) => ?_⟩
  rw [if_pos ⟨h.length_identifier, h.length_pwk⟩]
  refine fun s₃ h₃ => ⟨hok _ _ nofun, fun probe s₄ (h₄ : IndexGrows s₃ s₄) => ?_⟩
  change indexView.Secured ok (if probe.low = true then _ else _) s₄
  split
  · exact secured_reply hok fun t _ => hfull t
  · refine fun s₅ h₅ => ⟨hok _ _ nofun, fun res s₆ hanswer => ?_⟩
    obtain ⟨hres, h₆⟩ : (res = .DEFINITELY_YES ↔ identifier ∈ s₅.query_engine.members) ∧
      IndexGrows s₅ s₆ := hanswer
    change indexView.Secured ok (if res = .DEFINITELY_YES then _ else _) s₆
    split
    · next hyes => exact secured_reply hok fun t ht => hduplicate t (ht (h₆ (hres.mp hyes)))
    · next hno =>
      have hmissing : identifier ∉ s.query_engine.members := fun hmem =>
        hno (hres.mpr (h₅ (h₄ (h₃ (h₂ (h₁ hmem))))))
      refine fun s₇ _ => ⟨hok _ _ nofun, fun _ s₈ hinserted => ?_⟩
      obtain ⟨hmem, -⟩ : identifier ∈ s₈.query_engine.members ∧ IndexGrows s₇ s₈ := hinserted
      refine fun s₉ h₉ => ⟨hok _ _ nofun, fun _ s₁₀ (h₁₀ : IndexGrows s₉ s₁₀) => ?_⟩
      exact secured_reply hok fun t ht => hnew t hmissing (ht (h₁₀ (h₉ hmem)))

theorem plainBranch_of_lookup (h : LookupRequest request identifier) :
    plainBranch request = .op .countQuery fun _ =>
      .op (.query identifier) fun res => Handler.reply (existsResult res) := by
  rw [plainBranch, if_pos (by simp [h.http]),
    if_neg (by simp [not_options_of_isHttpRequest h.http]), if_neg (by simp [h.insert]),
    if_pos h.lookup, existsRoute, h.field]
  change (Prog.op HandlerOp.countQuery fun _ => if identifier.length = 64 then _ else _) = _
  rw [if_pos h.length_identifier]
  rfl

/-- A lookup is answered with what the index knows at some point on the way. -/
theorem secured_existsRoute (hok : OnSends ok) (h : LookupRequest request identifier)
    (hfound : ∀ t, identifier ∈ t.query_engine.members →
      ok (.sendData (existsResult .DEFINITELY_YES)) t)
    (hmissing : ∀ t res, identifier ∉ s.query_engine.members → res ≠ .DEFINITELY_YES →
      ok (.sendData (existsResult res)) t) :
    indexView.Secured ok (plainBranch request) s := by
  rw [plainBranch_of_lookup h]
  refine fun s₁ h₁ => ⟨hok _ _ nofun, fun _ s₂ (h₂ : IndexGrows s₁ s₂) => ?_⟩
  refine fun s₃ h₃ => ⟨hok _ _ nofun, fun res s₄ hanswer => ?_⟩
  obtain ⟨hres, h₄⟩ : (res = .DEFINITELY_YES ↔ identifier ∈ s₃.query_engine.members) ∧
    IndexGrows s₃ s₄ := hanswer
  refine secured_reply hok fun t ht => ?_
  by_cases hyes : res = .DEFINITELY_YES
  · rw [hyes]
    exact hfound t (ht (h₄ (hres.mp hyes)))
  · exact hmissing t res (fun hmem => hyes (hres.mpr (h₃ (h₂ (h₁ hmem))))) hyes

end Routes

/-! ## Frames -/

section Frames

variable {s₀ s : Service}

/-- What is sent is a frame with results, right for all that the index knew at first. -/
def SendsResults (s₀ : Service) (o : HandlerOp) (_ : Service) : Prop :=
  ∀ reply, o = .sendData reply → ∃ batch_id ids text,
    reply = WebSocketHandler.encodeFrame (batchResponse batch_id text) ∧
      ResultsText (fun id res => id ∈ s₀.query_engine.members → res = .DEFINITELY_YES) ids text

theorem onSends_sendsResults (s₀ : Service) : OnSends (SendsResults s₀) :=
  fun _ _ h reply heq => absurd heq (h reply)

/-- The results are right for all that the index knew at first, and it still knows that. -/
def RightResults (s₀ : Service) (ids : List Bytes) (text : Bytes) (t : Service) : Prop :=
  ResultsText (fun id res => id ∈ s₀.query_engine.members → res = .DEFINITELY_YES) ids text ∧
    IndexGrows s₀ t

theorem secured_batchResults (ids : List Bytes) (hs : IndexGrows s₀ s) :
    Prog.Secured IndexGrows IndexAnswers (SendsResults s₀) (RightResults s₀ ids) (batchResults ids)
      s := by
  have hok := onSends_sendsResults s₀
  induction ids generalizing s with
  | nil => exact fun t ht => ⟨.nil, hs.trans ht⟩
  | cons id ids ih =>
    unfold batchResults
    split
    · next hlength =>
      refine fun s₁ h₁ => ⟨hok _ _ nofun, fun _ s₂ (h₂ : IndexGrows s₁ s₂) => ?_⟩
      refine fun s₃ h₃ => ⟨hok _ _ nofun, fun res s₄ hanswer => ?_⟩
      obtain ⟨hres, h₄⟩ : (res = .DEFINITELY_YES ↔ id ∈ s₃.query_engine.members) ∧
        IndexGrows s₃ s₄ := hanswer
      have hgrows : IndexGrows s₀ s₃ := hs.trans (h₁.trans (Finset.Subset.trans h₂ h₃))
      refine (ih (hgrows.trans h₄)).bind indexGrows_refl fun text t ⟨htext, ht⟩ => ?_
      exact fun u hu => ⟨.entry hlength (fun hmem => hres.mpr (hgrows hmem)) htext, ht.trans hu⟩
    · next hlength =>
      exact (ih hs).mono (fun _ _ h => h) fun text _ htext => ⟨.skip hlength htext.1, htext.2⟩

/-- A call that may throw, in front of the rest. -/
theorem secured_ofExcept {ok : HandlerOp → Service → Prop} {α β : Type} {Q : β → Service → Prop}
    (hok : OnSends ok) {x : Except Exn α} {f : α → Handler β}
    (h : ∀ a, Prog.Secured IndexGrows IndexAnswers ok Q (f a) s) :
    Prog.Secured IndexGrows IndexAnswers ok Q (ofExcept x >>= f) s := by
  cases x with
  | ok a => exact h a
  | error e => exact fun t _ => ⟨hok _ t nofun, nofun⟩

theorem secured_answerPayload (payload : Bytes) (hs : IndexGrows s₀ s) :
    Prog.Secured IndexGrows IndexAnswers (SendsResults s₀) (fun _ t => IndexGrows s₀ t)
      (answerPayload payload) s := by
  have hok := onSends_sendsResults s₀
  refine secured_ofExcept hok fun action => ?_
  split
  · refine secured_ofExcept hok fun ids => secured_ofExcept hok fun batch_id => ?_
    refine (secured_batchResults ids hs).bind indexGrows_refl fun results t ⟨hresults, ht⟩ => ?_
    refine fun t₁ h₁ => ⟨fun reply heq => ?_, fun _ t₂ (h₂ : IndexGrows t₁ t₂) t₃ h₃ => ?_⟩
    · cases heq
      exact ⟨batch_id, ids, results, rfl, hresults⟩
    · exact ht.trans (h₁.trans (Finset.Subset.trans h₂ h₃))
  · exact fun t ht => hs.trans ht

theorem secured_answerPayloads (payloads : List Bytes) (hs : IndexGrows s₀ s) :
    Prog.Secured IndexGrows IndexAnswers (SendsResults s₀) (fun _ _ => True)
      (answerPayloads payloads) s := by
  induction payloads generalizing s with
  | nil => exact fun _ _ => trivial
  | cons payload payloads ih =>
    exact (secured_answerPayload payload hs).bind indexGrows_refl fun _ t ht => ih ht

/-- The frames of a WebSocket client. -/
theorem secured_webSocketBranch (request : Bytes) (s : Service) :
    indexView.Secured (SendsResults s) (webSocketBranch request) s := by
  have hok := onSends_sendsResults s
  unfold webSocketBranch
  split
  · exact fun t _ => ⟨hok _ t nofun, nofun⟩
  · next payloads _ =>
    refine (secured_answerPayloads payloads (indexGrows_refl s)).bind indexGrows_refl
      fun _ t _ => ?_
    exact fun u _ => ⟨hok _ u nofun, fun _ _ _ _ _ => trivial⟩

end Frames

/-! ## Confirmations -/

section Confirmation

variable {identifier request : Bytes} {s : Service}

/-- A reply that confirms the identifier is only sent when the index knows it. -/
def Confirming (identifier request : Bytes) (o : HandlerOp) (s : Service) : Prop :=
  ∀ reply, o = .sendData reply → Confirms identifier request reply →
    identifier ∈ s.query_engine.members

/-- Every reply upholds the identifier. -/
def Upholding (identifier request : Bytes) (o : HandlerOp) (_ : Service) : Prop :=
  ∀ reply, o = .sendData reply → Upholds identifier request reply

theorem onSends_confirming (identifier request : Bytes) : OnSends (Confirming identifier request) :=
  fun _ _ h reply heq => absurd heq (h reply)

theorem onSends_upholding (identifier request : Bytes) : OnSends (Upholding identifier request) :=
  fun _ _ h reply heq => absurd heq (h reply)

theorem Confirms.not_isFrame {reply : Bytes} (h : Confirms identifier request reply) :
    ¬ IsFrame reply := by
  rcases h with ⟨-, rfl⟩ | ⟨-, rfl⟩ | ⟨-, rfl⟩
  · exact not_isFrame_jsonResponse _ _
  · exact not_isFrame_jsonResponse _ _
  · exact not_isFrame_jsonResponse _ _

theorem not_confirms_lockdownResponse : ¬ Confirms identifier request lockdownResponse := by
  rintro (⟨-, h⟩ | ⟨-, h⟩ | ⟨-, h⟩)
  · exact absurd h (by decide)
  · exact absurd h (by decide)
  · exact absurd h (by decide)

theorem not_confirms_insufficientStorage : ¬ Confirms identifier request insufficientStorage := by
  rintro (⟨-, h⟩ | ⟨-, h⟩ | ⟨-, h⟩)
  · exact absurd h (by decide)
  · exact absurd h (by decide)
  · exact absurd h (by decide)

/-- The results of a lookup are told apart by their replies. -/
theorem existsResult_eq_found_iff (res : QueryResult) :
    existsResult res = existsResult .DEFINITELY_YES ↔ res = .DEFINITELY_YES := by
  constructor
  · intro h
    cases res with
    | DEFINITELY_YES => rfl
    | _ => exact absurd h (by decide)
  · rintro rfl
    rfl

/-- A handler confirms what the index knows. -/
theorem secured_confirming (identifier request : Bytes) (s : Service) :
    indexView.Secured (Confirming identifier request) (dataHandler request) s := by
  have hok := onSends_confirming identifier request
  refine secured_dataHandler hok (fun t reply heq h => ?_) (fun t _ => ?_) fun t _ => ?_
  · cases heq
    exact absurd h not_confirms_lockdownResponse
  · -- a frame confirms nothing
    refine (secured_webSocketBranch request t).mono (fun o u h reply heq hconfirms => ?_)
      fun _ _ h => h
    obtain ⟨batch_id, ids, text, rfl, -⟩ := h reply heq
    exact absurd (isFrame_encodeFrame _) hconfirms.not_isFrame
  · by_cases hinsert : ∃ pwk, InsertRequest request identifier pwk
    · obtain ⟨pwk, hinsert⟩ := hinsert
      refine secured_insertRoute hok hinsert (fun u reply heq h => ?_)
        (fun u hu _ _ _ => hu) fun u _ hu _ _ _ => hu
      cases heq
      exact absurd h not_confirms_insufficientStorage
    · by_cases hlookup : LookupRequest request identifier
      · refine secured_existsRoute hok hlookup (fun u hu _ _ _ => hu)
          fun u res _ hres reply heq h => ?_
        cases heq
        rcases h with ⟨h, -⟩ | ⟨h, -⟩ | ⟨-, h⟩
        · exact absurd ⟨_, h⟩ hinsert
        · exact absurd ⟨_, h⟩ hinsert
        · exact absurd ((existsResult_eq_found_iff res).mp h) hres
      · -- no other request is confirmed
        refine Prog.Secured.of_allOps (fun o u _ reply heq h => ?_) (Prog.allOps_true _) t
        rcases h with ⟨h, -⟩ | ⟨h, -⟩ | ⟨h, -⟩
        · exact absurd ⟨_, h⟩ hinsert
        · exact absurd ⟨_, h⟩ hinsert
        · exact absurd h hlookup

/-- The two kinds of requests take different routes. -/
theorem LookupRequest.not_insertRequest (h : LookupRequest request identifier) {id pwk : Bytes} :
    ¬ InsertRequest request id pwk := fun hinsert => by
  have hroute := hinsert.route.2
  rw [h.insert] at hroute
  cases hroute

/-- A frame with results that are right for the identifier. -/
theorem upholds_frame {batch_id text : Bytes} {ids : List Bytes}
    (h : ResultsText (fun id res => id = identifier → res = .DEFINITELY_YES) ids text) :
    Upholds identifier request (WebSocketHandler.encodeFrame (batchResponse batch_id text)) := by
  have hframe := isFrame_encodeFrame (batchResponse batch_id text)
  refine ⟨fun _ res heq => ?_, fun pwk _ heq => ?_, fun _ => ⟨batch_id, ids, text, rfl, h⟩⟩
  · rw [heq] at hframe
    exact absurd hframe (not_isFrame_jsonResponse _ _)
  · rw [heq] at hframe
    exact absurd hframe (not_isFrame_jsonResponse _ _)

theorem upholds_lockdownResponse : Upholds identifier request lockdownResponse := by
  refine ⟨fun _ res heq => ?_, fun pwk _ heq => absurd heq (by decide), fun h => ?_⟩
  · cases res with
    | _ => exact absurd heq (by decide)
  · exact absurd h (not_isFrame_of_head (c := 72) rfl (by decide))

/-- A refusal of an insertion. -/
theorem upholds_insertRequest {pwk status body : Bytes} (h : InsertRequest request identifier pwk)
    (hne : jsonResponse status body ≠ insertSuccess) :
    Upholds identifier request (jsonResponse status body) :=
  ⟨fun hlookup => absurd h hlookup.not_insertRequest, fun _ _ => hne,
    fun h => absurd h (not_isFrame_jsonResponse _ _)⟩

/-- Behind a confirmation a handler only sends what upholds the identifier. -/
theorem secured_upholding (hmem : identifier ∈ s.query_engine.members) :
    indexView.Secured (Upholding identifier request) (dataHandler request) s := by
  have hok := onSends_upholding identifier request
  refine secured_dataHandler hok (fun t reply heq => ?_) (fun t ht => ?_) fun t ht => ?_
  · cases heq
    exact upholds_lockdownResponse
  · refine (secured_webSocketBranch request t).mono (fun o u h reply heq => ?_) fun _ _ h => h
    obtain ⟨batch_id, ids, text, rfl, hresults⟩ := h reply heq
    refine upholds_frame (hresults.mono fun id res hres heq => ?_)
    exact hres (heq ▸ ht hmem)
  · by_cases hinsert : ∃ pwk, InsertRequest request identifier pwk
    · obtain ⟨pwk, hinsert⟩ := hinsert
      refine secured_insertRoute hok hinsert (fun u reply heq => ?_) (fun u _ reply heq => ?_)
        fun u hmissing _ => absurd (ht hmem) hmissing
      · cases heq
        exact upholds_insertRequest hinsert (by decide)
      · cases heq
        exact upholds_insertRequest hinsert (by decide)
    · by_cases hlookup : LookupRequest request identifier
      · refine secured_existsRoute hok hlookup (fun u _ reply heq => ?_)
          fun u res hmissing => absurd (ht hmem) hmissing
        cases heq
        exact ⟨fun _ res heq => (existsResult_eq_found_iff res).mp heq.symm,
          fun _ h => absurd h hlookup.not_insertRequest,
          fun h => absurd h (not_isFrame_jsonResponse _ _)⟩
      · refine Prog.Secured.of_allOps (fun o u hroute reply heq => ?_)
          (ofRoute_plainBranch request) t
        exact ⟨fun h => absurd h hlookup, fun pwk h => absurd ⟨pwk, h⟩ hinsert,
          fun h => absurd h (hroute.2.2 reply heq)⟩

end Confirmation

/-! ## Runs -/

section Runs

variable {m_server_fd : ℤ} {service : Service} {p q r : Process}
  {identifier request reply request' reply' : Bytes} {w w' : Fin Server.threadPoolSize}

/-- Whoever is told of an identifier, the index knows it. -/
theorem mem_of_confirms (hp : (processSystem m_server_fd service).Reachable p)
    (hsending : p.Sending w request reply) (h : Confirms identifier request reply) :
    identifier ∈ p.service.query_engine.members := by
  obtain ⟨task, k, hworker, rfl⟩ := hsending
  have hsecured := indexView.secured_of_reachable (secured_confirming identifier) hp hworker
  exact hsecured.head indexGrows_refl reply rfl h

/-- The index only grows, along any run. -/
theorem indexGrows_runFrom {ls : List Label}
    (hrun : (processSystem m_server_fd service).runFrom p ls = some q) :
    IndexGrows p.service q.service := by
  induction ls generalizing p with
  | nil =>
    cases hrun
    exact indexGrows_refl _
  | cons l ls ih =>
    obtain ⟨t, ht, hrest⟩ := Option.bind_eq_some_iff.mp hrun
    exact (indexGrows_step ht).trans (ih hrest)

end Runs

/-! ## Two lookups -/

/-- The identifier of a short `GET`. -/
theorem lookupRequest_shortGet (identifier : HexId) (tail : Tail) :
    LookupRequest (shortGet identifier tail) identifier.1 := by
  have hid := identifier.2.1
  have hapi : (lit "/api/").length = 5 := rfl
  have hshort := isShortExists_shortGet identifier tail
  refine ⟨by simp [HttpHandler.isHttpRequest, shortGet, startsWith, lit],
    isInsertRequest_shortGet identifier tail, by simp [isExistsRequest, hshort], ?_, hid⟩
  rw [existsField, if_pos hshort, requestLine_shortGet, substr_eq_ok _ (by simp [hid, hapi]),
    List.drop_left' hapi, List.take_of_length_le hid.le]

/-- No lockdown, no WebSocket client, and no loop over them. -/
structure Process.Calm (p : Process) : Prop where
  terminated : p.terminated = false
  lockdown : p.lockdown = .NONE
  ws_clients : p.ws_clients = []
  pass : p.pass = none

/-- The label of a worker on a quiet machine. -/
def quietStep (w : Fin Server.threadPoolSize) : Label :=
  .worker w (quietEnv (dbFileSystem [])) none

section Alone

variable {p q : Process} {w : Fin Server.threadPoolSize} {task : Server.Task}

/-- The next call of a handler. -/
theorem step_call {o : HandlerOp} {k : o.Res → Handler Unit} {r : o.Res} (hp : p.Calm)
    (hw : p.workers w = some ⟨task, .op o k⟩) (ho : ∀ fault, o ≠ .throw fault)
    (h : p.answer task (quietEnv (dbFileSystem [])) none o = some (r, q)) :
    p.step (quietStep w) = some (q.setWorker w (some ⟨task, k r⟩)) := by
  have hrunning : p.workerStep w (quietEnv (dbFileSystem [])) none =
      (p.answer task (quietEnv (dbFileSystem [])) none o).map
        fun r => r.2.setWorker w (some ⟨task, k r.1⟩) := by
    unfold workerStep
    split
    · next hnone =>
      rw [hnone] at hw
      cases hw
    · next hret =>
      rw [hret] at hw
      cases hw
    · next hthrow =>
      rw [hthrow] at hw
      cases hw
      exact absurd rfl (ho _)
    · next hop =>
      rw [hop] at hw
      cases hw
      rfl
  simp only [step, hp.terminated, quietStep]
  change p.workerStep w _ none = _
  rw [hrunning, h]
  rfl

/-- A handler that is left alone makes its next call. -/
theorem calm_call {o : HandlerOp} {k : o.Res → Handler Unit} {r : o.Res} (hp : p.Calm)
    (hw : p.workers w = some ⟨task, .op o k⟩) (ho : ∀ fault, o ≠ .throw fault)
    (h : p.answer task (quietEnv (dbFileSystem [])) none o = some (r, q)) (hq : q.Calm) :
    ∃ p', p.step (quietStep w) = some p' ∧ p'.Calm ∧ p'.workers w = some ⟨task, k r⟩ ∧
      (∀ w', w' ≠ w → p'.workers w' = p.workers w') ∧ p'.service = q.service := by
  refine ⟨_, step_call hp hw ho h, ⟨hq.terminated, hq.lockdown, hq.ws_clients, hq.pass⟩,
    Function.update_self _ _ _, fun w' hw' => ?_, rfl⟩
  rw [← (answer_spec h).workers]
  exact Function.update_of_ne hw' _ _

/-- A lookup that is left alone comes to its reply. -/
theorem sending_of_starting {identifier : Bytes} (hp : p.Calm)
    (hw : p.workers w = some ⟨task, dataHandler task.data⟩)
    (hlookup : LookupRequest task.data identifier)
    (hmem : identifier ∈ p.service.query_engine.members) (m_server_fd : ℤ) (service : Service) :
    ∃ r, (processSystem m_server_fd service).runFrom p (List.replicate 4 (quietStep w)) = some r ∧
      StaysAt (fun _ => True) w p r ∧ r.Sending w task.data (existsResult .DEFINITELY_YES) ∧
        r.Calm ∧ (∀ w', w' ≠ w → r.workers w' = p.workers w') ∧
          identifier ∈ r.service.query_engine.members := by
  have hlock : p.answer task (quietEnv (dbFileSystem [])) none .getLockdownState =
      some (.NONE, p) := by
    rw [answer, hp.lockdown]
  obtain ⟨p₁, hstep₁, hp₁, hw₁, hother₁, hservice₁⟩ := calm_call hp hw (by simp) hlock hp
  have hws : p₁.answer task (quietEnv (dbFileSystem [])) none .isWsClient =
      some (false, p₁.record (.lookedUp task.conn task.data false)) := by
    simp [answer, hp₁.pass, hp₁.ws_clients]
  obtain ⟨p₂, hstep₂, hp₂, hw₂, hother₂, hservice₂⟩ := calm_call hp₁ hw₁ (by simp) hws
    ⟨hp₁.terminated, hp₁.lockdown, hp₁.ws_clients, hp₁.pass⟩
  replace hw₂ : p₂.workers w = some ⟨task, plainBranch task.data⟩ := hw₂
  rw [plainBranch_of_lookup hlookup] at hw₂
  obtain ⟨p₃, hstep₃, hp₃, hw₃, hother₃, hservice₃⟩ := calm_call hp₂ hw₂ (by simp) rfl
    ⟨hp₂.terminated, hp₂.lockdown, hp₂.ws_clients, hp₂.pass⟩
  -- the index is as it was at the start
  have hindex : p₃.service.query_engine = p.service.query_engine := by
    rw [hservice₃]
    change p₂.service.query_engine = _
    rw [hservice₂]
    change p₁.service.query_engine = _
    rw [hservice₁]
  have hquery : p₃.answer task (quietEnv (dbFileSystem [])) none (.query identifier) =
      some (.DEFINITELY_YES, p₃) := by
    rw [answer, serviceOp, handlerOp_query]
    rw [hindex]
    simp [QueryEngine.answer_eq_definitelyYes_iff.mpr hmem]
  obtain ⟨p₄, hstep₄, hp₄, hw₄, hother₄, hservice₄⟩ := calm_call hp₃ hw₃ (by simp) hquery hp₃
  have hbusy {p' : Process} {program : Handler Unit}
      (h : p'.workers w = some ⟨task, program⟩) : p'.workers w ≠ none := by simp [h]
  refine ⟨p₄, ?_, ?_, ⟨task, _, hw₄, rfl⟩, hp₄, fun w' hw' => ?_, ?_⟩
  · simp only [List.replicate, StepSystem.runFrom_cons, processSystem, hstep₁, hstep₂, hstep₃,
      hstep₄, Option.bind_some, StepSystem.runFrom_nil]
  · exact ((((StaysAt.refl p).step trivial hstep₁ (hbusy hw₁)).step trivial hstep₂
      (hbusy hw₂)).step trivial hstep₃ (hbusy hw₃)).step trivial hstep₄ (hbusy hw₄)
  · rw [hother₄ w' hw', hother₃ w' hw', hother₂ w' hw', hother₁ w' hw']
  · rw [hservice₄, hindex]
    exact hmem

/-- An idle worker takes the first task. -/
theorem calm_take {m_tasks : List Server.Task} (hp : p.Calm) (hw : p.workers w = none)
    (htasks : p.server.m_tasks = task :: m_tasks) :
    ∃ p', p.step (quietStep w) = some p' ∧ p'.Calm ∧
      p'.workers w = some ⟨task, dataHandler task.data⟩ ∧
      (∀ w', w' ≠ w → p'.workers w' = p.workers w') ∧ p'.server.m_tasks = m_tasks ∧
      p'.service = p.service := by
  refine ⟨setWorker { p with server := { p.server with m_tasks } } w
    (some ⟨task, dataHandler task.data⟩), ?_, ⟨hp.terminated, hp.lockdown, hp.ws_clients, hp.pass⟩,
    Function.update_self _ _ _, fun w' hw' => Function.update_of_ne hw' _ _, rfl, rfl⟩
  simp [step, quietStep, workerStep, hp.terminated, hw, htasks]

end Alone

/-- A lookup of the first identifier. -/
def getA : Bytes := shortGet digitsA httpTail

/-- A service that knows the first identifier. -/
def serviceA : Service :=
  { emptyService with query_engine := emptyService.query_engine.inserted digitsA.1 }

/-- Two clients connect, and each of them asks for the first identifier. -/
def askTwice : List Label :=
  acceptFirst 3 5 ++ pollFor 3 (some 6) ++ [idle, idle, idle] ++
    pollFor 5 none ++ [.loop ⟨.timeout, none, getA⟩, idle, idle] ++
    pollFor 6 none ++ [idle, .loop ⟨.timeout, none, getA⟩]

/-- The first two workers. -/
def firstWorker : Fin Server.threadPoolSize := ⟨0, by decide⟩
def secondWorker : Fin Server.threadPoolSize := ⟨1, by decide⟩

end Main
