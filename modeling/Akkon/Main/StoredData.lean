import Akkon.Main.Service

/-!
# Which requests change the stored data

The insert route is chosen by searching the whole request for the route text, so a request whose
request line asks for something else can take it as well.

* `handle_onlyInserts_iff`: handling a request on a plain connection meets the rule that only a
  successful insert request changes the stored data exactly when the request is not a stray insert
  that every guard lets through.
-/

namespace Main

open Cpp Indexer Db Security

/-- The request line asks for an insertion: `POST` to one of the three insert paths. -/
def isInsertLine (request : Bytes) : Bool :=
  isShortInsert request ||
    ((requestLine request).1 == lit "POST" &&
      ((requestLine request).2 == lit "/api/v1/insert" ||
        (requestLine request).2 == lit "/api/v1/create"))

/-- One of the two long route texts occurs somewhere in the request. -/
def containsRouteText (request : Bytes) : Bool :=
  contains request (lit "POST /api/v1/insert") || contains request (lit "POST /api/v1/create")

/-- An identifier and a pwk of 64 characters. -/
def HasFields (request : Bytes) : Prop :=
  ∃ identifier pwk, insertFields request = .ok (identifier, pwk) ∧ identifier.length = 64 ∧
    pwk.length = 64

/-- Handling a request leaves the stored data as they are, unless the request is an insert request
with an identifier and a pwk of 64 characters that is answered `200`. -/
def OnlyInserts (env : HandlerEnv) (service : Service) (request : Bytes) : Prop :=
  ∃ service' effects, handle env service request = .ok (service', effects) ∧
    (service'.stored = service.stored ∨
      (isInsertLine request = true ∧ HasFields request ∧ effects = replied insertSuccess))

/-- A guard of the handler stops an insertion: a lockdown, another method, the lengths of the
fields, a full disk, or an identifier that is in the index already. -/
def Guarded (env : HandlerEnv) (service : Service) (request : Bytes) : Prop :=
  env.lockdown ≠ .NONE ∨ HttpHandler.isHttpRequest request = false ∨ env.probe.low = true ∨
    ∀ identifier pwk, insertFields request = .ok (identifier, pwk) → identifier.length = 64 →
      pwk.length = 64 → identifier ∈ service.query_engine.members

/-- An insertion that is not guarded changes the stored data. -/
theorem stored_of_not_guarded {env : HandlerEnv} (hws : env.is_ws_client = false)
    {service : Service} {request : Bytes} (hroute : TakesInsertRoute request)
    (hguard : ¬ Guarded env service request) :
    ∃ service', handle env service request = .ok (service', replied insertSuccess) ∧
      service'.stored ≠ service.stored ∧ HasFields request := by
  simp only [Guarded, not_or, not_forall, not_not, Bool.not_eq_true] at hguard
  obtain ⟨hlock, -, hlow, identifier, pwk, hfields, hid, hpwk, hmem⟩ := hguard
  refine ⟨service.inserting identifier pwk env.storage, ?_, ?_, identifier, pwk, hfields, hid, hpwk⟩
  · rw [handle_insert hlock hws service ⟨hroute, hfields, hid, hpwk⟩, insertOutcome,
      if_neg (by simp [hlow]), if_neg hmem]
  · intro heq
    -- the index has a member it did not have
    have hquery : (service.query_engine.inserted identifier).members
        = service.query_engine.members := congrArg (·.1.members) heq
    rw [QueryEngine.members_inserted] at hquery
    exact hmem (hquery ▸ Finset.mem_insert_self _ _)

/-- A guarded request leaves the stored data as they are. -/
theorem stored_of_guarded {env : HandlerEnv} (hws : env.is_ws_client = false) {service : Service}
    {request : Bytes} (hguard : Guarded env service request) :
    ∃ service' effects, handle env service request = .ok (service', effects) ∧
      service'.stored = service.stored := by
  by_cases hlock : env.lockdown = .NONE
  swap
  · exact ⟨service, _, handle_of_lockdown hlock service request, rfl⟩
  by_cases hroute : TakesInsertRoute request
  swap
  · exact handle_of_not_route hlock hws service hroute
  -- on the insert route: the guard is one of the tests in front of the insertion
  obtain ⟨⟨identifier, pwk⟩, hfields⟩ := insertFields_isOk request
  have hhandle := handle_of_route hlock hws service hroute hfields
  by_cases hlen : identifier.length = 64 ∧ pwk.length = 64
  · rw [if_pos hlen] at hhandle
    refine ⟨(insertOutcome env service identifier pwk).1,
      (insertOutcome env service identifier pwk).2, hhandle, ?_⟩
    rw [insertOutcome]
    rcases hguard with h | h | h | h
    · exact absurd hlock h
    · exact absurd hroute.1 (by simp [h])
    · rw [if_pos h]
      rfl
    · rw [if_pos (h identifier pwk hfields hlen.1 hlen.2)]
      split_ifs
      · rfl
      · rfl
  · rw [if_neg hlen] at hhandle
    exact ⟨service.counted, _, hhandle, rfl⟩

/-- On a plain connection, only a successful insert request changes the stored data exactly when the
request line asks for an insertion, or neither route text occurs in the request, or a guard stops
the insertion. -/
theorem handle_onlyInserts_iff (env : HandlerEnv) (hws : env.is_ws_client = false)
    (service : Service) (request : Bytes) :
    OnlyInserts env service request ↔
      isInsertLine request = true ∨ containsRouteText request = false ∨
        Guarded env service request := by
  by_cases hguard : Guarded env service request
  · -- a guarded request changes nothing, so the rule holds whatever the request line says
    obtain ⟨service', effects, hhandle, hstored⟩ := stored_of_guarded hws hguard
    exact ⟨fun _ => .inr (.inr hguard), fun _ => ⟨service', effects, hhandle, .inl hstored⟩⟩
  by_cases hroute : TakesInsertRoute request
  · -- an insertion: the rule holds when the request line asks for it
    obtain ⟨service', hhandle, hstored, hfields⟩ := stored_of_not_guarded hws hroute hguard
    constructor
    · rintro ⟨service'', effects, hhandle', hrule⟩
      rw [hhandle] at hhandle'
      cases hhandle'
      exact .inl (hrule.resolve_left hstored).1
    · rintro (hline | htext | hguard')
      · exact ⟨service', _, hhandle, .inr ⟨hline, hfields, rfl⟩⟩
      · -- without a route text the route was chosen by the short form
        have hshort : isShortInsert request = true := by
          have hinsert := hroute.2
          rw [isInsertRequest] at hinsert
          rw [containsRouteText] at htext
          simpa [htext] using hinsert
        exact ⟨service', _, hhandle, .inr ⟨by simp [isInsertLine, hshort], hfields, rfl⟩⟩
      · exact absurd hguard' hguard
  · -- a request that does not take the route has no route text or another method
    have hlock : env.lockdown = .NONE := by
      by_contra hlock
      exact hguard (.inl hlock)
    obtain ⟨service', effects, hhandle, hstored⟩ := handle_of_not_route hlock hws service hroute
    refine ⟨fun _ => .inr (.inl ?_), fun _ => ⟨service', effects, hhandle, .inl hstored⟩⟩
    by_contra htext
    refine hroute ⟨?_, ?_⟩
    · by_contra hhttp
      exact hguard (.inr (.inl (by simpa using hhttp)))
    · simp only [containsRouteText, Bool.not_eq_false] at htext
      simp [isInsertRequest, htext]

/-! ## A stray insert -/

/-- A `GET` for the start page with the route text in a header and the two fields behind it. -/
def strayGet : Bytes :=
  lit "GET / HTTP/1.1\r\nX: POST /api/v1/insert\r\n\r\n" ++
    lit "\x7b\"identifier\":\"" ++ List.replicate 64 97 ++ lit "\",\"pwk\":\"" ++
    List.replicate 64 98 ++ lit "\"\x7d"

/-- The `GET` takes the insert route with fields of 64 characters. -/
theorem insertRequest_strayGet :
    InsertRequest strayGet (List.replicate 64 97) (List.replicate 64 98) where
  route := by decide +kernel
  fields := by decide +kernel
  length_identifier := rfl
  length_pwk := rfl

/-- The `GET` inserts. -/
theorem handle_strayGet :
    ¬ ∀ (env : HandlerEnv) (service : Service) (request : Bytes), env.is_ws_client = false →
      OnlyInserts env service request := by
  intro h
  have hws : (quietEnv (dbFileSystem [])).is_ws_client = false := rfl
  have hguard : ¬ Guarded (quietEnv (dbFileSystem [])) emptyService strayGet := by
    rintro (h | h | h | h)
    · exact h rfl
    · exact absurd insertRequest_strayGet.route.1 (by simp [h])
    · exact absurd h (by decide)
    · exact absurd (h _ _ insertRequest_strayGet.fields rfl rfl) (by simp [emptyService])
  obtain ⟨service', hhandle, hstored, -⟩ :=
    stored_of_not_guarded hws insertRequest_strayGet.route hguard
  obtain ⟨service'', effects, hhandle', hrule⟩ := h _ emptyService strayGet hws
  rw [hhandle] at hhandle'
  cases hhandle'
  rcases hrule with hsame | ⟨hline, -⟩
  · exact hstored hsame
  · exact absurd hline (by decide +kernel)

/-- The rule holds of a `GET` for the start page. -/
theorem handle_onlyInserts_startPage :
    OnlyInserts (quietEnv (dbFileSystem [])) emptyService (lit "GET / HTTP/1.1\r\n\r\n") :=
  (handle_onlyInserts_iff _ rfl _ _).mpr (.inr (.inl (by decide +kernel)))

end Main
