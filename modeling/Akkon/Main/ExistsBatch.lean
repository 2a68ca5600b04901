import Akkon.Main.Service
import Akkon.Network.Protocols.EncodeFrame
import Akkon.ToMathlib.Json

/-!
# The reply to a batch of identifiers

A client in `ws_clients` asks about many identifiers in one message. The reply has an entry for each
identifier of 64 characters. A comma stands behind an entry when the list goes on, even if nothing
else follows that gets an entry.

* `batchMessage`: a message for any list of identifiers;
* `run_answerPayload`: the reply to a message with given fields;
* `answersBatch_iff`: the reply is the JSON object it should be exactly when no identifier has 64
  characters or the last one has.
-/

namespace Main

open Cpp Indexer Db WebSocketHandler

/-! ## Messages -/

/-- What the handler reads in a message about a batch. -/
structure BatchMessage (message : Bytes) (ids : List Bytes) (batch_id : Bytes) : Prop where
  action : extractJsonString message (lit "action") = .ok (lit "exists_batch")
  identifiers : extractJsonArray message (lit "identifiers") = .ok ids
  batch_id : extractJsonString message (lit "batch_id") = .ok batch_id

/-- The message with which a client asks about identifiers. -/
def batchMessage (batch_id : Bytes) (ids : List Bytes) : Bytes :=
  lit "\x7b\"action\":\"exists_batch\",\"batch_id\":\"" ++ batch_id ++
    lit "\",\"identifiers\":[" ++ quotedList ids ++ lit "]\x7d"

section Message

variable (batch_id : Bytes) (ids : List Bytes)

theorem extract_action_batchMessage :
    extractJsonString (batchMessage batch_id ids) (lit "action") = .ok (lit "exists_batch") := by
  have hsplit : batchMessage batch_id ids = [123] ++ (jsonKey (lit "action") ++
      (lit "exists_batch" ++ 34 :: (lit ",\"batch_id\":\"" ++ batch_id ++
        lit "\",\"identifiers\":[" ++ quotedList ids ++ lit "]\x7d"))) := rfl
  rw [extractJsonString_eq hsplit rfl (by simp), takeWhile_append_cons (by decide)]

theorem extract_batch_id_batchMessage (hquote : 34 ∉ batch_id) :
    extractJsonString (batchMessage batch_id ids) (lit "batch_id") = .ok batch_id := by
  have hsplit : batchMessage batch_id ids =
      lit "\x7b\"action\":\"exists_batch\"," ++ (jsonKey (lit "batch_id") ++
        (batch_id ++ 34 :: (lit ",\"identifiers\":[" ++ quotedList ids ++ lit "]\x7d"))) := by
    simp [batchMessage, quoted, lit]
  rw [extractJsonString_eq hsplit rfl (by simp), takeWhile_append_cons hquote]

/-- A quoted text without quotes inside occurs in another one only when they are the same. -/
theorem eq_of_infix_quoted {s t : Bytes} (hs : 34 ∉ s) (ht : 34 ∉ t)
    (h : quoted s <:+: quoted t) : s = t := by
  have hsplit (u : Bytes) : quoted u = 34 :: (u ++ [34]) := by simp [quoted, lit]
  rw [hsplit, hsplit, List.infix_cons_iff] at h
  -- it begins with the opening quote or with the closing one
  rcases h with h | h
  · have hprefix := (List.cons_prefix_cons.mp h).2
    -- both texts run to the first quote
    obtain ⟨w, hw⟩ := hprefix
    have htake := takeWhile_append_cons hs w
    rw [show s ++ 34 :: w = s ++ [34] ++ w by simp, hw, takeWhile_append_cons ht] at htake
    exact htake.symm
  · have hlast := infix_of_head_not_mem ht h
    have hlength := hlast.length_le
    simp at hlength

variable {ids} in
/-- The array of identifiers is found although the batch number may hold a bracket. -/
theorem extract_identifiers_batchMessage (hquote : 34 ∉ batch_id)
    (hids : ∀ id ∈ ids, 34 ∉ id ∧ 44 ∉ id ∧ 93 ∉ id) :
    extractJsonArray (batchMessage batch_id ids) (lit "identifiers") = .ok ids := by
  by_cases hname : batch_id = lit "identifiers"
  · -- the name is found in the place of the batch number
    subst hname
    have hsplit : batchMessage (lit "identifiers") ids =
        lit "\x7b\"action\":\"exists_batch\",\"batch_id\":" ++
          ((quoted (lit "identifiers") ++ lit ",\"identifiers\":") ++
            91 :: (quotedList ids ++ 93 :: [125])) := by
      simp [batchMessage, quoted, lit]
    exact extractJsonArray_eq hsplit rfl (by decide) hids
  · have hparts : batchMessage batch_id ids = lit "\x7b\"action\":\"exists_batch\"" ++
        44 :: ((lit "\"batch_id\"" ++ 58 :: quoted batch_id) ++
          44 :: ((quoted (lit "identifiers") ++ lit ":") ++
            91 :: (quotedList ids ++ 93 :: [125]))) := by
      simp [batchMessage, quoted, lit]
    have hsplit : batchMessage batch_id ids =
        (lit "\x7b\"action\":\"exists_batch\"," ++ lit "\"batch_id\":" ++ quoted batch_id ++
          lit ",") ++ ((quoted (lit "identifiers") ++ lit ":") ++
            91 :: (quotedList ids ++ 93 :: [125])) := by
      simp [batchMessage, quoted, lit]
    have hbatch : find (quoted batch_id) (quoted (lit "identifiers")) = none :=
      find_eq_none_iff.mpr fun h => hname (eq_of_infix_quoted (by decide) hquote h).symm
    have hlast : find ((quoted (lit "identifiers") ++ lit ":") ++
        91 :: (quotedList ids ++ 93 :: [125])) (quoted (lit "identifiers")) = some 0 := rfl
    have hfind : find (batchMessage batch_id ids) (quoted (lit "identifiers")) =
        some (lit "\x7b\"action\":\"exists_batch\"," ++ lit "\"batch_id\":" ++ quoted batch_id ++
          lit ",").length := by
      -- commas and colons are not in the name, so the parts between them are searched one by one
      rw [hparts, find_append_cons_of_not_mem (by decide) (by decide),
        find_append_cons_of_not_mem (by decide) (by decide),
        find_append_cons_of_not_mem (by decide) (by decide), hbatch, hlast]
      simp [lit, find, quoted]
    exact extractJsonArray_eq hsplit hfind (by decide) hids

variable {batch_id ids} in
/-- The handler reads the fields of such a message. -/
theorem batchMessage_fields (hquote : 34 ∉ batch_id)
    (hids : ∀ id ∈ ids, 34 ∉ id ∧ 44 ∉ id ∧ 93 ∉ id) :
    BatchMessage (batchMessage batch_id ids) ids batch_id :=
  ⟨extract_action_batchMessage batch_id ids, extract_identifiers_batchMessage batch_id hquote hids,
    extract_batch_id_batchMessage batch_id ids hquote⟩

end Message

/-! ## What the loop builds -/

section Loop

variable (query_engine : QueryEngine)

/-- The entry of an identifier. -/
def batchEntry (id : Bytes) : Bytes :=
  quoted id ++ lit ":" ++ quoted (resultText (query_engine.answer id))

/-- `results_json` without its braces. -/
def batchText : List Bytes → Bytes
  | [] => []
  | id :: rest =>
    if id.length = 64 then
      batchEntry query_engine id ++ (if rest = [] then [] else lit ",") ++ batchText rest
    else batchText rest

variable (env : HandlerEnv)

/-- The loop asks the index about every identifier of 64 characters and sends nothing. -/
theorem run_batchResults (ids : List Bytes) (w : World) :
    ∃ w', (batchResults ids).run (handlerOp env) w =
        .ok (batchText w.service.query_engine ids, w') ∧
      w'.effects = w.effects ∧ w'.service.query_engine = w.service.query_engine := by
  induction ids generalizing w with
  | nil => exact ⟨w, rfl, rfl, rfl⟩
  | cons id rest ih =>
    rw [batchResults, batchText]
    by_cases hlength : id.length = 64
    · rw [if_pos hlength, if_pos hlength]
      have hcount : handlerOp env .countQuery w =
          .ok ((), ⟨w.service.counted, w.effects⟩) := rfl
      obtain ⟨w', hrun, heffects, hindex⟩ := ih ⟨w.service.counted, w.effects⟩
      refine ⟨w', ?_, heffects, hindex⟩
      -- a count, a query, and the rest of the list
      rw [Handler.countQuery, Prog.call_bind, Prog.run_op_ok _ hcount, Handler.query,
        Prog.call_bind, Prog.run_op_ok _ (handlerOp_query env id _)]
      exact Prog.run_bind_ok _ hrun
    · rw [if_neg hlength, if_neg hlength]
      exact ih w

/-- The reply to a message about identifiers. -/
theorem run_answerPayload {message : Bytes} {ids : List Bytes} {batch_id : Bytes}
    (h : BatchMessage message ids batch_id) (w : World) :
    ∃ w', (answerPayload message).run (handlerOp env) w = .ok ((), w') ∧
      w'.effects = w.effects ++ [.sendData
        (encodeFrame (batchResponse batch_id (batchText w.service.query_engine ids)))] := by
  obtain ⟨w', hrun, heffects, -⟩ := run_batchResults env ids w
  let response := encodeFrame (batchResponse batch_id (batchText w.service.query_engine ids))
  refine ⟨w'.emit (.sendData response), ?_, by rw [World.emit_effects, heffects]⟩
  rw [answerPayload, h.action]
  simp only [Handler.ofExcept, Prog.ret_bind, if_true, h.identifiers, h.batch_id]
  rw [Prog.run_bind_ok _ hrun]
  rfl

end Loop

/-! ## What the reply is read as -/

/-- The code units of a text. -/
def units (s : Bytes) : List ℕ := s.map UInt8.toNat

/-- The identifiers that get an entry. -/
def fullIds (ids : List Bytes) : List Bytes := ids.filter fun id => id.length == 64

/-- The member for an identifier. -/
def batchMember (query_engine : QueryEngine) (id : Bytes) : List ℕ × Json.Value :=
  (units id, .string (units (resultText (query_engine.answer id))))

/-- The payload is a JSON object, and its one member `results` has a member with what the index says
for each identifier of 64 characters, and no other. -/
def AnswersBatch (query_engine : QueryEngine) (ids : List Bytes) (payload : Bytes) : Prop :=
  ∃ members results, Json.parse payload = some (.object members) ∧
    members.filter (fun m => m.1 == units (lit "results")) =
      [(units (lit "results"), .object results)] ∧
    results.Perm ((fullIds ids).map (batchMember query_engine))

/-- No entry, or one for the last identifier. -/
def EndsWithEntry (ids : List Bytes) : Prop :=
  (∀ id ∈ ids, id.length ≠ 64) ∨ ∃ id ∈ ids.getLast?, id.length = 64

section Parse

open Json

variable {query_engine : QueryEngine} {ids : List Bytes} {depth fuel : ℕ}

/-- A hexadecimal digit stands for itself in a string. -/
theorem isPlain_of_hexDigit {c : UInt8} (h : (hexDigit c).isSome) : isPlain c = true := by
  grind [hexDigit, isPlain]

theorem isPlain_resultText (res : QueryResult) : (resultText res).all isPlain = true := by
  cases res <;> decide

theorem batchEntry_append (query_engine : QueryEngine) (id u : Bytes) :
    batchEntry query_engine id ++ u =
      34 :: (id ++ 34 :: 58 :: 34 :: (resultText (query_engine.answer id) ++ 34 :: u)) := by
  simp [batchEntry, quoted, lit]

@[simp]
theorem fullIds_cons_of_eq {id : Bytes} (h : id.length = 64) (rest : List Bytes) :
    fullIds (id :: rest) = id :: fullIds rest := List.filter_cons_of_pos (by simp [h])

@[simp]
theorem fullIds_cons_of_ne {id : Bytes} (h : id.length ≠ 64) (rest : List Bytes) :
    fullIds (id :: rest) = fullIds rest := List.filter_cons_of_neg (by simp [h])

/-- An entry that is followed by a comma. -/
theorem members_batchEntry_comma {id : Bytes} (hid : id.all isPlain = true) (u : Bytes) :
    members (value (depth + 1)) (fuel + 1) (batchEntry query_engine id ++ 44 :: u) =
      (members (value (depth + 1)) fuel (skipWs u)).map fun p =>
        (batchMember query_engine id :: p.1, p.2) := by
  rw [batchEntry_append, members_cons_string hid (isPlain_resultText _)]
  rfl

/-- An entry that is followed by the brace. -/
theorem members_batchEntry_brace {id : Bytes} (hid : id.all isPlain = true) (u : Bytes) :
    members (value (depth + 1)) (fuel + 1) (batchEntry query_engine id ++ 125 :: u) =
      some ([batchMember query_engine id], u) := by
  rw [batchEntry_append, members_last_string hid (isPlain_resultText _)]
  rfl

/-- An entry in front of a list that goes on. -/
theorem batchText_cons_of_eq {id : Bytes} (h : id.length = 64) {rest : List Bytes}
    (hne : rest ≠ []) : batchText query_engine (id :: rest) =
      batchEntry query_engine id ++ 44 :: batchText query_engine rest := by
  rw [batchText, if_pos h, if_neg hne, List.append_assoc]
  rfl

theorem batchText_cons_of_ne {id : Bytes} (h : id.length ≠ 64) (rest : List Bytes) :
    batchText query_engine (id :: rest) = batchText query_engine rest := by
  rw [batchText, if_neg h]

theorem batchText_singleton {id : Bytes} (h : id.length = 64) :
    batchText query_engine [id] = batchEntry query_engine id := by
  rw [batchText, if_pos h, if_pos rfl, batchText, List.append_nil, List.append_nil]

/-- The text of the entries is empty, or begins with a quote. -/
theorem batchText_cases (query_engine : QueryEngine) (ids : List Bytes) :
    (fullIds ids = [] ∧ batchText query_engine ids = []) ∨
      (fullIds ids ≠ [] ∧ ∃ v, batchText query_engine ids = 34 :: v) := by
  induction ids with
  | nil => exact .inl ⟨rfl, rfl⟩
  | cons id rest ih =>
    by_cases hlength : id.length = 64
    · refine .inr ⟨by simp [hlength], ?_⟩
      rw [batchText, if_pos hlength, List.append_assoc, batchEntry_append]
      exact ⟨_, rfl⟩
    · rw [fullIds_cons_of_ne hlength, batchText_cons_of_ne hlength]
      exact ih

theorem skipWs_batchText (query_engine : QueryEngine) (ids : List Bytes) (u : Bytes) :
    skipWs (batchText query_engine ids ++ 125 :: u) =
      batchText query_engine ids ++ 125 :: u := by
  rcases batchText_cases query_engine ids with ⟨-, htext⟩ | ⟨-, v, htext⟩
  · rw [htext]
    exact skipWs_cons_of_not_isWs (by decide) u
  · rw [htext]
    exact skipWs_cons_of_not_isWs (by decide) _

/-- The entries of a list that ends with an entry. -/
theorem members_batchText (hids : ∀ id ∈ ids, id.all isPlain = true)
    (hlast : ∃ id ∈ ids.getLast?, id.length = 64) (hfuel : (fullIds ids).length ≤ fuel)
    (u : Bytes) :
    members (value (depth + 1)) fuel (batchText query_engine ids ++ 125 :: u) =
      some ((fullIds ids).map (batchMember query_engine), u) := by
  induction ids generalizing fuel with
  | nil => simp at hlast
  | cons id rest ih =>
    have hid := hids id (by simp)
    have hrest : ∀ x ∈ rest, x.all isPlain = true := fun x hx =>
      hids x (List.mem_cons_of_mem id hx)
    cases rest with
    | nil =>
      -- the last identifier has an entry, and the brace is behind it
      have hlength : id.length = 64 := by simpa using hlast
      rw [fullIds_cons_of_eq hlength] at hfuel ⊢
      obtain ⟨fuel, rfl⟩ : ∃ n, fuel = n + 1 := ⟨fuel - 1, by simp at hfuel; omega⟩
      rw [batchText_singleton hlength, members_batchEntry_brace hid]
      rfl
    | cons next rest =>
      rw [List.getLast?_cons_cons] at hlast
      by_cases hlength : id.length = 64
      · rw [fullIds_cons_of_eq hlength] at hfuel ⊢
        obtain ⟨fuel, rfl⟩ : ∃ n, fuel = n + 1 := ⟨fuel - 1, by simp at hfuel; omega⟩
        rw [batchText_cons_of_eq hlength (List.cons_ne_nil _ _), List.append_assoc,
          List.cons_append, members_batchEntry_comma hid, skipWs_batchText,
          ih hrest hlast (by simpa using hfuel)]
        rfl
      · rw [fullIds_cons_of_ne hlength] at hfuel ⊢
        rw [batchText_cons_of_ne hlength]
        exact ih hrest hlast hfuel

/-- Behind the last entry stands a comma when the list does not end with an entry. -/
theorem members_batchText_eq_none (hids : ∀ id ∈ ids, id.all isPlain = true)
    (hlast : ∀ id ∈ ids.getLast?, id.length ≠ 64) (u : Bytes) :
    members (value (depth + 1)) fuel (batchText query_engine ids ++ 125 :: u) = none := by
  induction ids generalizing fuel with
  | nil => exact members_brace u
  | cons id rest ih =>
    have hrest : ∀ x ∈ rest, x.all isPlain = true := fun x hx =>
      hids x (List.mem_cons_of_mem id hx)
    cases rest with
    | nil =>
      -- where the comma asks for a member, the brace stands
      rw [batchText_cons_of_ne (hlast id (by simp))]
      exact members_brace u
    | cons next rest =>
      rw [List.getLast?_cons_cons] at hlast
      by_cases hlength : id.length = 64
      · rw [batchText_cons_of_eq hlength (List.cons_ne_nil _ _), List.append_assoc,
          List.cons_append]
        -- the comma is read, and what is behind it is no list of members
        cases fuel with
        | zero => rfl
        | succ fuel =>
          rw [members_batchEntry_comma (hids id (by simp)), skipWs_batchText, ih hrest hlast]
          rfl
      · rw [batchText_cons_of_ne hlength]
        exact ih hrest hlast

/-- The text has a character for each entry at least. -/
theorem length_fullIds_le (query_engine : QueryEngine) (ids : List Bytes) :
    (fullIds ids).length ≤ (batchText query_engine ids).length := by
  induction ids with
  | nil => exact Nat.le_refl _
  | cons id rest ih =>
    by_cases hlength : id.length = 64
    · rw [fullIds_cons_of_eq hlength, batchText, if_pos hlength]
      simp only [List.length_append, List.length_cons, batchEntry, quoted, lit]
      omega
    · rw [fullIds_cons_of_ne hlength, batchText_cons_of_ne hlength]
      exact ih

theorem fullIds_eq_nil_iff : fullIds ids = [] ↔ ∀ id ∈ ids, id.length ≠ 64 := by
  simp [fullIds]

/-- The value of `results`. -/
theorem value_results (hids : ∀ id ∈ ids, id.all isPlain = true) (hends : EndsWithEntry ids)
    (hfuel : (fullIds ids).length ≤ depth + 1) (u : Bytes) :
    value (depth + 2) (123 :: (batchText query_engine ids ++ 125 :: u)) =
      some (.object ((fullIds ids).map (batchMember query_engine)), u) := by
  rcases batchText_cases query_engine ids with ⟨hnone, htext⟩ | ⟨hsome, v, htext⟩
  · rw [htext, hnone]
    exact value_object_nil u
  · rcases hends with hno | hlast
    · -- there is an entry
      exact absurd (fullIds_eq_nil_iff.mpr hno) hsome
    · rw [htext, List.cons_append, value_object (by decide) (by decide), ← List.cons_append,
        ← htext, members_batchText hids hlast hfuel]
      rfl

/-- The value of `results` cannot be read when the list does not end with an entry. -/
theorem value_results_eq_none (hids : ∀ id ∈ ids, id.all isPlain = true)
    (hends : ¬ EndsWithEntry ids) (u : Bytes) :
    value (depth + 2) (123 :: (batchText query_engine ids ++ 125 :: u)) = none := by
  rw [EndsWithEntry, not_or] at hends
  rcases batchText_cases query_engine ids with ⟨hnone, -⟩ | ⟨-, v, htext⟩
  · exact absurd (fullIds_eq_nil_iff.mp hnone) hends.1
  · have hlast : ∀ id ∈ ids.getLast?, id.length ≠ 64 := fun id hid hlength =>
      hends.2 ⟨id, hid, hlength⟩
    rw [htext, List.cons_append, value_object (by decide) (by decide), ← List.cons_append,
      ← htext, members_batchText_eq_none hids hlast]
    rfl

section Payload

variable {batch_id results : Bytes}

theorem batchResponse_eq (batch_id results : Bytes) :
    batchResponse batch_id results =
      123 :: 34 :: (lit "action" ++ 34 :: 58 :: 34 :: (lit "exists_batch_response" ++
        34 :: 44 :: 32 :: 34 :: (lit "batch_id" ++ 34 :: 58 :: 34 :: (batch_id ++
          34 :: 44 :: 32 :: 34 :: (lit "results" ++ 34 :: 58 :: 123 ::
            (results ++ 125 :: [125])))))) := by
  simp [batchResponse, lit]

/-- The payload is read member by member. -/
theorem value_batchResponse (hbatch : batch_id.all isPlain = true) :
    value (depth + 4) (batchResponse batch_id results) =
      (members (value (depth + 3)) (depth + 1)
        (34 :: (lit "results" ++ 34 :: 58 :: 123 :: (results ++ 125 :: [125])))).map fun p =>
          (.object ((units (lit "action"), .string (units (lit "exists_batch_response"))) ::
            (units (lit "batch_id"), .string (units batch_id)) :: p.1), p.2) := by
  rw [batchResponse_eq, value_object (by decide) (by decide),
    members_cons_string (by decide) (by decide), skipWs_blank, skipWs_cons_of_not_isWs (by decide),
    members_cons_string (by decide) hbatch, skipWs_blank, skipWs_cons_of_not_isWs (by decide),
    Option.map_map, Option.map_map]
  rfl

/-- A payload whose `results` can be read. -/
theorem parse_batchResponse (hbatch : batch_id.all isPlain = true) {v : Value}
    (hlength : (batchResponse batch_id results).length = depth + 3)
    (hvalue : value (depth + 3) (123 :: (results ++ 125 :: [125])) = some (v, [125])) :
    parse (batchResponse batch_id results) =
      some (.object [(units (lit "action"), .string (units (lit "exists_batch_response"))),
        (units (lit "batch_id"), .string (units batch_id)), (units (lit "results"), v)]) := by
  refine parse_eq ?_ ?_
  · rw [batchResponse_eq]
    exact skipWs_cons_of_not_isWs (by decide) _
  · rw [hlength, value_batchResponse hbatch, members_last (by decide) (u := []) (v := v)]
    · rfl
    · rw [skipWs_cons_of_not_isWs (by decide)]
      exact hvalue

/-- A payload whose `results` cannot be read. -/
theorem parse_batchResponse_eq_none (hbatch : batch_id.all isPlain = true)
    (hlength : (batchResponse batch_id results).length = depth + 3)
    (hvalue : value (depth + 3) (123 :: (results ++ 125 :: [125])) = none) :
    parse (batchResponse batch_id results) = none := by
  refine parse_eq_none ?_ ?_
  · rw [batchResponse_eq]
    exact skipWs_cons_of_not_isWs (by decide) _
  · rw [hlength, value_batchResponse hbatch, members_none (by decide)]
    · rfl
    · rw [skipWs_cons_of_not_isWs (by decide)]
      exact hvalue

/-- The payload answers the batch exactly when the list ends with an entry. -/
theorem answersBatch_batchResponse_iff (hids : ∀ id ∈ ids, id.all isPlain = true)
    (hbatch : batch_id.all isPlain = true) :
    AnswersBatch query_engine ids (batchResponse batch_id (batchText query_engine ids)) ↔
      EndsWithEntry ids := by
  -- the length of the payload is fuel enough for the entries
  obtain ⟨depth, hlength, hfuel⟩ : ∃ depth,
      (batchResponse batch_id (batchText query_engine ids)).length = depth + 3 ∧
        (fullIds ids).length ≤ depth + 2 := by
    refine ⟨(batchResponse batch_id (batchText query_engine ids)).length - 3, ?_, ?_⟩
    all_goals
      have hle := length_fullIds_le query_engine ids
      rw [batchResponse_eq]
      simp only [List.length_cons, List.length_append]
      omega
  constructor
  · rintro ⟨ms, results, hparse, -⟩
    by_contra hends
    rw [parse_batchResponse_eq_none hbatch hlength (value_results_eq_none hids hends [125])]
      at hparse
    cases hparse
  · intro hends
    exact ⟨_, _, parse_batchResponse hbatch hlength (value_results hids hends hfuel [125]), rfl,
      List.Perm.refl _⟩

end Payload

end Parse

/-! ## When the reply is well formed -/

/-- A letter, a digit or a dash. -/
def isBatchChar (c : UInt8) : Bool :=
  (48 ≤ c && c ≤ 57) || (65 ≤ c && c ≤ 90) || (97 ≤ c && c ≤ 122) || c == 45

theorem isPlain_of_isBatchChar {c : UInt8} (h : isBatchChar c = true) : Json.isPlain c = true := by
  grind [isBatchChar, Json.isPlain]

/-- The handler sends one frame, whose payload answers the batch. -/
def RepliesToBatch (env : HandlerEnv) (w : World) (message : Bytes) (ids : List Bytes) : Prop :=
  ∃ payload w', (answerPayload message).run (handlerOp env) w = .ok ((), w') ∧
    w'.effects = w.effects ++ [.sendData (encodeFrame payload)] ∧
    AnswersBatch w.service.query_engine ids payload

/-- The payload is the one that the loop builds. -/
theorem repliesToBatch_iff (env : HandlerEnv) (w : World) {message batch_id : Bytes}
    {ids : List Bytes} (h : BatchMessage message ids batch_id) :
    RepliesToBatch env w message ids ↔ AnswersBatch w.service.query_engine ids
      (batchResponse batch_id (batchText w.service.query_engine ids)) := by
  obtain ⟨w', hrun, heffects⟩ := run_answerPayload env h w
  constructor
  · rintro ⟨payload, w'', hrun', heffects', hanswers⟩
    rw [hrun] at hrun'
    cases hrun'
    -- the frame is that of the payload, and of no other
    rw [heffects] at heffects'
    simp only [List.append_cancel_left_eq, List.cons.injEq, Effect.sendData.injEq, and_true]
      at heffects'
    rwa [encodeFrame_injective heffects']
  · intro hanswers
    exact ⟨_, w', hrun, heffects, hanswers⟩

/-- For identifiers of hexadecimal digits and a batch number of letters, digits and dashes the reply
is the object it should be exactly when no identifier has 64 characters or the last one has. -/
theorem answersBatch_iff (env : HandlerEnv) (w : World) {message batch_id : Bytes}
    {ids : List Bytes} (h : BatchMessage message ids batch_id)
    (hids : ∀ id ∈ ids, ∀ c ∈ id, (hexDigit c).isSome)
    (hbatch : ∀ c ∈ batch_id, isBatchChar c = true) :
    RepliesToBatch env w message ids ↔ EndsWithEntry ids := by
  rw [repliesToBatch_iff env w h]
  exact answersBatch_batchResponse_iff
    (fun id hid => List.all_eq_true.mpr fun c hc => isPlain_of_hexDigit (hids id hid c hc))
    (List.all_eq_true.mpr fun c hc => isPlain_of_isBatchChar (hbatch c hc))

/-- An identifier of one digit and one of 64 digits. -/
def mixedIds : List Bytes := [lit "a", List.replicate 64 97]

theorem answersBatch_iff_mixedIds :
    RepliesToBatch (quietEnv (dbFileSystem [])) ⟨emptyService, []⟩
      (batchMessage (lit "batch-1") mixedIds) mixedIds ↔ EndsWithEntry mixedIds :=
  answersBatch_iff _ _ (batchMessage_fields (by decide) (by decide))
    (by simp [mixedIds, lit, hexDigit]) (by simp [lit, isBatchChar])

/-- With the short identifier behind the other one the reply has a comma in front of the brace. -/
theorem not_repliesToBatch_reverse :
    BatchMessage (batchMessage (lit "batch-1") mixedIds.reverse) mixedIds.reverse (lit "batch-1") ∧
      mixedIds.reverse.Nodup ∧
      ¬ RepliesToBatch (quietEnv (dbFileSystem [])) ⟨emptyService, []⟩
        (batchMessage (lit "batch-1") mixedIds.reverse) mixedIds.reverse := by
  have hfields : BatchMessage (batchMessage (lit "batch-1") mixedIds.reverse) mixedIds.reverse
      (lit "batch-1") := batchMessage_fields (by decide) (by decide)
  refine ⟨hfields, by decide, ?_⟩
  rw [repliesToBatch_iff _ _ hfields, answersBatch_batchResponse_iff (by decide) (by decide)]
  simp [EndsWithEntry, mixedIds, lit]

end Main
