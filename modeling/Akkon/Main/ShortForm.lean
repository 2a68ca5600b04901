import Akkon.Main.Service

/-!
# Requests of the short form

`POST /api/<128 digits>` inserts and `GET /api/<64 digits>` looks up. A request is built here from
hexadecimal digits and a tail, which is whatever follows the path: a query string, the HTTP version,
header lines and a body.

* `insertRequest_shortPost`: a `POST` of this form is an insert request with the fields it was built
  from;
* `handle_shortGet`: a `GET` of this form is answered with what the index says.
-/

namespace Main

open Cpp Indexer Db Security

/-- A text of 64 hexadecimal digits. -/
abbrev HexId := { s : Bytes // s.length = 64 ∧ isHexStr s 0 = true }

/-- What follows the path of a request: nothing, a query string or white space first, and no long
route. -/
abbrev Tail :=
  { s : Bytes // (∀ c ∈ s.head?, isSpace c = true ∨ c = 63) ∧ contains s (lit "/api/v1/") = false }

def shortPost (identifier pwk : HexId) (tail : Tail) : Bytes :=
  lit "POST" ++ 32 :: (lit "/api/" ++ (identifier.1 ++ pwk.1) ++ tail.1)

def shortGet (identifier : HexId) (tail : Tail) : Bytes :=
  lit "GET" ++ 32 :: (lit "/api/" ++ identifier.1 ++ tail.1)

/-! ## The request line -/

/-- Hexadecimal digits are no white space, no question mark and no `P`. -/
theorem not_special_of_isHexStr {s : Bytes} (h : isHexStr s 0 = true) {c : UInt8} (hc : c ∈ s) :
    isSpace c = false ∧ c ≠ 63 ∧ c ≠ 80 := by
  have hdigit := List.all_eq_true.mp h c (by simpa using hc)
  grind [isSpace]

/-- A character that is no hexadecimal digit. -/
theorem HexId.not_mem (identifier : HexId) {c : UInt8} (hc : isHexStr [c] 0 = false) :
    c ∉ identifier.1 := by
  intro hmem
  have hdigit := List.all_eq_true.mp identifier.2.2 c (by simpa using hmem)
  simp only [isHexStr, List.drop_zero, List.all_cons, List.all_nil, hdigit] at hc
  cases hc

/-- The request line of a request whose path is followed by a query string or white space. -/
theorem requestLine_append {method path rest : Bytes} (hmethod : method ≠ [])
    (hsp : ∀ c ∈ method, isSpace c = false) (hne : path ≠ [])
    (hpath : ∀ c ∈ path, isSpace c = false ∧ c ≠ 63)
    (hrest : ∀ c ∈ rest.head?, isSpace c = true ∨ c = 63) :
    requestLine (method ++ 32 :: (path ++ rest)) = (method, path) := by
  have hquery : (63 : UInt8) ∉ path := fun hmem => (hpath _ hmem).2 rfl
  -- the path ends where the rest begins
  have hclean : cleanPath (path ++ rest.takeWhile (!isSpace ·)) = path := by
    have hnone : find path (lit "?") = none := find_eq_none_of_not_mem (by decide) hquery
    rcases rest with _ | ⟨c, rest⟩
    · rw [List.takeWhile_nil, List.append_nil, cleanPath, hnone]
    · rcases hrest c rfl with hc | rfl
      · rw [List.takeWhile_cons_of_neg (by simp [hc]), List.append_nil, cleanPath, hnone]
      -- the query string starts with the first question mark
      · rw [List.takeWhile_cons_of_pos (by decide), cleanPath,
          show lit "?" = [63] from rfl, find_append_cons hquery]
        exact List.take_left
  rw [requestLine, HttpHandler.methodPath, token_append hmethod hsp (by simp [isSpace])]
  simp only
  rw [token_cons_space (by decide), token_append_eq hne fun c hc => (hpath c hc).1]
  simp only
  rw [hclean]

/-- The request line of a request of the short form. -/
theorem requestLine_short {method hex : Bytes} (hmethod : method ≠ [])
    (hsp : ∀ c ∈ method, isSpace c = false) (hhex : isHexStr hex 0 = true) (tail : Tail) :
    requestLine (method ++ 32 :: (lit "/api/" ++ hex ++ tail.1))
      = (method, lit "/api/" ++ hex) := by
  have hapi : ∀ c ∈ lit "/api/", isSpace c = false ∧ c ≠ 63 := by simp [lit, isSpace]
  have hpath : ∀ c ∈ lit "/api/" ++ hex, isSpace c = false ∧ c ≠ 63 := by
    intro c hc
    rcases List.mem_append.mp hc with hc | hc
    · exact hapi c hc
    · exact ⟨(not_special_of_isHexStr hhex hc).1, (not_special_of_isHexStr hhex hc).2.1⟩
  exact requestLine_append hmethod hsp (by simp [lit]) hpath tail.2.1

theorem isHexStr_path {hex : Bytes} (h : isHexStr hex 0 = true) :
    isHexStr (lit "/api/" ++ hex) 5 = true := h

/-! ## Insertions -/

theorem isHexStr_append (identifier pwk : HexId) :
    isHexStr (identifier.1 ++ pwk.1) 0 = true := by
  have hid := identifier.2.2
  have hpwk := pwk.2.2
  simp only [isHexStr, List.drop_zero] at hid hpwk ⊢
  rw [List.all_append, hid, hpwk]
  rfl

theorem requestLine_shortPost (identifier pwk : HexId) (tail : Tail) :
    requestLine (shortPost identifier pwk tail)
      = (lit "POST", lit "/api/" ++ (identifier.1 ++ pwk.1)) :=
  requestLine_short (by decide) (by simp [lit, isSpace]) (isHexStr_append identifier pwk) tail

theorem isShortInsert_shortPost (identifier pwk : HexId) (tail : Tail) :
    isShortInsert (shortPost identifier pwk tail) = true := by
  have hlen : (lit "/api/" ++ (identifier.1 ++ pwk.1)).length = 133 := by
    rw [List.length_append, List.length_append, identifier.2.1, pwk.2.1]
    rfl
  have hprefix : startsWith (lit "/api/" ++ (identifier.1 ++ pwk.1)) (lit "/api/") = true :=
    List.isPrefixOf_iff_prefix.mpr (List.prefix_append _ _)
  rw [isShortInsert, requestLine_shortPost]
  simp only [hlen, hprefix, isHexStr_path (isHexStr_append identifier pwk)]
  decide

/-- A `POST` of the short form is an insert request. -/
theorem insertRequest_shortPost (identifier pwk : HexId) (tail : Tail) :
    InsertRequest (shortPost identifier pwk tail) identifier.1 pwk.1 where
  route := ⟨by simp [HttpHandler.isHttpRequest, shortPost, startsWith, lit],
    by simp [isInsertRequest, isShortInsert_shortPost]⟩
  fields := by
    have hid := identifier.2.1
    have hpwk := pwk.2.1
    have hapi : (lit "/api/").length = 5 := rfl
    rw [insertFields, if_pos (isShortInsert_shortPost identifier pwk tail), requestLine_shortPost]
    rw [substr_eq_ok _ (by simp [hid, hpwk, hapi]), substr_eq_ok _ (by simp [hid, hpwk, hapi])]
    -- the two fields are cut out of the path behind `/api/`
    have hfirst : ((lit "/api/" ++ (identifier.1 ++ pwk.1)).drop 5).take 64 = identifier.1 := by
      rw [List.drop_left' hapi, List.take_left' hid]
    have hsecond : ((lit "/api/" ++ (identifier.1 ++ pwk.1)).drop 69).take 64 = pwk.1 := by
      rw [← List.append_assoc, List.drop_left' (by simp [hid, hapi]),
        List.take_of_length_le (by simp [hpwk])]
    rw [hfirst, hsecond]
    rfl
  length_identifier := identifier.2.1
  length_pwk := pwk.2.1

/-! ## Lookups -/

theorem requestLine_shortGet (identifier : HexId) (tail : Tail) :
    requestLine (shortGet identifier tail) = (lit "GET", lit "/api/" ++ identifier.1) :=
  requestLine_short (by decide) (by simp [lit, isSpace]) identifier.2.2 tail

/-- No long insert route occurs in a request whose only `P` is in the tail. -/
theorem isInsertRequest_append_tail {head : Bytes} (hhead : (80 : UInt8) ∉ head) (tail : Tail)
    (hshort : isShortInsert (head ++ tail.1) = false) :
    isInsertRequest (head ++ tail.1) = false := by
  -- a route text starts with `P`, so it would lie in the tail
  have hroute (t : Bytes) (ht : lit "/api/v1/" <:+: 80 :: t) :
      contains (head ++ tail.1) (80 :: t) = false := by
    rw [contains_eq_false_iff]
    intro hinfix
    exact contains_eq_false_iff.mp tail.2.2 (ht.trans (infix_of_head_not_mem hhead hinfix))
  rw [isInsertRequest, hshort]
  simp only [Bool.or_false, Bool.or_eq_false_iff]
  exact ⟨hroute _ (by decide), hroute _ (by decide)⟩

theorem isInsertRequest_shortGet (identifier : HexId) (tail : Tail) :
    isInsertRequest (shortGet identifier tail) = false := by
  have hsplit : shortGet identifier tail = (lit "GET /api/" ++ identifier.1) ++ tail.1 := rfl
  have hshort : isShortInsert (shortGet identifier tail) = false := by
    rw [isShortInsert, requestLine_shortGet]
    rfl
  rw [hsplit] at hshort ⊢
  refine isInsertRequest_append_tail ?_ tail hshort
  exact List.not_mem_append (by decide) (identifier.not_mem rfl)

theorem isShortExists_shortGet (identifier : HexId) (tail : Tail) :
    isShortExists (shortGet identifier tail) = true := by
  have hlen : (lit "/api/" ++ identifier.1).length = 69 := by
    rw [List.length_append, identifier.2.1]
    rfl
  have hprefix : startsWith (lit "/api/" ++ identifier.1) (lit "/api/") = true :=
    List.isPrefixOf_iff_prefix.mpr (List.prefix_append _ _)
  rw [isShortExists, requestLine_shortGet]
  simp only [hlen, hprefix, isHexStr_path identifier.2.2]
  decide

/-- On the exists route the handler reads the field and answers with what the index says of it. -/
theorem handle_of_exists {env : HandlerEnv} (hlock : env.lockdown = .NONE)
    (hws : env.is_ws_client = false) (service : Service) {request identifier : Bytes}
    (hhttp : HttpHandler.isHttpRequest request = true) (hinsert : isInsertRequest request = false)
    (hexists : isExistsRequest request = true) (hfield : existsField request = .ok identifier) :
    handle env service request = .ok
      (service.counted, replied (if identifier.length = 64 then
        existsResult (service.query_engine.answer identifier) else invalidIdentifier)) := by
  rw [handle_eq_plainBranch hlock hws, plainBranch, not_options_of_isHttpRequest hhttp,
    if_pos (by simp [hhttp]), if_neg (by simp), if_neg (by simp [hinsert]), if_pos hexists,
    existsRoute, hfield]
  change ((ite _ _ _ : Handler Unit).run _ _).map _ = _
  split_ifs
  · rw [Handler.query, Prog.call_bind, Prog.run_op_ok _ (handlerOp_query env identifier _)]
    rfl
  · rfl

/-- A `GET` of the short form is answered with what the index says. -/
theorem handle_shortGet {env : HandlerEnv} (hlock : env.lockdown = .NONE)
    (hws : env.is_ws_client = false) (service : Service) (identifier : HexId) (tail : Tail) :
    handle env service (shortGet identifier tail) = .ok
      (service.counted, replied (existsResult (service.query_engine.answer identifier.1))) := by
  have hhttp : HttpHandler.isHttpRequest (shortGet identifier tail) = true := by
    simp [HttpHandler.isHttpRequest, shortGet, startsWith, lit]
  have hshort := isShortExists_shortGet identifier tail
  have hfield : existsField (shortGet identifier tail) = .ok identifier.1 := by
    have hid := identifier.2.1
    have hapi : (lit "/api/").length = 5 := rfl
    rw [existsField, if_pos hshort, requestLine_shortGet, substr_eq_ok _ (by simp [hid, hapi]),
      List.drop_left' hapi, List.take_of_length_le hid.le]
  rw [handle_of_exists hlock hws service hhttp (isInsertRequest_shortGet identifier tail)
    (by simp [isExistsRequest, hshort]) hfield, if_pos identifier.2.1]

/-! ## Small requests -/

/-- A single digit, 64 times. -/
def digitsA : HexId := ⟨List.replicate 64 97, by decide⟩
def digitsB : HexId := ⟨List.replicate 64 98, by decide⟩
def digitsC : HexId := ⟨List.replicate 64 99, by decide⟩

/-- The end of a request without header lines. -/
def httpTail : Tail := ⟨lit " HTTP/1.1\r\n\r\n", by simp [lit, isSpace], by decide⟩

end Main
