import Akkon.ToMathlib.StepSystem
import Akkon.VulnServer.Server

/-!
# The status protocol

The vulnerability server and the poll of `LifecycleManager` together: the status file is edited, the
server answers each request with what the file says, the answer comes in chunks, and the poll scans
it. In between anything else may trigger a lockdown.

* `upToQuote_escape_iff`: the text that the scanner takes is a plain word exactly when it was sent;
* `readResponse_answer`: what the poll reads out of an answer;
* `exchange_outputs`: along every run the lockdown state and the log lines are those of the
  specification, in which a poll that is answered adopts the word in the status file.
-/

namespace VulnServer

open Cpp Security Monitor

/-! ## Escaped texts and the scanner -/

/-- An escape begins with a backslash, and any other character stands for itself. -/
theorem escapeChar_cases (c : Char) :
    (∃ more, escapeChar c = 92 :: more) ∨
      (escapeChar c = [c.toNat.toUInt8] ∧ c ≠ '"' ∧ c ≠ '\\' ∧ 32 ≤ c.toNat ∧ c.toNat ≤ 126) := by
  unfold escapeChar
  split_ifs with hquote hslash hlf hcr htab hbs hff hprintable
  · exact .inl ⟨_, rfl⟩
  · exact .inl ⟨_, rfl⟩
  · exact .inl ⟨_, rfl⟩
  · exact .inl ⟨_, rfl⟩
  · exact .inl ⟨_, rfl⟩
  · exact .inl ⟨_, rfl⟩
  · exact .inl ⟨_, rfl⟩
  · exact .inr ⟨rfl, hquote, hslash, hprintable⟩
  · left
    unfold codeUnits
    split <;> exact ⟨_, rfl⟩

theorem toUInt8_inj {c d : Char} (hc : c.toNat ≤ 126) (hd : d.toNat ≤ 126)
    (h : c.toNat.toUInt8 = d.toNat.toUInt8) : c = d := by
  have hnat := congrArg UInt8.toNat h
  rw [UInt8.toNat_ofNat', UInt8.toNat_ofNat'] at hnat
  exact Char.toNat_inj.mp (by omega)

theorem toUInt8_ne_quote {c : Char} (hc : c.toNat ≤ 126) (hquote : c ≠ '"') :
    c.toNat.toUInt8 ≠ 34 := fun h =>
  hquote (toUInt8_inj hc (by decide) (h.trans (by decide)))

/-- Up to the closing quote a plain word is read exactly when it was written. -/
theorem upToQuote_escape_iff {s w : Text} (hw : 92 ∉ escape w) (rest : Bytes) :
    upToQuote (escape s ++ 34 :: rest) = escape w ↔ s = w := by
  induction s generalizing w with
  | nil =>
    cases w with
    | nil => simp [escape, upToQuote]
    | cons d w =>
      have hne : escape (d :: w) ≠ [] := by
        rw [escape, List.flatMap_cons]
        rcases escapeChar_cases d with ⟨more, hd⟩ | ⟨hd, -⟩ <;> simp [hd]
      simpa [escape, upToQuote] using hne.symm
  | cons c s ih =>
    rcases escapeChar_cases c with ⟨more, hc⟩ | ⟨hc, hquote, -, -, hle⟩
    · -- a backslash is not in a plain word
      refine iff_of_false (fun h => hw ?_) ?_
      · rw [← h, escape, List.flatMap_cons, hc]
        simp [upToQuote]
      · rintro rfl
        exact hw (by simp [escape, hc])
    · have hscan : upToQuote (escape (c :: s) ++ 34 :: rest) =
          c.toNat.toUInt8 :: upToQuote (escape s ++ 34 :: rest) := by
        rw [escape, List.flatMap_cons, hc, ← escape, upToQuote, upToQuote, List.append_assoc,
          List.singleton_append, List.takeWhile_cons_of_pos]
        exact bne_iff_ne.mpr (toUInt8_ne_quote hle hquote)
      rw [hscan]
      cases w with
      | nil => simp [escape]
      | cons d w =>
        have hd : escapeChar d = [d.toNat.toUInt8] ∧ d.toNat ≤ 126 := by
          rcases escapeChar_cases d with ⟨more, hd⟩ | ⟨hd, -, -, -, hle⟩
          · exact absurd (by simp [escape, hd]) hw
          · exact ⟨hd, hle⟩
        have hcons : escape (d :: w) = d.toNat.toUInt8 :: escape w := by
          rw [escape, List.flatMap_cons, hd.1]
          rfl
        rw [hcons] at hw ⊢
        rw [List.cons.injEq, ih fun h => hw (List.mem_cons_of_mem _ h), List.cons.injEq]
        exact and_congr_left fun _ => ⟨toUInt8_inj hle hd.2, fun h => by rw [h]⟩

/-- No character is escaped as a NUL. -/
theorem zero_not_mem_escape (s : Text) : 0 ∉ escape s := by
  have hdigit : ∀ n < 16, (0 : UInt8) ≠ hexDigit n := by decide
  have hunit (n : ℕ) : 0 ∉ escapeUnit n := by
    simp only [escapeUnit, List.mem_cons, List.not_mem_nil, or_false, not_or]
    exact ⟨by decide, by decide, hdigit _ (Nat.mod_lt _ (by decide)),
      hdigit _ (Nat.mod_lt _ (by decide)), hdigit _ (Nat.mod_lt _ (by decide)),
      hdigit _ (Nat.mod_lt _ (by decide))⟩
  have hchar (c : Char) : 0 ∉ escapeChar c := by
    unfold escapeChar
    split_ifs with _ _ _ _ _ _ _ hprintable
    · decide
    · decide
    · decide
    · decide
    · decide
    · decide
    · decide
    · intro h
      have hnat := congrArg UInt8.toNat (List.mem_singleton.mp h)
      rw [UInt8.toNat_ofNat'] at hnat
      have : (0 : UInt8).toNat = 0 := rfl
      omega
    · intro h
      obtain ⟨n, -, hn⟩ := List.mem_flatMap.mp h
      exact hunit n hn
  intro h
  obtain ⟨c, -, hc⟩ := List.mem_flatMap.mp h
  exact hchar c hc

/-! ## What the poll reads -/

/-- The lockdown that a word in the status file stands for. -/
def named (state : Text) : LockdownState :=
  if state = text "IMMEDIATE" then .IMMEDIATE
  else if state = text "CLOSE" then .CLOSE
  else .NONE

/-- The status that is scanned stands for what was sent. -/
theorem newState_upToQuote_escape (s : Text) (rest : Bytes) :
    newState (upToQuote (escape s ++ 34 :: rest)) = named s := by
  have himmediate : lit "IMMEDIATE" = escape (text "IMMEDIATE") := by decide
  have hclose : lit "CLOSE" = escape (text "CLOSE") := by decide
  simp only [newState, named, himmediate, hclose, upToQuote_escape_iff
    (show 92 ∉ escape (text "IMMEDIATE") by decide), upToQuote_escape_iff
    (show 92 ∉ escape (text "CLOSE") by decide)]

/-- A field with a quote behind its key. -/
def HasField (body key : Bytes) (skip : ℕ) : Prop :=
  ∃ pos, find body key = some pos ∧ pos + skip ≤ body.length ∧ 34 ∈ body.drop (pos + skip)

/-- In front of the first quote there is nothing for the scanner. -/
theorem scanField_append_head (missing : Bytes) {head body k : Bytes} {skip : ℕ} (hhead : 34 ∉ head)
    (h : HasField body (34 :: k) skip) :
    scanField (head ++ body) (34 :: k) skip missing = scanField body (34 :: k) skip missing := by
  obtain ⟨pos, hfind, hskip, hquote⟩ := h
  have hfind' : find (head ++ body) (34 :: k) = some (pos + head.length) := by
    rw [find_append_of_head_not_mem hhead, hfind]
    rfl
  have hdrop : (head ++ body).drop (pos + head.length + skip) = body.drop (pos + skip) := by
    rw [show pos + head.length + skip = head.length + (pos + skip) by omega, List.drop_append]
    simp
  rw [scanField_eq hfind' (by rw [List.length_append]; omega), scanField_eq hfind hskip, hdrop,
    scanned, scanned, dropWhile_eq_cons hquote]

/-- The same for the three fields. -/
theorem readResponse_append_head {head body : Bytes} (hhead : 34 ∉ head)
    (hstatus : HasField body statusKey 9) (hcve : HasField body (lit "\"cve\":") 6)
    (hmessage : HasField body (lit "\"message\":") 10) :
    readResponse (head ++ body) = readResponse body := by
  rw [readResponse, readResponse]
  have h1 := scanField_append_head (lit "SAFE") hhead (k := statusKey.tail) hstatus
  have h2 := scanField_append_head [] hhead (k := (lit "\"cve\":").tail) hcve
  have h3 := scanField_append_head [] hhead (k := (lit "\"message\":").tail) hmessage
  change scanField _ statusKey 9 _ = scanField _ statusKey 9 _ at h1
  change scanField _ (lit "\"cve\":") 6 _ = scanField _ (lit "\"cve\":") 6 _ at h2
  change scanField _ (lit "\"message\":") 10 _ = scanField _ (lit "\"message\":") 10 _ at h3
  rw [h1, h2, h3]

/-- The body of an answer to the poll. -/
def pollBody (state : Text) : Bytes := statusBody state (text "1.0.0")

/-- The answer to the poll: the lines of the head, and the body. -/
theorem answer_statusRequest (srv : VulnHandler) (statusFile : Option Text) :
    srv.answer statusRequest statusFile =
      (srv.head 200 ++ lit "Content-Type: application/json\r\n\r\n") ++
        pollBody (srv.state statusFile) := by
  have htarget : (token (token statusRequest).2).1 = lit "/status?version=1.0.0" := by decide
  have hpath : urlPath (lit "/status?version=1.0.0") = lit "/status" := by decide
  have hversion : version (lit "/status?version=1.0.0") = text "1.0.0" := by decide
  rw [VulnHandler.answer, htarget, VulnHandler.do_GET, if_pos hpath, hversion, pollBody,
    List.append_assoc]

/-- The status of a body is scanned as what was sent. -/
theorem scanField_status (state cve message : Text) (missing : Bytes) :
    HasField (dumps state cve message) statusKey 9 ∧
      ∃ rest, scanField (dumps state cve message) statusKey 9 missing =
        .ok (upToQuote (escape state ++ 34 :: rest)) := by
  have hshape : ∃ rest, dumps state cve message =
      123 :: (statusKey ++ 32 :: 34 :: (escape state ++ 34 :: rest)) :=
    ⟨lit ", \"cve\": \"" ++ (escape cve ++ (lit "\", \"message\": \"" ++ (escape message ++
      lit "\"\x7d"))), by simp [dumps, statusKey, lit]⟩
  obtain ⟨rest, hrest⟩ := hshape
  have hfind : find (123 :: (statusKey ++ 32 :: 34 :: (escape state ++ 34 :: rest))) statusKey =
      some 1 := by
    have hne : ¬ List.isPrefixOf statusKey
        (123 :: (statusKey ++ 32 :: 34 :: (escape state ++ 34 :: rest))) = true := by
      simp [statusKey, lit]
    rw [find, if_neg hne, find_of_prefix (List.prefix_append _ _)]
    rfl
  have hlength : statusKey.length = 9 := by decide
  have hdrop : (123 :: (statusKey ++ 32 :: 34 :: (escape state ++ 34 :: rest))).drop (1 + 9) =
      32 :: 34 :: (escape state ++ 34 :: rest) := by
    rw [Nat.add_comm, List.drop_succ_cons, ← hlength, List.drop_left]
  have hle : 1 + 9 ≤ (123 :: (statusKey ++ 32 :: 34 :: (escape state ++ 34 :: rest))).length := by
    simp [hlength]
  rw [hrest]
  refine ⟨⟨1, hfind, hle, by simp [hdrop]⟩, rest, ?_⟩
  rw [scanField_eq hfind hle, hdrop, scanned]
  rfl

/-- A body has the status in front, whatever its state. -/
theorem exists_pollBody_eq (state : Text) :
    ∃ cve message, pollBody state = dumps state cve message := by
  unfold pollBody statusBody
  split_ifs <;> exact ⟨_, _, rfl⟩

/-- The line that is logged when a poll changes the state. -/
def stateLine : LockdownState → LogLevel × Bytes
  | .IMMEDIATE => (.ERROR, lit "VULNERABILITY DETECTED! CVE-2026-9999 - " ++
      lit "Critical remote code execution in version 1.0.0. -> LOCKDOWN: IMMEDIATE")
  | .CLOSE => (.ERROR, lit "VULNERABILITY DETECTED! CVE-2026-8888 - " ++
      lit "Denial of service in version 1.0.0. -> LOCKDOWN: CLOSE")
  | .NONE => (.INFO, lit "System returned to SAFE state.")

/-- The state and the line that an alarm leaves. -/
theorem adopt_eq {report : Report} {state : LockdownState} (m : LifecycleManager)
    (hnew : newState report.state_str = state) (hstate : state ≠ .NONE)
    (hline : (.ERROR, lit "VULNERABILITY DETECTED! " ++ report.cve ++ lit " - " ++ report.msg ++
      lit " -> LOCKDOWN: " ++ report.state_str) = stateLine state) :
    m.adopt report = { s_lockdown_state := state, log := m.log ++ [stateLine state] } := by
  simp only [LifecycleManager.adopt, hnew, if_pos hstate, ← hline]
  rfl

/-- The report of an `IMMEDIATE` alarm. -/
def immediateReport : Report where
  state_str := lit "IMMEDIATE"
  cve := lit "CVE-2026-9999"
  msg := lit "Critical remote code execution in version 1.0.0."

/-- The report of a `CLOSE` alarm. -/
def closeReport : Report where
  state_str := lit "CLOSE"
  cve := lit "CVE-2026-8888"
  msg := lit "Denial of service in version 1.0.0."

set_option maxRecDepth 4096 in
theorem readResponse_immediate :
    HasField (pollBody (text "IMMEDIATE")) (lit "\"cve\":") 6 ∧
      HasField (pollBody (text "IMMEDIATE")) (lit "\"message\":") 10 ∧
      readResponse (pollBody (text "IMMEDIATE")) = .ok immediateReport :=
  ⟨⟨24, by decide, by decide, by decide⟩, ⟨48, by decide, by decide, by decide⟩, by decide⟩

set_option maxRecDepth 4096 in
theorem readResponse_close :
    HasField (pollBody (text "CLOSE")) (lit "\"cve\":") 6 ∧
      HasField (pollBody (text "CLOSE")) (lit "\"message\":") 10 ∧
      readResponse (pollBody (text "CLOSE")) = .ok closeReport :=
  ⟨⟨20, by decide, by decide, by decide⟩, ⟨44, by decide, by decide, by decide⟩, by decide⟩

section Answer

variable {srv : VulnHandler} (hhead : 34 ∉ srv.head 200) (statusFile : Option Text)

include hhead

theorem quote_not_mem_head :
    34 ∉ srv.head 200 ++ lit "Content-Type: application/json\r\n\r\n" := by
  have hcontent : (34 : UInt8) ∉ lit "Content-Type: application/json\r\n\r\n" := by decide
  simp [hhead, hcontent]

/-- An answer makes the poll report what the status file says, with the line of its alarm. -/
theorem readResponse_answer :
    ∃ report, readResponse (srv.answer statusRequest statusFile) = .ok report ∧
      newState report.state_str = named (srv.state statusFile) ∧
      ∀ m : LifecycleManager, m.adopt report =
        { s_lockdown_state := named (srv.state statusFile),
          log := m.log ++ [stateLine (named (srv.state statusFile))] } := by
  rw [answer_statusRequest]
  generalize srv.state statusFile = state
  have hquote := quote_not_mem_head hhead
  obtain ⟨cve, message, hbody⟩ := exists_pollBody_eq state
  obtain ⟨hstatus, rest, hscan⟩ := scanField_status state cve message (lit "SAFE")
  rw [← hbody] at hstatus hscan
  by_cases himmediate : state = text "IMMEDIATE"
  · subst himmediate
    obtain ⟨hcve, hmessage, hread⟩ := readResponse_immediate
    refine ⟨immediateReport, ?_, by decide, fun m => ?_⟩
    · rw [readResponse_append_head hquote hstatus hcve hmessage, hread]
    · exact adopt_eq m (by decide) (by decide) (by decide)
  · by_cases hclose : state = text "CLOSE"
    · subst hclose
      obtain ⟨hcve, hmessage, hread⟩ := readResponse_close
      refine ⟨closeReport, ?_, by decide, fun m => ?_⟩
      · rw [readResponse_append_head hquote hstatus hcve hmessage, hread]
      · exact adopt_eq m (by decide) (by decide) (by decide)
    · -- any other word is taken for `SAFE`
      have hnamed : named state = .NONE := by rw [named, if_neg himmediate, if_neg hclose]
      obtain ⟨report, hread, hstate⟩ := readResponse_isOk
        ((srv.head 200 ++ lit "Content-Type: application/json\r\n\r\n") ++ pollBody state)
      have hnew : newState report.state_str = .NONE := by
        have hscan' := scanField_append_head (lit "SAFE") hquote
          (k := statusKey.tail) hstatus
        change scanField _ statusKey 9 _ = scanField _ statusKey 9 _ at hscan'
        rw [hscan', hscan] at hstate
        rw [← Except.ok.inj hstate, newState_upToQuote_escape, hnamed]
      refine ⟨report, hread, hnew.trans hnamed.symm, fun m => ?_⟩
      simp [LifecycleManager.adopt, hnew, hnamed, LifecycleManager.logged, LifecycleManager.store,
        stateLine]

end Answer

/-! ## Both sides -/

/-- A connection of the poll to the server. -/
structure Connection where
  /-- The result of `socket`. -/
  socket : ℤ
  /-- The result of `connect`. -/
  connect : ℤ
  /-- The chunks in which an answer comes. -/
  deliver : Bytes → List Chunk

/-- An answer comes as it was sent, in chunks that do not fill the buffer. -/
structure Connection.Delivers (conn : Connection) : Prop where
  whole : ∀ answer, (conn.deliver answer).flatMap Chunk.bytes = answer
  short : ∀ answer, ∀ chunk ∈ conn.deliver answer, chunk.bytes.length < 4096

/-- There is no connection. -/
def Connection.refused (conn : Connection) : Bool := conn.socket < 0 || conn.connect < 0

/-- The connection to a server with this status file. -/
def Connection.network (conn : Connection) (srv : VulnHandler) (statusFile : Option Text) :
    Network where
  socket := conn.socket
  connect := fun _ _ => conn.connect
  recv := fun request => conn.deliver (srv.answer request statusFile)

/-- The status file, and the state and the log of the polling process. -/
structure Exchange where
  statusFile : Option Text
  lifecycle : LifecycleManager

inductive ExchangeEvent
  /-- The status file is written, or removed. -/
  | edit (statusFile : Option Text)
  /-- `triggerLockdown`, by anything in the process. -/
  | trigger (state : LockdownState)
  /-- An iteration of `backgroundTask`. -/
  | poll (conn : Connection)

/-- What ends the polling process. -/
inductive ExchangeFault
  /-- The buffer is read past its end. -/
  | overread
  | exn (e : Exn)

/-- The lockdown state, and the lines an event has added to the log. -/
abbrev Notice := LockdownState × List (LogLevel × Bytes)

/-- The state behind an event, with what it has shown. -/
def Exchange.changed (s : Exchange) (lifecycle : LifecycleManager) : Exchange × Notice :=
  ({ s with lifecycle },
    lifecycle.getLockdownState, lifecycle.log.drop s.lifecycle.log.length)

/-- One event. -/
def exchangeStep (srv : VulnHandler) (s : Exchange) :
    ExchangeEvent → Except ExchangeFault (Exchange × Notice)
  | .edit statusFile => .ok ({ s with statusFile }, s.lifecycle.getLockdownState, [])
  | .trigger state => .ok (s.changed (s.lifecycle.triggerLockdown state))
  | .poll conn =>
    match LifecycleManager.fetchVulnerabilityStatus (conn.network srv s.statusFile) with
    | none => .error .overread
    | some response =>
      match s.lifecycle.pollOnce response with
      | .ok lifecycle => .ok (s.changed lifecycle)
      | .error e => .error (.exn e)

/-- What the protocol is for: a poll that reaches the server adopts what the status file says, and
logs the change. -/
def exchangeSpec (srv : VulnHandler) (a : Option Text × LockdownState) :
    ExchangeEvent → (Option Text × LockdownState) × Notice
  | .edit statusFile => ((statusFile, a.2), a.2, [])
  | .trigger state =>
    ((a.1, state), state, [(.ERROR, lit "CRITICAL: Manual Lockdown Triggered!")])
  | .poll conn =>
    if conn.refused then (a, a.2, [])
    else
      let state := named (srv.state a.1)
      ((a.1, state), state, if state = a.2 then [] else [stateLine state])

/-- The events of a run: every connection that is made delivers. -/
def ExchangeEvent.Valid : ExchangeEvent → Prop
  | .poll conn => conn.Delivers
  | _ => True

/-- No character of the head is a quote or a NUL. -/
structure VulnHandler.PlainHead (srv : VulnHandler) : Prop where
  quote : 34 ∉ srv.head 200
  nul : 0 ∉ srv.head 200

section Run

variable {srv : VulnHandler} (hsrv : srv.PlainHead)

include hsrv

theorem zero_not_mem_answer (statusFile : Option Text) :
    0 ∉ srv.answer statusRequest statusFile := by
  obtain ⟨cve, message, hbody⟩ := exists_pollBody_eq (srv.state statusFile)
  have h1 : (0 : UInt8) ∉ lit "Content-Type: application/json\r\n\r\n" := by decide
  have h2 : (0 : UInt8) ∉ lit "\x7b\"status\": \"" := by decide
  have h3 : (0 : UInt8) ∉ lit "\", \"cve\": \"" := by decide
  have h4 : (0 : UInt8) ∉ lit "\", \"message\": \"" := by decide
  have h5 : (0 : UInt8) ∉ lit "\"\x7d" := by decide
  rw [answer_statusRequest, hbody]
  simp only [dumps, List.mem_append, not_or]
  exact ⟨⟨hsrv.nul, h1⟩, h2, zero_not_mem_escape _, h3, zero_not_mem_escape _, h4,
    zero_not_mem_escape _, h5⟩

/-- A connection that delivers gives the poll the whole answer. -/
theorem fetch_eq {conn : Connection} (hconn : conn.Delivers) (statusFile : Option Text) :
    LifecycleManager.fetchVulnerabilityStatus (conn.network srv statusFile) =
      some (if conn.refused then [] else srv.answer statusRequest statusFile) := by
  have hwhole := hconn.whole (srv.answer statusRequest statusFile)
  have hnul : ∀ chunk ∈ conn.deliver (srv.answer statusRequest statusFile), 0 ∉ chunk.bytes := by
    intro chunk hchunk h
    refine zero_not_mem_answer hsrv statusFile ?_
    rw [← hwhole]
    exact List.mem_flatMap.mpr ⟨chunk, hchunk, h⟩
  have hreceive : LifecycleManager.receive .zero []
      (conn.deliver (srv.answer statusRequest statusFile)) =
        some (srv.answer statusRequest statusFile) := by
    rw [LifecycleManager.receive_eq, if_pos fun chunk hchunk =>
      .inr (hconn.short _ chunk hchunk), (flatMap_cStr_eq_iff _).mpr hnul, hwhole]
    rfl
  simp only [LifecycleManager.fetchVulnerabilityStatus, Connection.network, Connection.refused]
  by_cases hsocket : conn.socket < 0
  · simp [hsocket]
  · by_cases hconnect : conn.connect < 0
    · simp [hsocket, hconnect]
    · simp [hsocket, hconnect, hreceive]

/-- What an answered poll leaves. -/
theorem pollOnce_answer (m : LifecycleManager) (statusFile : Option Text) :
    m.pollOnce (srv.answer statusRequest statusFile) =
      .ok (if named (srv.state statusFile) = m.getLockdownState then m
        else { s_lockdown_state := named (srv.state statusFile),
               log := m.log ++ [stateLine (named (srv.state statusFile))] }) := by
  have hne : srv.answer statusRequest statusFile ≠ [] := by
    obtain ⟨cve, message, hbody⟩ := exists_pollBody_eq (srv.state statusFile)
    rw [answer_statusRequest, hbody]
    simp [dumps, lit]
  obtain ⟨report, hread, hnew, hadopt⟩ := readResponse_answer hsrv.quote statusFile
  rw [LifecycleManager.pollOnce, if_neg hne, hread]
  change Except.ok
    (if newState report.state_str ≠ m.getLockdownState then m.adopt report else m) = _
  rw [hnew, hadopt, ite_not]

theorem refines_exchange :
    Refines (exchangeStep srv) (exchangeSpec srv) ExchangeEvent.Valid
      fun s a => a = (s.statusFile, s.lifecycle.getLockdownState) := by
  refine ⟨?_⟩
  rintro s a e rfl hvalid
  cases e with
  | edit statusFile => exact ⟨_, rfl, rfl⟩
  | trigger state =>
    refine ⟨(s.changed (s.lifecycle.triggerLockdown state)).1, ?_, rfl⟩
    simp [exchangeStep, exchangeSpec, Exchange.changed, LifecycleManager.triggerLockdown,
      LifecycleManager.logged, LifecycleManager.store, LifecycleManager.getLockdownState]
  | poll conn =>
    simp only [exchangeStep, exchangeSpec, fetch_eq hsrv hvalid]
    cases conn.refused with
    | true =>
      -- an empty response is skipped
      refine ⟨s, ?_, rfl⟩
      simp [LifecycleManager.pollOnce, Exchange.changed]
    | false =>
      simp only [Bool.false_eq_true, if_false, pollOnce_answer hsrv]
      split
      · next heq => exact ⟨s, by simp [Exchange.changed, heq], by rw [heq]⟩
      · refine ⟨⟨s.statusFile, named (srv.state s.statusFile),
          s.lifecycle.log ++ [stateLine (named (srv.state s.statusFile))]⟩, ?_, rfl⟩
        simp [Exchange.changed, LifecycleManager.getLockdownState]

/-- Along every run of edits, alarms and polls the state of the lockdown and the lines in the log are
those of the specification. -/
theorem exchange_outputs {events : List ExchangeEvent} (hevents : ∀ e ∈ events, e.Valid)
    (statusFile : Option Text) (lifecycle : LifecycleManager) :
    ∃ s, runOutputs (exchangeStep srv) ⟨statusFile, lifecycle⟩ events =
      .ok (s,
        (specOutputs (exchangeSpec srv) (statusFile, lifecycle.getLockdownState) events).2) := by
  obtain ⟨s, hrun, -⟩ := (refines_exchange hsrv).outputs_eq
    (s := ⟨statusFile, lifecycle⟩) rfl hevents
  exact ⟨s, hrun⟩

end Run

/-- The server for ASCII texts, with a fixed head. -/
def asciiServer : VulnHandler where
  stripUpper := fun s => ((s.dropWhile Char.isWhitespace).reverse.dropWhile
    Char.isWhitespace).reverse.map Char.toUpper
  head := fun code => lit "HTTP/1.0 " ++ to_string code ++ lit " OK\r\nServer: SimpleHTTP/0.6\r\n"

/-- A connection that delivers byte by byte. -/
def slowConnection : Connection where
  socket := 4
  connect := 0
  deliver := fun answer => answer.map fun c => ⟨[c], Nat.one_pos, by simp⟩

theorem delivers_slowConnection : slowConnection.Delivers where
  whole := fun answer => by
    simp only [slowConnection, List.flatMap_map]
    exact List.flatMap_singleton' answer
  short := fun answer chunk hchunk => by
    obtain ⟨c, -, rfl⟩ := List.mem_map.mp hchunk
    simp

/-- The status is set, polled, overruled by hand and polled again without a connection. -/
def alarmEvents : List ExchangeEvent :=
  [.poll slowConnection, .edit (some (text " immediate\n")), .poll slowConnection, .trigger .CLOSE,
    .poll { slowConnection with connect := -1 }, .poll slowConnection]

theorem exchange_outputs_alarmEvents :
    ∃ s, runOutputs (exchangeStep asciiServer) ⟨none, .boot⟩ alarmEvents =
      .ok (s, (specOutputs (exchangeSpec asciiServer) (none, .NONE) alarmEvents).2) := by
  have hdelivers := delivers_slowConnection
  have hplain : asciiServer.PlainHead := ⟨by decide, by decide⟩
  refine exchange_outputs hplain (fun e he => ?_) none .boot
  simp only [alarmEvents, List.mem_cons, List.not_mem_nil, or_false] at he
  rcases he with rfl | rfl | rfl | rfl | rfl | rfl
  · exact hdelivers
  · trivial
  · exact hdelivers
  · trivial
  · exact ⟨hdelivers.whole, hdelivers.short⟩
  · exact hdelivers

example : ((specOutputs (exchangeSpec asciiServer) (none, .NONE) alarmEvents).2.map Prod.fst) =
    [.NONE, .NONE, .IMMEDIATE, .CLOSE, .CLOSE, .IMMEDIATE] := by decide

end VulnServer
