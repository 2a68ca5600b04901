import Akkon.Security.LifecycleManager

/-!
# The vulnerability poll

One iteration of `LifecycleManager::backgroundTask`: what it reads out of a response and what it
does to the lockdown state.

* `readResponse_isOk`: no response makes the scanner throw;
* `scanField_eq`: the text the scanner takes for a field, whether or not the field is complete;
* `pollOnce_failsSafe_iff`: for which responses the new state is the reported one, and the state is
  kept where nothing is reported.
-/

namespace Security

open Cpp Monitor

/-! ## The scanner -/

/-- The text of the field `key`, or what stands for it where there is no such field: `skip` is how
far behind the start of the key the search for the opening quote begins. -/
def scanField (response key : Bytes) (skip : ℕ) (missing : Bytes) : Except Exn Bytes :=
  match find response key with
  | none => .ok missing
  | some pos =>
    -- where there is no quote, `npos + 1` is `0`
    let start :=
      match findFrom response (lit "\"") (pos + skip) with
      | some quote => quote + 1
      | none => 0
    match findFrom response (lit "\"") start with
    | some stop => substr response start (stop - start)
    -- `npos - start` is more than is left
    | none => substr response start response.length

/-- What an iteration reads out of a response. -/
structure Report where
  state_str : Bytes
  cve : Bytes
  msg : Bytes
  deriving DecidableEq, Repr

/-- The key of the field that counts. -/
def statusKey : Bytes := lit "\"status\":"

/-- The three fields of a response. -/
def readResponse (response : Bytes) : Except Exn Report := do
  let state_str ← scanField response statusKey 9 (lit "SAFE")
  let cve ← scanField response (lit "\"cve\":") 6 []
  let msg ← scanField response (lit "\"message\":") 10 []
  return { state_str, cve, msg }

/-- `new_state`. -/
def newState (state_str : Bytes) : LockdownState :=
  if state_str = lit "IMMEDIATE" then .IMMEDIATE
  else if state_str = lit "CLOSE" then .CLOSE
  else .NONE

namespace LifecycleManager

/-- The store of a state that differs from the one that was loaded, with its line in the log. -/
def adopt (m : LifecycleManager) (report : Report) : LifecycleManager :=
  let new_state := newState report.state_str
  let m := m.store new_state
  if new_state ≠ .NONE then
    m.logged .ERROR (lit "VULNERABILITY DETECTED! " ++ report.cve ++ lit " - " ++ report.msg
      ++ lit " -> LOCKDOWN: " ++ report.state_str)
  else m.logged .INFO (lit "System returned to SAFE state.")

/-- What an iteration of `backgroundTask` does with the response it fetched. -/
def pollOnce (m : LifecycleManager) (response : Bytes) : Except Exn LifecycleManager :=
  if response = [] then .ok m
  else do
    let report ← readResponse response
    return if newState report.state_str ≠ m.getLockdownState then m.adopt report else m

@[simp]
theorem getLockdownState_adopt (m : LifecycleManager) (report : Report) :
    (m.adopt report).getLockdownState = newState report.state_str := by
  rw [adopt]
  split <;> rfl

end LifecycleManager

/-! ## What the scanner takes -/

theorem lit_quote : lit "\"" = [34] := by decide

/-- The text in front of the first quote. -/
def upToQuote (s : Bytes) : Bytes := s.takeWhile (· != 34)

/-- The scan to the closing quote, or to the end where there is none. -/
theorem scan_to_quote {s : Bytes} {start : ℕ} (hstart : start ≤ s.length) :
    (match findFrom s (lit "\"") start with
      | some stop => substr s start (stop - start)
      | none => substr s start s.length) = .ok (upToQuote (s.drop start)) := by
  rw [findFrom, if_pos hstart, lit_quote, find_singleton, upToQuote]
  by_cases hmem : 34 ∈ s.drop start
  · rw [if_pos hmem]
    simp only [Option.map_some, Nat.add_sub_cancel, substr_eq_ok _ hstart]
    exact congrArg Except.ok (List.prefix_iff_eq_take.mp (List.takeWhile_prefix _)).symm
  · rw [if_neg hmem]
    simp only [Option.map_none, substr_to_end hstart]
    rw [List.takeWhile_eq_self_iff.mpr (bne_of_not_mem hmem)]

/-- The text behind the first quote of what follows a key, or else the text in front of the first
quote of all. -/
def scanned (response post : Bytes) : Bytes :=
  match post.dropWhile (· != 34) with
  | _ :: rest => upToQuote rest
  | [] => upToQuote response

/-- What is behind the first quote. -/
theorem dropWhile_eq_cons {s : Bytes} (hmem : 34 ∈ s) :
    s.dropWhile (· != 34) = 34 :: s.drop ((s.takeWhile (· != 34)).length + 1) := by
  induction s with
  | nil => cases hmem
  | cons c s ih =>
    by_cases hc : c = 34
    · subst hc
      rfl
    · have hmem : 34 ∈ s := (List.mem_cons.mp hmem).resolve_left (Ne.symm hc)
      simpa [hc] using ih hmem

/-- The scan for a field that is there. -/
theorem scanField_eq {response key missing : Bytes} {skip pos : ℕ}
    (hfind : find response key = some pos) (hskip : pos + skip ≤ response.length) :
    scanField response key skip missing = .ok (scanned response (response.drop (pos + skip))) := by
  rw [scanField, hfind, scanned]
  by_cases hmem : 34 ∈ response.drop (pos + skip)
  · have hopen : findFrom response (lit "\"") (pos + skip) =
        some (((response.drop (pos + skip)).takeWhile (· != 34)).length + (pos + skip)) := by
      rw [findFrom, if_pos hskip, lit_quote, find_singleton, if_pos hmem]
      rfl
    -- the text starts behind the opening quote
    have hscan := scan_to_quote (lt_length_of_findFrom (by decide) hopen)
    simp only [hopen, dropWhile_eq_cons hmem, List.drop_drop]
    rw [show pos + skip + (((response.drop (pos + skip)).takeWhile (· != 34)).length + 1) =
      ((response.drop (pos + skip)).takeWhile (· != 34)).length + (pos + skip) + 1 by omega]
    exact hscan
  · have hopen : findFrom response (lit "\"") (pos + skip) = none := by
      rw [findFrom, if_pos hskip, lit_quote, find_singleton, if_neg hmem]
      rfl
    have hnone : (response.drop (pos + skip)).dropWhile (· != 34) = [] :=
      List.dropWhile_eq_nil_iff.mpr (bne_of_not_mem hmem)
    -- `npos + 1`: the text starts at the beginning of the response
    have hscan := scan_to_quote (Nat.zero_le response.length)
    rw [List.drop_zero] at hscan
    simp only [hopen, hnone]
    exact hscan

theorem scanField_isOk (response key : Bytes) {skip : ℕ} (hskip : skip = key.length)
    (missing : Bytes) : ∃ v, scanField response key skip missing = .ok v := by
  rcases hfind : find response key with _ | pos
  · exact ⟨missing, by rw [scanField, hfind]⟩
  · exact ⟨_, scanField_eq hfind (hskip ▸ add_length_le_of_find hfind)⟩

/-- No response makes the scanner throw, and the text it takes for the status is the first
scan's. -/
theorem readResponse_isOk (response : Bytes) :
    ∃ report, readResponse response = .ok report ∧
      scanField response statusKey 9 (lit "SAFE") = .ok report.state_str := by
  have hskip : 9 = statusKey.length ∧ 6 = (lit "\"cve\":").length ∧
    10 = (lit "\"message\":").length := by decide
  obtain ⟨state_str, hstate⟩ := scanField_isOk response statusKey hskip.1 (lit "SAFE")
  obtain ⟨cve, hcve⟩ := scanField_isOk response (lit "\"cve\":") hskip.2.1 []
  obtain ⟨msg, hmsg⟩ := scanField_isOk response (lit "\"message\":") hskip.2.2 []
  exact ⟨⟨state_str, cve, msg⟩, by rw [readResponse, hstate, hcve, hmsg]; rfl, hstate⟩

/-! ## What a response reports -/

/-- White space between the tokens of a JSON text. -/
def isJsonSpace (c : UInt8) : Bool := c == 32 || c == 9 || c == 10 || c == 13

/-- The state a status word stands for. -/
def namedState (word : Bytes) : Option LockdownState :=
  if word = lit "IMMEDIATE" then some .IMMEDIATE
  else if word = lit "CLOSE" then some .CLOSE
  else if word = lit "SAFE" then some .NONE
  else none

/-- The state a response reports: its first status field has a complete quoted string for a value,
and that is one of the three words. -/
def reportedState (response : Bytes) : Option LockdownState :=
  match find response statusKey with
  | none => none
  | some pos =>
    match (response.drop (pos + statusKey.length)).dropWhile isJsonSpace with
    | [] => none
    | c :: rest => if c = 34 ∧ 34 ∈ rest then namedState (upToQuote rest) else none

/-- The text that an iteration takes for the status of a response, where there is no complete one:
what is behind the first quote of the rest of the text, up to the next quote or the end, or what is
in front of the first quote of all where the rest has none. -/
def TakenForStatus (response word : Bytes) : Prop :=
  ∃ pre post, response = pre ++ statusKey ++ post ∧ find response statusKey = some pre.length ∧
    ((∃ gap rest, post = gap ++ lit "\"" ++ word ++ rest ∧ 34 ∉ gap ∧ 34 ∉ word ∧
        (rest = [] ∨ ∃ r, rest = 34 :: r)) ∨
      (34 ∉ post ∧ ∃ rest, response = word ++ lit "\"" ++ rest ∧ 34 ∉ word))

/-- What an iteration owes: the reported state, and the old one where nothing is reported. -/
def FailsSafe (m : LifecycleManager) (response : Bytes) : Prop :=
  ∃ m', m.pollOnce response = .ok m' ∧
    m'.getLockdownState = (reportedState response).getD m.getLockdownState

/-- The old state is what the text taken for the status stands for. -/
def ReadsAsOldState (m : LifecycleManager) (response : Bytes) : Prop :=
  match m.getLockdownState with
  | .NONE => ¬ TakenForStatus response (lit "IMMEDIATE") ∧ ¬ TakenForStatus response (lit "CLOSE")
  | .CLOSE => TakenForStatus response (lit "CLOSE")
  | .IMMEDIATE => TakenForStatus response (lit "IMMEDIATE")

theorem upToQuote_eq_iff {s word : Bytes} :
    upToQuote s = word ↔
      ∃ rest, s = word ++ rest ∧ 34 ∉ word ∧ (rest = [] ∨ ∃ r, rest = 34 :: r) := by
  constructor
  · rintro rfl
    refine ⟨s.dropWhile (· != 34), (List.takeWhile_append_dropWhile).symm, ?_, ?_⟩
    · intro hmem
      simpa using List.mem_takeWhile_imp hmem
    · by_cases hmem : 34 ∈ s
      · exact .inr ⟨_, dropWhile_eq_cons hmem⟩
      · exact .inl (List.dropWhile_eq_nil_iff.mpr (bne_of_not_mem hmem))
  · rintro ⟨rest, rfl, hword, hrest⟩
    rw [upToQuote, List.takeWhile_append_of_pos (bne_of_not_mem hword)]
    rcases hrest with rfl | ⟨r, rfl⟩ <;> simp

/-- The first quote behind a text without one. -/
theorem dropWhile_append_quote {gap : Bytes} (hgap : 34 ∉ gap) (rest : Bytes) :
    (gap ++ 34 :: rest).dropWhile (· != 34) = 34 :: rest := by
  rw [List.dropWhile_append_of_pos (bne_of_not_mem hgap)]
  rfl

/-- A response reports a state exactly when its first status key is followed by a quoted word that
stands for it, with nothing but white space in between. -/
theorem reportedState_eq_some_iff {response : Bytes} {state : LockdownState} :
    reportedState response = some state ↔
      ∃ pre gap word rest,
        response = pre ++ statusKey ++ (gap ++ 34 :: (word ++ 34 :: rest)) ∧
        find response statusKey = some pre.length ∧ (∀ c ∈ gap, isJsonSpace c = true) ∧
        34 ∉ word ∧ namedState word = some state := by
  constructor
  · -- The text behind the key is cut into white space, the quoted word and the rest.
    intro h
    rw [reportedState] at h
    rcases hfind : find response statusKey with _ | pos
    · rw [hfind] at h
      cases h
    · have hcut := eq_append_of_find hfind
      rw [hfind] at h
      simp only at h
      have hlen : (response.take pos).length = pos :=
        List.length_take_of_le (prefix_of_find hfind).2
      generalize response.drop (pos + statusKey.length) = post at h hcut
      have hpost := (List.takeWhile_append_dropWhile (p := isJsonSpace) (l := post)).symm
      rcases hspace : post.dropWhile isJsonSpace with _ | ⟨c, rest⟩
      · simp [hspace] at h
      · rw [hspace] at h hpost
        simp only at h
        split at h
        · next hc =>
          obtain ⟨rfl, hmem⟩ := hc
          have hword := (List.takeWhile_append_dropWhile (p := (· != 34)) (l := rest)).symm
          rw [dropWhile_eq_cons hmem] at hword
          refine ⟨response.take pos, post.takeWhile isJsonSpace, upToQuote rest,
            rest.drop ((rest.takeWhile (· != 34)).length + 1), ?_,
            by rw [hlen], fun c hc => List.mem_takeWhile_imp hc, ?_, h⟩
          · rw [upToQuote, ← hword, ← hpost, ← hcut]
          · intro hquote
            simpa using List.mem_takeWhile_imp hquote
        · cases h
  · rintro ⟨pre, gap, word, rest, hresponse, hfind, hgap, hword, hnamed⟩
    have hdrop : response.drop (pre.length + statusKey.length) =
        gap ++ 34 :: (word ++ 34 :: rest) := by
      rw [hresponse, ← List.length_append, List.drop_left]
    have hspace : (gap ++ 34 :: (word ++ 34 :: rest)).dropWhile isJsonSpace =
        34 :: (word ++ 34 :: rest) := by
      rw [List.dropWhile_append_of_pos hgap]
      rfl
    have hquoted : upToQuote (word ++ 34 :: rest) = word :=
      upToQuote_eq_iff.mpr ⟨34 :: rest, rfl, hword, .inr ⟨rest, rfl⟩⟩
    rw [reportedState, hfind]
    simp only [hdrop, hspace]
    rw [if_pos ⟨trivial, by simp⟩, hquoted, hnamed]

/-- The text taken for the status, where there is a status field at all. -/
theorem takenForStatus_iff {response word : Bytes} {pos : ℕ}
    (hfind : find response statusKey = some pos) :
    TakenForStatus response word ↔
      scanned response (response.drop (pos + statusKey.length)) = word := by
  have hcut := eq_append_of_find hfind
  have hmem : 34 ∈ response := by
    rw [hcut]
    simp [statusKey, lit]
  constructor
  · rintro ⟨pre, post, hresponse, hpre, hpost⟩
    have hpos : pos = pre.length := Option.some.inj (hfind.symm.trans hpre)
    have hdrop : response.drop (pos + statusKey.length) = post := by
      rw [hresponse, hpos, ← List.length_append, List.drop_left]
    rw [hdrop, scanned]
    rcases hpost with ⟨gap, rest, rfl, hgap, hword, hrest⟩ | ⟨hpost, rest, hrest, hword⟩
    · rw [lit_quote, List.append_assoc, List.append_assoc, List.singleton_append,
        dropWhile_append_quote hgap]
      exact upToQuote_eq_iff.mpr ⟨rest, rfl, hword, hrest⟩
    · rw [List.dropWhile_eq_nil_iff.mpr (bne_of_not_mem hpost)]
      refine upToQuote_eq_iff.mpr ⟨34 :: rest, ?_, hword, .inr ⟨rest, rfl⟩⟩
      rw [hrest, lit_quote, List.append_assoc, List.singleton_append]
  · intro hscanned
    have hlen : (response.take pos).length = pos :=
      List.length_take_of_le (prefix_of_find hfind).2
    refine ⟨response.take pos, _, hcut, by rw [hlen, hfind], ?_⟩
    generalize response.drop (pos + statusKey.length) = post at hscanned
    rw [scanned] at hscanned
    by_cases hpost : 34 ∈ post
    · rw [dropWhile_eq_cons hpost] at hscanned
      obtain ⟨rest, hrest, hword, hend⟩ := upToQuote_eq_iff.mp hscanned
      refine .inl ⟨post.takeWhile (· != 34), rest, ?_, ?_, hword, hend⟩
      · have happend := (List.takeWhile_append_dropWhile (p := (· != 34)) (l := post)).symm
        rw [dropWhile_eq_cons hpost, hrest] at happend
        simpa [lit_quote] using happend
      · intro hgap
        simpa using List.mem_takeWhile_imp hgap
    · rw [List.dropWhile_eq_nil_iff.mpr (bne_of_not_mem hpost)] at hscanned
      obtain ⟨rest, hrest, hword, hend⟩ := upToQuote_eq_iff.mp hscanned
      refine .inr ⟨hpost, ?_⟩
      rcases hend with rfl | ⟨r, rfl⟩
      · -- the key itself has quotes
        rw [hrest, List.append_nil] at hmem
        exact absurd hmem hword
      · exact ⟨r, by simpa [lit_quote] using hrest, hword⟩

theorem not_takenForStatus {response : Bytes} (hfind : find response statusKey = none)
    (word : Bytes) : ¬ TakenForStatus response word := by
  rintro ⟨pre, post, -, hpre, -⟩
  rw [hfind] at hpre
  cases hpre

/-! ## When the poll fails safe -/

theorem newState_of_namedState {word : Bytes} {state : LockdownState}
    (h : namedState word = some state) : newState word = state := by
  rw [namedState] at h
  rw [newState]
  split at h
  · simp_all
  · split at h
    · simp_all
    · split at h <;> simp_all

/-- A complete status field is what the scanner takes. -/
theorem newState_of_reportedState {response : Bytes} {state : LockdownState} {pos : ℕ}
    (hfind : find response statusKey = some pos) (h : reportedState response = some state) :
    newState (scanned response (response.drop (pos + statusKey.length))) = state := by
  rw [reportedState, hfind] at h
  simp only at h
  rw [scanned]
  generalize response.drop (pos + statusKey.length) = post at h ⊢
  rcases hspace : post.dropWhile isJsonSpace with _ | ⟨c, rest⟩
  · simp [hspace] at h
  · rw [hspace] at h
    simp only at h
    split at h
    · next hc =>
      -- white space is no quote, so the first quote is the one behind it
      obtain ⟨rfl, -⟩ := hc
      have hgap : 34 ∉ post.takeWhile isJsonSpace := by
        intro hmem
        have := List.mem_takeWhile_imp hmem
        revert this
        decide
      have happend := (List.takeWhile_append_dropWhile (p := isJsonSpace) (l := post)).symm
      rw [hspace] at happend
      rw [happend, dropWhile_append_quote hgap]
      exact newState_of_namedState h
    · cases h

/-- An iteration leaves the state that the text of the status stands for. -/
theorem pollOnce_eq {response : Bytes} (hne : response ≠ []) (m : LifecycleManager) :
    ∃ report m', readResponse response = .ok report ∧ m.pollOnce response = .ok m' ∧
      m'.getLockdownState = newState report.state_str ∧
      scanField response statusKey 9 (lit "SAFE") = .ok report.state_str := by
  obtain ⟨report, hread, hscan⟩ := readResponse_isOk response
  refine ⟨report, _, hread, by rw [LifecycleManager.pollOnce, if_neg hne, hread]; rfl, ?_, hscan⟩
  split
  · exact m.getLockdownState_adopt report
  · next heq => exact (not_not.mp heq).symm

theorem newState_eq_none_iff {word : Bytes} :
    newState word = .NONE ↔ word ≠ lit "IMMEDIATE" ∧ word ≠ lit "CLOSE" := by
  rw [newState]
  split
  · simp_all
  · split <;> simp_all

theorem newState_eq_close_iff {word : Bytes} : newState word = .CLOSE ↔ word = lit "CLOSE" := by
  rw [newState]
  split
  · next h =>
    subst h
    simp [show lit "IMMEDIATE" ≠ lit "CLOSE" by decide]
  · split <;> simp_all

theorem newState_eq_immediate_iff {word : Bytes} :
    newState word = .IMMEDIATE ↔ word = lit "IMMEDIATE" := by
  rw [newState]
  split
  · simp_all
  · split <;> simp_all

/-- Which old states an unreported status keeps. -/
theorem readsAsOldState_iff {m : LifecycleManager} {response word : Bytes}
    (h : scanField response statusKey 9 (lit "SAFE") = .ok word) :
    ReadsAsOldState m response ↔ newState word = m.getLockdownState := by
  rw [ReadsAsOldState]
  rcases hfind : find response statusKey with _ | pos
  · -- no field: the default stands for `NONE`
    rw [scanField, hfind] at h
    have hnone : newState word = .NONE := by
      rw [← Except.ok.inj h]
      decide
    have hnot := not_takenForStatus hfind
    rcases hstate : m.getLockdownState <;> simp [hnone, hnot]
  · have hle := add_length_le_of_find hfind
    have hword := Except.ok.inj ((scanField_eq hfind hle).symm.trans h)
    have htaken : ∀ w, TakenForStatus response w ↔
        scanned response (response.drop (pos + statusKey.length)) = w :=
      fun _ => takenForStatus_iff hfind
    rcases hstate : m.getLockdownState
    · simp only [htaken, hword, newState_eq_none_iff, ne_eq]
    · simp only [htaken, hword, newState_eq_close_iff]
    · simp only [htaken, hword, newState_eq_immediate_iff]

/-- An iteration fails safe exactly when the response reports a state, or the text that is taken for
one stands for the old state. -/
theorem pollOnce_failsSafe_iff {response : Bytes} (hne : response ≠ []) (m : LifecycleManager) :
    FailsSafe m response ↔ (reportedState response).isSome ∨ ReadsAsOldState m response := by
  obtain ⟨report, m', -, hpoll, hstate, hscan⟩ := pollOnce_eq hne m
  have hsafe : FailsSafe m response ↔
      newState report.state_str = (reportedState response).getD m.getLockdownState := by
    rw [FailsSafe, hpoll, ← hstate]
    constructor
    · rintro ⟨m'', heq, h⟩
      rwa [Except.ok.inj heq]
    · exact fun h => ⟨m', rfl, h⟩
  rw [hsafe, readsAsOldState_iff hscan]
  rcases hreported : reportedState response with _ | state
  · simp
  · have hnew : newState report.state_str = state := by
      rcases hfind : find response statusKey with _ | pos
      · rw [reportedState, hfind] at hreported
        cases hreported
      · have hle := add_length_le_of_find hfind
        rw [← Except.ok.inj ((scanField_eq hfind hle).symm.trans hscan)]
        exact newState_of_reportedState hfind hreported
    simp [hnew]

/-- A response of the vulnerability server. -/
theorem pollOnce_failsSafe_close :
    FailsSafe .boot (lit "\x7b\"status\": \"CLOSE\"\x7d") ↔
      (reportedState (lit "\x7b\"status\": \"CLOSE\"\x7d")).isSome ∨
        ReadsAsOldState .boot (lit "\x7b\"status\": \"CLOSE\"\x7d") :=
  pollOnce_failsSafe_iff (by decide) .boot

/-- An error page lifts an `IMMEDIATE` lockdown. -/
theorem not_failsSafe_errorPage :
    lit "HTTP/1.0 404 Not Found\r\n\r\n" ≠ [] ∧
      ¬ FailsSafe (LifecycleManager.boot.store .IMMEDIATE)
        (lit "HTTP/1.0 404 Not Found\r\n\r\n") := by
  refine ⟨by decide, ?_⟩
  rintro ⟨m', hpoll, hstate⟩
  have hnone : ((LifecycleManager.boot.store .IMMEDIATE).pollOnce
      (lit "HTTP/1.0 404 Not Found\r\n\r\n")).map LifecycleManager.getLockdownState =
      .ok .NONE := by decide
  rw [hpoll] at hnone
  have hkept : (reportedState (lit "HTTP/1.0 404 Not Found\r\n\r\n")).getD .IMMEDIATE =
      .IMMEDIATE := by decide
  have hstate : m'.getLockdownState = .IMMEDIATE := hstate.trans hkept
  rw [Except.ok.inj hnone] at hstate
  cases hstate

/-- A text that is cut off behind its status word is taken at that word. -/
example : (LifecycleManager.boot.pollOnce (lit "\x7b\"status\": \"IMMEDIATE")).map
    LifecycleManager.getLockdownState = .ok .IMMEDIATE := by decide

end Security
