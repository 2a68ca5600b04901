import Akkon.Cpp.String
import Akkon.Security.LifecycleManager
import Akkon.ToMathlib.Json

/-!
# The payload of the log callback

A log line is sent to the WebSocket clients as the member `message` of a JSON object. The line may
quote raw bytes of a request, and `escapeJsonString` escapes quotes, backslashes and three of the
control characters.

* `stringTail_escapeJsonString`: the text is read back when it has no other control character;
* `keepsText_iff`: the payload gives back an ASCII text exactly then;
* `escapeJsonString_injective`: no two texts are escaped alike.
-/

namespace Main

open Cpp Monitor

/-- The character of `escapeJsonString`. -/
def escapeChar (c : UInt8) : Bytes :=
  if c = 34 then lit "\\\""
  else if c = 92 then lit "\\\\"
  else if c = 10 then lit "\\n"
  else if c = 13 then lit "\\r"
  else if c = 9 then lit "\\t"
  else [c]

/-- `escapeJsonString`. -/
def escapeJsonString (input : Bytes) : Bytes := input.flatMap escapeChar

/-- `static_cast<int>(level)`. -/
def levelNumber : LogLevel → ℕ
  | .INFO => 0
  | .WARNING => 1
  | .ERROR => 2
  | .DEBUG => 3

/-- `payload` of the log callback. -/
def logPayload (level : LogLevel) (formatted_log : Bytes) : Bytes :=
  lit "\x7b\"action\":\"log\", \"level\":" ++ to_string (levelNumber level) ++
    lit ", \"message\":\"" ++ escapeJsonString formatted_log ++ lit "\"\x7d"

/-- The payload is a JSON object, and its one member `message` is the text. -/
def KeepsText (level : LogLevel) (formatted_log : Bytes) : Prop :=
  ∃ members, Json.parse (logPayload level formatted_log) = some (.object members) ∧
    members.filter (fun m => m.1 == (lit "message").map UInt8.toNat) =
      [((lit "message").map UInt8.toNat, .string (formatted_log.map UInt8.toNat))]

/-- A character that JSON allows in a string or that is escaped. -/
def isSendable (c : UInt8) : Bool := 32 ≤ c || c == 9 || c == 10 || c == 13

/-! ## Escaping -/

@[simp]
theorem escapeJsonString_cons (c : UInt8) (s : Bytes) :
    escapeJsonString (c :: s) = escapeChar c ++ escapeJsonString s := rfl

/-- What escaping one character does: a backslash and another character, or the character itself. -/
theorem escapeChar_cases (c : UInt8) :
    (∃ e, escapeChar c = [92, e] ∧ Json.escaped e = some c.toNat ∧ isSendable c = true) ∨
      (escapeChar c = [c] ∧ c ≠ 34 ∧ c ≠ 92 ∧ c ≠ 10 ∧ c ≠ 13 ∧ c ≠ 9) := by
  unfold escapeChar
  split_ifs with hquote hslash hlf hcr htab
  · subst hquote
    exact .inl ⟨34, rfl, rfl, rfl⟩
  · subst hslash
    exact .inl ⟨92, rfl, rfl, rfl⟩
  · subst hlf
    exact .inl ⟨110, rfl, rfl, rfl⟩
  · subst hcr
    exact .inl ⟨114, rfl, rfl, rfl⟩
  · subst htab
    exact .inl ⟨116, rfl, rfl, rfl⟩
  · exact .inr ⟨rfl, hquote, hslash, hlf, hcr, htab⟩

/-- An escaped character is read back, if JSON allows it. -/
theorem stringTail_escapeChar {c : UInt8} (hascii : c < 128) (t : Bytes) :
    Json.stringTail (escapeChar c ++ t) =
      if isSendable c then (Json.stringTail t).map fun p => (c.toNat :: p.1, p.2) else none := by
  rcases escapeChar_cases c with ⟨e, hesc, hback, hsend⟩ | ⟨hself, hquote, hslash, hlf, hcr, htab⟩
  · rw [hesc, if_pos hsend]
    exact Json.stringTail_escape hback t
  · -- it stands for itself, so it is plain when it is no control character
    have hplain : Json.isPlain c = isSendable c := by grind [Json.isPlain, isSendable]
    rw [hself, List.singleton_append, ← hplain]
    cases hc : Json.isPlain c with
    | true => exact Json.stringTail_plain hc t
    | false => exact Json.stringTail_bad hc hquote hslash t

/-- An escaped text is read back exactly when JSON allows each of its characters. -/
theorem stringTail_escapeJsonString {s : Bytes} (hascii : ∀ c ∈ s, c < 128) (t : Bytes) :
    Json.stringTail (escapeJsonString s ++ 34 :: t) =
      if s.all isSendable then some (s.map UInt8.toNat, t) else none := by
  induction s with
  | nil => exact Json.stringTail_quote t
  | cons c s ih =>
    rw [escapeJsonString_cons, List.append_assoc, stringTail_escapeChar (hascii c (by simp)),
      ih fun d hd => hascii d (List.mem_cons_of_mem c hd), List.all_cons]
    cases isSendable c <;> cases s.all isSendable <;> rfl

/-- The first character of an escaped text can be told from the rest. -/
theorem escapeChar_append_inj {c c' : UInt8} {t t' : Bytes}
    (h : escapeChar c ++ t = escapeChar c' ++ t') : c = c' ∧ t = t' := by
  rcases escapeChar_cases c with ⟨e, hesc, hback, -⟩ | ⟨hself, -, hslash, -⟩ <;>
    rcases escapeChar_cases c' with ⟨e', hesc', hback', -⟩ | ⟨hself', -, hslash', -⟩
  · rw [hesc, hesc'] at h
    simp only [List.cons_append, List.nil_append, List.cons.injEq, true_and] at h
    rw [h.1, hback'] at hback
    exact ⟨UInt8.toNat_inj.mp (Option.some.inj hback).symm, h.2⟩
  · -- only a backslash begins with a backslash
    rw [hesc, hself'] at h
    exact absurd (List.cons.inj h).1.symm hslash'
  · rw [hself, hesc'] at h
    exact absurd (List.cons.inj h).1 hslash
  · rw [hself, hself'] at h
    exact List.cons.inj h

/-- No two texts are escaped alike. -/
theorem escapeJsonString_injective : Function.Injective escapeJsonString := by
  have hne (c : UInt8) (t : Bytes) : escapeChar c ++ t ≠ [] := by
    rcases escapeChar_cases c with ⟨e, hesc, -⟩ | ⟨hself, -⟩ <;> simp [*]
  intro s
  induction s with
  | nil =>
    intro s' h
    cases s' with
    | nil => rfl
    | cons c' s' => exact absurd h.symm (hne c' _)
  | cons c s ih =>
    intro s' h
    cases s' with
    | nil => exact absurd h (hne c _)
    | cons c' s' =>
      obtain ⟨rfl, htail⟩ := escapeChar_append_inj h
      rw [ih htail]

/-! ## The payload -/

theorem logPayload_eq (level : LogLevel) (s : Bytes) : ∃ d, Json.isDigit d = true ∧
    logPayload level s =
      123 :: 34 :: (lit "action" ++ 34 :: 58 :: 34 :: (lit "log" ++
        34 :: 44 :: 32 :: 34 :: (lit "level" ++ 34 :: 58 :: d :: 44 :: 32 ::
          34 :: (lit "message" ++ 34 :: 58 :: 34 :: (escapeJsonString s ++ 34 :: 125 :: []))))) := by
  have hdigit : to_string (levelNumber level) = [48 + (levelNumber level).toUInt8] := by
    cases level <;> decide
  refine ⟨48 + (levelNumber level).toUInt8, ?_, ?_⟩
  · cases level <;> decide
  · simp [logPayload, lit, hdigit]

/-- The payload is read member by member, and its last value is what the string reader makes of the
escaped text. -/
theorem value_logPayload (level : LogLevel) (s : Bytes) (depth : ℕ) : ∃ d,
    Json.value (depth + 4) (logPayload level s) =
      (Json.members (Json.value (depth + 3)) (depth + 1)
        (34 :: (lit "message" ++ 34 :: 58 :: 34 :: (escapeJsonString s ++ 34 :: 125 :: [])))).map
          fun p => (.object (((lit "action").map UInt8.toNat,
              .string ((lit "log").map UInt8.toNat)) ::
            ((lit "level").map UInt8.toNat, .number [d]) :: p.1), p.2) := by
  obtain ⟨d, hd, hpayload⟩ := logPayload_eq level s
  have hnumber (u : Bytes) : Json.value (depth + 3) (Json.skipWs (d :: 44 :: u)) =
      some (.number [d], 44 :: u) := by
    have hws : Json.isWs d = false := by grind [Json.isDigit, Json.isWs]
    rw [Json.skipWs_cons_of_not_isWs hws]
    exact Json.value_digit hd (by decide) u
  -- the action, the level, and then the text, which is left to the reader of the rest
  refine ⟨d, ?_⟩
  rw [hpayload, Json.value_object (by decide) (by decide),
    Json.members_cons_string (by decide) (by decide), Json.skipWs_blank,
    Json.skipWs_cons_of_not_isWs (by decide), Json.members_cons (by decide) (hnumber _),
    Json.skipWs_blank, Json.skipWs_cons_of_not_isWs (by decide), Option.map_map, Option.map_map]
  rfl

section Parse

variable (level : LogLevel) (s : Bytes)

theorem skipWs_logPayload : Json.skipWs (logPayload level s) = logPayload level s := by
  obtain ⟨d, -, hpayload⟩ := logPayload_eq level s
  rw [hpayload]
  exact Json.skipWs_cons_of_not_isWs (by decide) _

theorem length_logPayload : ∃ depth, (logPayload level s).length = depth + 3 := by
  obtain ⟨d, -, hpayload⟩ := logPayload_eq level s
  exact ⟨_, by rw [hpayload]; rfl⟩

variable {s}

/-- A payload whose text can be read. -/
theorem parse_logPayload {chars : List ℕ}
    (h : Json.stringTail (escapeJsonString s ++ [34, 125]) = some (chars, [125])) : ∃ d,
    Json.parse (logPayload level s) =
      some (.object [((lit "action").map UInt8.toNat, .string ((lit "log").map UInt8.toNat)),
        ((lit "level").map UInt8.toNat, .number [d]),
        ((lit "message").map UInt8.toNat, .string chars)]) := by
  obtain ⟨depth, hlength⟩ := length_logPayload level s
  obtain ⟨d, hvalue⟩ := value_logPayload level s depth
  have hmessage : Json.value (depth + 3)
      (Json.skipWs (34 :: (escapeJsonString s ++ [34, 125]))) = some (.string chars, [125]) := by
    rw [Json.skipWs_cons_of_not_isWs (by decide), Json.value_quote, h]
    rfl
  refine ⟨d, Json.parse_eq (skipWs_logPayload level s) ?_⟩
  rw [hlength, hvalue, Json.members_last (by decide) hmessage]
  rfl

/-- A payload whose text cannot be read. -/
theorem parse_logPayload_eq_none
    (h : Json.stringTail (escapeJsonString s ++ [34, 125]) = none) :
    Json.parse (logPayload level s) = none := by
  obtain ⟨depth, hlength⟩ := length_logPayload level s
  obtain ⟨d, hvalue⟩ := value_logPayload level s depth
  have hmessage : Json.value (depth + 3)
      (Json.skipWs (34 :: (escapeJsonString s ++ [34, 125]))) = none := by
    rw [Json.skipWs_cons_of_not_isWs (by decide), Json.value_quote, h]
    rfl
  refine Json.parse_eq_none (skipWs_logPayload level s) ?_
  rw [hlength, hvalue, Json.members_none (by decide) hmessage]
  rfl

end Parse

/-- The payload gives an ASCII text back exactly when it has no control characters but tabs and line
ends. -/
theorem keepsText_iff_sendable (level : LogLevel) {s : Bytes} (hascii : ∀ c ∈ s, c < 128) :
    KeepsText level s ↔ s.all isSendable = true := by
  have htail := stringTail_escapeJsonString hascii [125]
  cases hsend : s.all isSendable with
  | true =>
    rw [hsend] at htail
    obtain ⟨d, hparse⟩ := parse_logPayload level htail
    exact iff_of_true ⟨_, hparse, rfl⟩ rfl
  | false =>
    rw [hsend] at htail
    refine iff_of_false ?_ (by simp)
    rintro ⟨members, hparse, -⟩
    rw [parse_logPayload_eq_none level htail] at hparse
    cases hparse

/-- For every level and every ASCII text: the payload gives the text back exactly when it has no
control characters but tabs and line ends, and no two texts are escaped alike. -/
theorem keepsText_iff (level : LogLevel) {s : Bytes} (hascii : ∀ c ∈ s, c < 128) :
    (KeepsText level s ↔ ∀ c ∈ s, 32 ≤ c ∨ c = 9 ∨ c = 10 ∨ c = 13) ∧
      Function.Injective escapeJsonString := by
  refine ⟨?_, escapeJsonString_injective⟩
  rw [keepsText_iff_sendable level hascii, List.all_eq_true]
  simp [isSendable, or_assoc]

/-- Quotes, backslashes and line ends. -/
theorem keepsText_iff_escapes :
    (KeepsText .DEBUG (lit "a\\\"b\n") ↔
      ∀ c ∈ lit "a\\\"b\n", 32 ≤ c ∨ c = 9 ∨ c = 10 ∨ c = 13) ∧
        Function.Injective escapeJsonString :=
  keepsText_iff .DEBUG (by simp [lit])

/-- The log line of a request whose first byte is `1`. -/
def controlLine : Bytes :=
  lit "[Thu Jan  1 00:00:00 1970] [DEBUG] [TRK_000000] Received request (FD: 5, len=1):\n" ++
    [1, 10]

theorem ascii_controlLine : ∀ c ∈ controlLine, c < 128 := by
  have hall : controlLine.all (fun c => decide (c < 128)) = true := by decide
  intro c hc
  exact of_decide_eq_true (List.all_eq_true.mp hall c hc)

/-- The control character stands in the payload as it is. -/
theorem not_keepsText_controlLine : ¬ KeepsText .DEBUG controlLine := by
  rw [keepsText_iff_sendable .DEBUG ascii_controlLine]
  decide

end Main
