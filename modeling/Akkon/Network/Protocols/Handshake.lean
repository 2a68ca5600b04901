import Akkon.Cpp.Lines
import Akkon.Network.Protocols.Sha1
import Akkon.ToMathlib.Base64

/-!
# The opening handshake

`isWebSocketUpgrade` and `generateHandshakeResponse` search a copy of the request in lower case for
two fixed texts, each with a colon and one blank in it. RFC 6455 asks for more: the white space
behind a colon is free, and so is what else stands in the request.

* `base64Encode_eq`, `base64Encode_rfc4648`: `base64_encode` is the encoding of RFC 4648, and
  decoding undoes it;
* `Conforms`, `Handshake`: the opening handshakes that a client may send;
* `isWebSocketUpgrade_iff`: which of them are recognised, header line by header line;
* `requestKey_joinLines`, `generateHandshakeResponse_iff`: where the key is taken from;
* `answered_iff`: the handshakes that are answered as the RFC asks for.
-/

namespace WebSocketHandler

open Cpp Crypto.Hash

/-! ## Base64 -/

/-- Six bits of the accumulator. -/
theorem toNat_sextet (val : BitVec 32) {n : ℕ} (hn : n ≤ 26) :
    ((val.sshiftRight n) &&& 0x3F).toNat = val.toNat / 2 ^ n % 64 := by
  -- the sign is not shifted into the six bits
  have hshift : (val.sshiftRight n) &&& 0x3F = (val >>> n) &&& 0x3F := by
    refine BitVec.eq_of_getLsbD_eq fun i hi => ?_
    have hmask : ∀ i < 32, 6 ≤ i → (0x3F : BitVec 32).getLsbD i = false := by decide
    rw [BitVec.getLsbD_and, BitVec.getLsbD_and, BitVec.getLsbD_sshiftRight,
      BitVec.getLsbD_ushiftRight]
    by_cases hsix : i < 6
    · have hlow : ¬ 32 ≤ i := by omega
      have hlt : n + i < 32 := by omega
      simp [hlow, hlt]
    · rw [hmask i hi (by omega), Bool.and_false, Bool.and_false]
  rw [hshift, BitVec.toNat_and, BitVec.toNat_ushiftRight, Nat.shiftRight_eq_div_pow]
  exact Nat.and_two_pow_sub_one_eq_mod _ 6

/-- The character for six bits of the accumulator. -/
def sextet (val : BitVec 32) (n : ℕ) : UInt8 :=
  alphabet.getD ((val.sshiftRight n) &&& 0x3F).toNat 0

theorem sextet_eq (val : BitVec 32) {n : ℕ} (hn : n ≤ 26) :
    sextet val n = Base64.digit (val.toNat / 2 ^ n % 64) := by
  rw [sextet, toNat_sextet val hn]
  rfl

/-- The accumulator with a byte pushed. -/
def push (val : BitVec 32) (c : UInt8) : BitVec 32 := (val <<< 8) + BitVec.ofNat 32 c.toNat

theorem toNat_push (val : BitVec 32) (c : UInt8) :
    (push val c).toNat = (val.toNat * 256 + c.toNat) % 2 ^ 32 := by
  have hc := c.toNat_lt
  simp only [push, BitVec.toNat_add, BitVec.toNat_shiftLeft, BitVec.toNat_ofNat,
    Nat.shiftLeft_eq]
  omega

/-- The first byte of a group gives one character, and two bits are left. -/
theorem base64Step_first (val : BitVec 32) (out : Bytes) (a : UInt8) :
    base64Step (val, -6, out) a = (push val a, -4, out ++ [sextet (push val a) 2]) := rfl

theorem base64Step_second (val : BitVec 32) (out : Bytes) (b : UInt8) :
    base64Step (val, -4, out) b = (push val b, -2, out ++ [sextet (push val b) 4]) := rfl

/-- The third byte gives two. -/
theorem base64Step_third (val : BitVec 32) (out : Bytes) (c : UInt8) :
    base64Step (val, -2, out) c =
      (push val c, -6, out ++ [sextet (push val c) 6] ++ [sextet (push val c) 0]) := rfl

/-- The character behind the loop, from the bits that are left. -/
def base64Last (st : BitVec 32 × ℤ × Bytes) : Bytes :=
  let (val, valb, out) := st
  if -6 < valb then out ++ [sextet (val <<< 8) (valb + 8).toNat] else out

/-- `=`. -/
theorem lit_padding : lit "=" = [Base64.padding] := by decide

/-- A character of a group, from the accumulator behind one of its bytes. -/
theorem sextet_eq_char {val : BitVec 32} {n i : ℕ} {a b c : UInt8} (hn : n ≤ 26)
    (h : val.toNat / 2 ^ n % 64 = Base64.group a b c / 64 ^ (3 - i) % 64) :
    sextet val n = Base64.char (Base64.group a b c) i := by
  rw [sextet_eq val hn, h, Base64.char]

/-- The four characters of a group. -/
theorem base64Step_group (val : BitVec 32) (out : Bytes) (a b c : UInt8) :
    [a, b, c].foldl base64Step (val, -6, out) =
      (push (push (push val a) b) c, -6, out ++ [Base64.char (Base64.group a b c) 0,
        Base64.char (Base64.group a b c) 1, Base64.char (Base64.group a b c) 2,
        Base64.char (Base64.group a b c) 3]) := by
  have ha := a.toNat_lt
  have hb := b.toNat_lt
  have hc := c.toNat_lt
  have h₀ : sextet (push val a) 2 = Base64.char (Base64.group a b c) 0 :=
    sextet_eq_char (by decide) (by rw [toNat_push, Base64.group]; omega)
  have h₁ : sextet (push (push val a) b) 4 = Base64.char (Base64.group a b c) 1 :=
    sextet_eq_char (by decide) (by rw [toNat_push, toNat_push, Base64.group]; omega)
  have h₂ : sextet (push (push (push val a) b) c) 6 = Base64.char (Base64.group a b c) 2 :=
    sextet_eq_char (by decide) (by rw [toNat_push, toNat_push, Base64.group]; omega)
  have h₃ : sextet (push (push (push val a) b) c) 0 = Base64.char (Base64.group a b c) 3 :=
    sextet_eq_char (by decide) (by rw [toNat_push, Base64.group]; omega)
  rw [List.foldl_cons, List.foldl_cons, List.foldl_cons, List.foldl_nil, base64Step_first,
    base64Step_second, base64Step_third, h₀, h₁, h₂, h₃]
  simp

/-- What the loop and the code behind it make of the rest of a text. -/
theorem base64Pad_foldl (s : Bytes) (val : BitVec 32) {out : Bytes} (hout : out.length % 4 = 0) :
    base64Pad 3 (base64Last (s.foldl base64Step (val, -6, out))) = out ++ Base64.encode s := by
  induction s using Base64.encode.induct generalizing val out with
  | case1 =>
    show base64Pad 3 out = out ++ []
    rw [base64Pad, if_neg (by simp [hout]), List.append_nil]
  -- One byte is left: two characters, the second with four bits of zeros, and two padding signs.
  | case2 a =>
    have ha := a.toNat_lt
    have h₀ : sextet (push val a) 2 = Base64.char (Base64.group a 0 0) 0 :=
      sextet_eq_char (by decide) (by rw [toNat_push, Base64.group, UInt8.toNat_zero]; omega)
    have h₁ : sextet (push val a <<< 8) 4 = Base64.char (Base64.group a 0 0) 1 :=
      sextet_eq_char (by decide) (by
        rw [BitVec.toNat_shiftLeft, toNat_push, Base64.group, UInt8.toNat_zero,
          Nat.shiftLeft_eq]
        omega)
    show base64Pad 3 (out ++ [sextet (push val a) 2] ++ [sextet (push val a <<< 8) 4]) = _
    have hone : (out.length + 1 + 1) % 4 ≠ 0 := by omega
    have htwo : (out.length + 1 + 1 + 1) % 4 ≠ 0 := by omega
    have hthree : ¬ (out.length + 1 + 1 + 1 + 1) % 4 ≠ 0 := by omega
    simp only [h₀, h₁, base64Pad, List.length_append, List.length_singleton, lit_padding,
      if_pos hone, if_pos htwo, if_neg hthree]
    simp [Base64.encode]
  -- Two bytes are left: three characters, the third with two bits of zeros, and one padding sign.
  | case3 a b =>
    have ha := a.toNat_lt
    have hb := b.toNat_lt
    have h₀ : sextet (push val a) 2 = Base64.char (Base64.group a b 0) 0 :=
      sextet_eq_char (by decide) (by rw [toNat_push, Base64.group, UInt8.toNat_zero]; omega)
    have h₁ : sextet (push (push val a) b) 4 = Base64.char (Base64.group a b 0) 1 :=
      sextet_eq_char (by decide) (by
        rw [toNat_push, toNat_push, Base64.group, UInt8.toNat_zero]
        omega)
    have h₂ : sextet (push (push val a) b <<< 8) 6 = Base64.char (Base64.group a b 0) 2 :=
      sextet_eq_char (by decide) (by
        rw [BitVec.toNat_shiftLeft, toNat_push, toNat_push, Base64.group, UInt8.toNat_zero,
          Nat.shiftLeft_eq]
        omega)
    show base64Pad 3 (out ++ [sextet (push val a) 2] ++ [sextet (push (push val a) b) 4] ++
      [sextet (push (push val a) b <<< 8) 6]) = _
    have hone : (out.length + 1 + 1 + 1) % 4 ≠ 0 := by omega
    have htwo : ¬ (out.length + 1 + 1 + 1 + 1) % 4 ≠ 0 := by omega
    simp only [h₀, h₁, h₂, base64Pad, List.length_append, List.length_singleton, lit_padding,
      if_pos hone, if_neg htwo]
    simp [Base64.encode]
  -- Behind three bytes `valb` is back at `-6`, so the rest is encoded by itself, whatever is left
  -- in `val`.
  | case4 a b c s ih =>
    have hsplit : (a :: b :: c :: s).foldl base64Step (val, -6, out) =
        s.foldl base64Step ([a, b, c].foldl base64Step (val, -6, out)) := by
      rw [← List.foldl_append, List.cons_append, List.cons_append, List.cons_append,
        List.nil_append]
    rw [hsplit, base64Step_group, ih]
    · simp [Base64.encode]
    · simpa using hout

/-- `base64_encode` is the encoding of the standard. -/
theorem base64Encode_eq (src : Bytes) : base64Encode src = Base64.encode src := by
  have hlast : base64Encode src = base64Pad 3 (base64Last (src.foldl base64Step (0, -6, []))) := rfl
  rw [hlast, base64Pad_foldl src 0 rfl, List.nil_append]

/-- For every byte string `base64_encode` gives the encoding of the standard, which decoding undoes:
what the accumulator loses of the earlier groups never reaches the output. -/
theorem base64Encode_rfc4648 :
    (∀ src, base64Encode src = Base64.encode src ∧ Base64.decode (base64Encode src) = some src) ∧
      Function.Injective base64Encode := by
  have hencode : base64Encode = Base64.encode := funext base64Encode_eq
  rw [hencode]
  exact ⟨fun src => ⟨rfl, Base64.decode_encode src⟩, Base64.encode_injective⟩

/-! ## Requests -/

/-- A character of a field name. -/
def isTokenChar (c : UInt8) : Bool :=
  (48 ≤ c && c ≤ 57) || (65 ≤ c && c ≤ 90) || (97 ≤ c && c ≤ 122) ||
    (lit "!#$%&'*+-.^_|~").contains c || c == 96

/-- The optional white space of a header line. -/
def isOws (c : UInt8) : Bool := c == 32 || c == 9

/-- A visible character of a field value; those from 128 on are allowed as well. -/
def isFieldChar (c : UInt8) : Bool := 33 ≤ c && c != 127

/-- The parts of a header field: a token, white space, and a value that has none at its ends. -/
def isField (name before value after : Bytes) : Bool :=
  name != [] && name.all isTokenChar && (before ++ after).all isOws &&
    value.all (fun c => isFieldChar c || isOws c) && value.head?.all isFieldChar &&
    value.getLast?.all isFieldChar

/-- A header field, with the white space behind its colon and in front of its line end. -/
structure HeaderField where
  name : Bytes
  before : Bytes
  value : Bytes
  after : Bytes
  isField : isField name before value after = true

namespace HeaderField

variable (f : HeaderField)

/-- The header line, without its line end. -/
def line : Bytes := f.name ++ 58 :: (f.before ++ (f.value ++ f.after))

/-- Field names are compared without regard to letter case. -/
def IsNamed (name : Bytes) : Prop := f.name.map toLower = name

instance (name : Bytes) : Decidable (f.IsNamed name) := inferInstanceAs (Decidable (_ = _))

/-- The elements of a value that is a list, in lower case. -/
def elements : List Bytes :=
  (f.value.splitOn 44).map fun s => (((s.dropWhile isOws).rdropWhile isOws).map toLower)

end HeaderField

/-- What RFC 6455 asks of the opening handshake of a client. -/
structure Conforms (target : Bytes) (major minor : Fin 10) (fields : List HeaderField)
    (key : Bytes) : Prop where
  target_ne : target ≠ []
  target_chars : ∀ c ∈ target, 33 ≤ c ∧ c ≤ 126
  /-- At least HTTP/1.1. -/
  version : 1 < major ∨ major = 1 ∧ 1 ≤ minor
  host : ∃ f ∈ fields, f.IsNamed (lit "host")
  upgrade : ∃ f ∈ fields, f.IsNamed (lit "upgrade") ∧ lit "websocket" ∈ f.elements
  connection : ∃ f ∈ fields, f.IsNamed (lit "connection") ∧ lit "upgrade" ∈ f.elements
  webSocketVersion : ∃ f ∈ fields, f.IsNamed (lit "sec-websocket-version") ∧ f.value = lit "13"
  /-- The key is given once. -/
  keyField : (fields.filter (·.IsNamed (lit "sec-websocket-key"))).map (·.value) = [key]
  key_length : key.length = 24
  key_chars : ∀ c ∈ key, c ∈ Base64.alphabet ∨ c = Base64.padding

/-- The opening handshake of a client. -/
structure Handshake where
  target : Bytes
  major : Fin 10
  minor : Fin 10
  fields : List HeaderField
  /-- `Sec-WebSocket-Key`. -/
  key : Bytes
  conforms : Conforms target major minor fields key

namespace Handshake

variable (h : Handshake)

/-- The request line, without its line end. -/
def requestLine : Bytes :=
  lit "GET " ++ (h.target ++ (lit " HTTP/" ++
    [48 + h.major.val.toUInt8, 46, 48 + h.minor.val.toUInt8]))

/-- The request line and the header lines. -/
def lines : List Bytes := h.requestLine :: h.fields.map (·.line)

/-- The request. -/
def request : Bytes := joinLines h.lines ++ [13, 10]

end Handshake

/-- The GUID of RFC 6455. -/
def guid : Bytes := lit "258EAFA5-E914-47DA-95CA-C5AB0DC85B11"

/-- The value that RFC 6455 asks for in `Sec-WebSocket-Accept`. -/
def accept (key : Bytes) : Bytes :=
  Base64.encode (Fips180.octets (Fips180.sha1 (bits (key ++ guid))))

/-- The `101` response with a value for `Sec-WebSocket-Accept`. -/
def switchingProtocols (accept : Bytes) : Bytes :=
  lit "HTTP/1.1 101 Switching Protocols\r\n" ++ lit "Upgrade: websocket\r\n" ++
    lit "Connection: Upgrade\r\n" ++ lit "Sec-WebSocket-Accept: " ++ accept ++ lit "\r\n\r\n"

/-- The handshake is answered as RFC 6455 asks for. -/
structure Handshake.Answered (h : Handshake) : Prop where
  upgrade : isWebSocketUpgrade h.request = true
  response : generateHandshakeResponse h.request = .ok (switchingProtocols (accept h.key))

/-! ## What the code looks for -/

/-- The header line has `upgrade: websocket` in it: at its colon, with a single blank behind that, or
in its value. -/
def HeaderField.ShowsUpgrade (f : HeaderField) : Prop :=
  (lit "upgrade" <:+ f.name.map toLower ∧ f.before = [32] ∧
    lit "websocket" <+: f.value.map toLower) ∨
  lit "upgrade: websocket" <:+: f.value.map toLower

/-- What is behind the first `sec-websocket-key: ` of a line. -/
def lineKey (line : Bytes) : Option Bytes :=
  (find (line.map toLower) keyHeader).map fun n => line.drop (n + keyHeader.length)

/-- The first line with `sec-websocket-key: ` in it goes on with the key, or with a text that has the
same digest. -/
def Handshake.FindsKey (h : Handshake) : Prop :=
  ∃ text, (h.lines.filterMap lineKey).head? = some text ∧
    sha1 (trim text ++ guid) = sha1 (h.key ++ guid)

/-! ## Characters of a request -/

/-- A character that is no letter, and only that, becomes itself. -/
theorem toLower_eq_iff {c d : UInt8} (hd : d < 65) : toLower c = d ↔ c = d := by
  grind [toLower]

theorem mem_map_toLower_iff {s : Bytes} {d : UInt8} (hd : d < 65) :
    d ∈ s.map toLower ↔ d ∈ s := by
  simp [toLower_eq_iff hd]

theorem map_toLower_joinLines (ls : List Bytes) :
    (joinLines ls).map toLower = joinLines (ls.map (·.map toLower)) := by
  induction ls with
  | nil => rfl
  | cons l ls ih =>
    rw [List.map_cons, joinLines_cons, joinLines_cons, List.map_append, List.map_cons, List.map_cons,
      ih]
    rfl

/-- White space is neither a letter nor a line end. -/
theorem isOws_eq_true {c : UInt8} (h : isOws c = true) :
    toLower c = c ∧ c < 65 ∧ c ≠ 13 ∧ c ≠ 58 := by
  grind [isOws, toLower]

/-- White space is the same in lower case. -/
theorem map_toLower_ows {s : Bytes} (h : ∀ c ∈ s, isOws c = true) : s.map toLower = s := by
  have hid : ∀ c ∈ s, toLower c = id c := fun c hc => (isOws_eq_true (h c hc)).1
  rw [List.map_congr_left hid, List.map_id]

namespace HeaderField

variable (f : HeaderField)

theorem name_chars : ∀ c ∈ f.name, isTokenChar c = true := by
  have h := f.isField
  simp_all [WebSocketHandler.isField]

theorem ows_before : ∀ c ∈ f.before, isOws c = true := by
  have h := f.isField
  simp_all [WebSocketHandler.isField]

theorem ows_after : ∀ c ∈ f.after, isOws c = true := by
  have h := f.isField
  simp_all [WebSocketHandler.isField]

theorem value_chars : ∀ c ∈ f.value, isFieldChar c = true ∨ isOws c = true := by
  have h := f.isField
  simp_all [WebSocketHandler.isField]

/-- A letter is not in the white space. -/
theorem not_mem_ows {s : Bytes} (hs : ∀ c ∈ s, isOws c = true) {c : UInt8} (hc : 65 ≤ c) :
    c ∉ s := by
  intro hmem
  exact absurd (isOws_eq_true (hs c hmem)).2.1 (UInt8.not_lt.mpr hc)

theorem colon_not_mem_name : 58 ∉ f.name.map toLower := by
  rw [mem_map_toLower_iff (by decide)]
  exact fun h => absurd (f.name_chars 58 h) (by decide)

theorem map_toLower_line : f.line.map toLower =
    f.name.map toLower ++ 58 :: (f.before ++ (f.value.map toLower ++ f.after)) := by
  rw [line, List.map_append, List.map_cons, List.map_append, List.map_append,
    map_toLower_ows f.ows_before, map_toLower_ows f.ows_after]
  rfl

/-- A header line has no line end in it. -/
theorem cr_not_mem_line : 13 ∉ f.line := by
  simp only [line, List.mem_append, List.mem_cons, not_or]
  refine ⟨fun h => ?_, by decide, fun h => ?_, fun h => ?_, fun h => ?_⟩
  · exact absurd (f.name_chars 13 h) (by decide)
  · exact absurd (f.ows_before 13 h) (by decide)
  · exact absurd (f.value_chars 13 h) (by decide)
  · exact absurd (f.ows_after 13 h) (by decide)

/-- The value does not start with white space. -/
theorem head?_value {c : UInt8} (h : (f.value.map toLower).head? = some c) : c ≠ 32 := by
  rw [List.head?_map, Option.map_eq_some_iff] at h
  obtain ⟨d, hd, rfl⟩ := h
  have hchar : isFieldChar d = true := by
    have hfield := f.isField
    simp_all [WebSocketHandler.isField]
  intro heq
  rw [toLower_eq_iff (by decide)] at heq
  rw [heq] at hchar
  exact absurd hchar (by decide)

/-- One blank behind the colon. -/
theorem blank_prefix_iff {c : UInt8} {t : Bytes} (hc : 65 ≤ c) (ht : ∀ d ∈ t, 65 ≤ d) :
    32 :: c :: t <+: f.before ++ (f.value.map toLower ++ f.after) ↔
      f.before = [32] ∧ c :: t <+: f.value.map toLower := by
  -- White space behind the value has no letters.
  have hafter : ∀ d ∈ c :: t, d ∉ f.after := by
    intro d hd
    rcases List.mem_cons.mp hd with rfl | hd
    · exact not_mem_ows f.ows_after hc
    · exact not_mem_ows f.ows_after (ht d hd)
  rcases hbefore : f.before with _ | ⟨b, before⟩
  · -- without white space the value would start with the blank
    simp only [List.nil_append, reduceCtorEq, false_and, iff_false]
    intro hblank
    cases hvalue : f.value.map toLower with
    | nil =>
      rw [hvalue, List.nil_append] at hblank
      exact hafter c (by simp) (hblank.subset (by simp))
    | cons d value =>
      rw [hvalue, List.cons_append, List.cons_prefix_cons] at hblank
      exact f.head?_value (by rw [hvalue]; rfl) hblank.1.symm
  · rw [List.cons_append, List.cons_prefix_cons, List.cons.injEq, and_assoc, eq_comm]
    refine and_congr_right fun _ => ?_
    cases before with
    | nil => rw [List.nil_append, prefix_append_right_iff hafter, eq_self, true_and]
    | cons d before =>
      have hd := f.ows_before d (by simp [hbefore])
      have hne : c ≠ d := by
        rintro rfl
        exact absurd (isOws_eq_true hd).2.1 (UInt8.not_lt.mpr hc)
      simp [List.cons_prefix_cons, hne]

/-- The header line has `upgrade: websocket` in it. -/
theorem infix_line_iff : lit "upgrade: websocket" <:+: f.line.map toLower ↔ f.ShowsUpgrade := by
  have hsplit : lit "upgrade: websocket" = lit "upgrade" ++ 58 :: 32 :: lit "websocket" := by decide
  have hfirst : lit "upgrade: websocket" = 117 :: lit "pgrade: websocket" := by decide
  have hlast : lit "upgrade: websocket" = lit "upgrade: websocke" ++ [116] := by decide
  have hletters : ∀ d ∈ lit "ebsocket", 65 ≤ d := by simp [lit]
  have hword : lit "websocket" = 119 :: lit "ebsocket" := by decide
  have hvalue : lit "upgrade: websocket" <:+: f.before ++ (f.value.map toLower ++ f.after) ↔
      lit "upgrade: websocket" <:+: f.value.map toLower := by
    rw [hfirst, infix_append_left_iff (not_mem_ows f.ows_before (by decide)), ← hfirst, hlast,
      infix_append_right_iff (not_mem_ows f.ows_after (by decide))]
  rw [map_toLower_line, ShowsUpgrade, ← hvalue]
  conv_lhs => rw [hsplit]
  rw [append_cons_infix_iff (by decide) f.colon_not_mem_name, ← hsplit, hword,
    f.blank_prefix_iff (by decide) hletters]

end HeaderField

/-! ## The request line -/

namespace Handshake

variable (h : Handshake)

/-- The version in the request line. -/
theorem digits_of_version (n : Fin 10) :
    toLower (48 + n.val.toUInt8) = 48 + n.val.toUInt8 ∧ 48 ≤ 48 + n.val.toUInt8 ∧
      48 + n.val.toUInt8 ≤ 57 := by
  revert n
  decide

/-- The request line in lower case, cut at its blanks. -/
theorem map_toLower_requestLine : h.requestLine.map toLower =
    lit "get" ++ 32 :: (h.target.map toLower ++ 32 :: (lit "http/" ++
      [48 + h.major.val.toUInt8, 46, 48 + h.minor.val.toUInt8])) := by
  have hget : (lit "GET ").map toLower = lit "get" ++ [32] := by decide
  have hhttp : (lit " HTTP/").map toLower = 32 :: lit "http/" := by decide
  have hdot : toLower 46 = 46 := by decide
  simp only [requestLine, List.map_append, List.map_cons, List.map_nil, hget, hhttp, hdot,
    (digits_of_version _).1, List.append_assoc, List.cons_append, List.nil_append]

theorem blank_not_mem_target : 32 ∉ h.target.map toLower := by
  rw [mem_map_toLower_iff (by decide)]
  exact fun hmem => absurd (h.conforms.target_chars 32 hmem) (by decide)

/-- No blank is in the version. -/
theorem blank_not_mem_version :
    32 ∉ lit "http/" ++ [48 + h.major.val.toUInt8, 46, 48 + h.minor.val.toUInt8] := by
  have hdigit (n : Fin 10) : 32 ≠ 48 + n.val.toUInt8 := by
    intro heq
    have hle := (digits_of_version n).2.1
    rw [← heq] at hle
    exact absurd hle (by decide)
  simp [lit, hdigit]

theorem cr_not_mem_requestLine : 13 ∉ h.requestLine := by
  have hdigit (n : Fin 10) : 13 ≠ 48 + n.val.toUInt8 := by
    intro heq
    have hle := (digits_of_version n).2.1
    rw [← heq] at hle
    exact absurd hle (by decide)
  have htarget : 13 ∉ h.target := fun hmem => absurd (h.conforms.target_chars 13 hmem) (by decide)
  simp [requestLine, lit, htarget, hdigit]

/-- The request line does not show the upgrade: no blank of it is in front of a `w`. -/
theorem not_infix_requestLine :
    ¬ lit "upgrade: websocket" <:+: h.requestLine.map toLower := by
  have hsplit : lit "upgrade: websocket" = lit "upgrade:" ++ 32 :: lit "websocket" := by decide
  have hget : ¬ lit "upgrade:" <:+ lit "get" := by decide
  have hhttp (s : Bytes) : ¬ lit "websocket" <+: lit "http/" ++ s := by
    intro hp
    exact absurd (List.cons_prefix_cons.mp hp).1 (by decide)
  rw [h.map_toLower_requestLine, hsplit, append_cons_infix_iff (by decide) (by decide),
    append_cons_infix_iff (by decide) h.blank_not_mem_target]
  rintro (⟨hp, -⟩ | ⟨-, hp⟩ | hp)
  · exact hget hp
  · exact hhttp _ hp
  · exact h.blank_not_mem_version (hp.subset (by simp))

/-- The upgrade is seen exactly when a header line shows it. -/
theorem isWebSocketUpgrade_iff :
    isWebSocketUpgrade h.request = true ↔ ∃ f ∈ h.fields, f.ShowsUpgrade := by
  have hend : ¬ lit "upgrade: websocket" <:+: [13, 10] := by decide
  have hlower : h.request.map toLower =
      joinLines (h.lines.map (·.map toLower)) ++ [13, 10] := by
    rw [request, List.map_append, map_toLower_joinLines]
    rfl
  rw [isWebSocketUpgrade, contains_iff, hlower,
    infix_joinLines_iff (by decide) (by decide) (by decide), or_iff_left hend, lines, List.map_cons,
    List.map_map]
  simp only [List.mem_cons, exists_eq_or_imp, h.not_infix_requestLine, false_or, List.mem_map,
    Function.comp_apply, exists_exists_and_eq_and, HeaderField.infix_line_iff]

end Handshake

/-! ## The key -/

/-- The text in front of the first line end. -/
def firstLine (s : Bytes) : Bytes :=
  match find s (lit "\r\n") with
  | none => s
  | some n => s.take n

/-- The text that is taken for the key, not yet trimmed. -/
def requestKey (request : Bytes) : Option Bytes :=
  (find (request.map toLower) keyHeader).map fun n =>
    firstLine (request.drop (n + keyHeader.length))

/-- The response for a key. -/
theorem generateHandshakeResponse_eq (request : Bytes) :
    generateHandshakeResponse request =
      .ok ((requestKey request).elim [] fun key => switchingProtocols (acceptKey (trim key))) := by
  rw [generateHandshakeResponse, requestKey]
  cases hfind : find (request.map toLower) keyHeader with
  | none => rfl
  | some n =>
    have hle := add_length_le_of_find hfind
    rw [List.length_map] at hle
    have hkey : (request.drop (n + keyHeader.length)).take
        ((findFrom request (lit "\r\n") (n + keyHeader.length)).getD request.length -
          (n + keyHeader.length)) = firstLine (request.drop (n + keyHeader.length)) := by
      rw [findFrom, if_pos hle, firstLine]
      cases find (request.drop (n + keyHeader.length)) (lit "\r\n") with
      | none =>
        show (request.drop _).take (request.length - _) = _
        rw [← List.length_drop, List.take_length]
      | some m =>
        show (request.drop _).take (m + (n + keyHeader.length) - (n + keyHeader.length)) = _
        rw [Nat.add_sub_cancel]
    show (substr request (n + keyHeader.length) _).bind _ = _
    rw [substr_eq_ok _ hle, hkey]
    rfl

/-- The key is taken from the first line, or from behind it. -/
theorem requestKey_line {l : Bytes} (hl : 13 ∉ l) (rest : Bytes) :
    requestKey (l ++ 13 :: 10 :: rest) = (lineKey l).or (requestKey rest) := by
  have hlower : (l ++ 13 :: 10 :: rest).map toLower =
      l.map toLower ++ 13 :: 10 :: rest.map toLower := by
    rw [List.map_append]
    rfl
  rw [requestKey, lineKey, requestKey, hlower, find_line (by decide) (by decide) (by decide)]
  -- The header is searched line by line: in this one, or else behind its end.
  cases hfind : find (l.map toLower) keyHeader with
  | some n =>
    have hle := add_length_le_of_find hfind
    rw [List.length_map] at hle
    have hcr : 13 ∉ l.drop (n + keyHeader.length) := fun h => hl (List.mem_of_mem_drop h)
    have hend : find (l.drop (n + keyHeader.length) ++ 13 :: 10 :: rest) (lit "\r\n") =
        some (l.drop (n + keyHeader.length)).length := find_lineEnd hcr rest
    simp only [Option.some_or, Option.map_some, List.drop_append_of_le_length hle, firstLine, hend,
      List.take_left]
  | none =>
    have hdrop (m : ℕ) : (l ++ 13 :: 10 :: rest).drop (m + (l.length + 2) + keyHeader.length) =
        rest.drop (m + keyHeader.length) := by
      have hsum : m + (l.length + 2) + keyHeader.length =
          (l ++ [13, 10]).length + (m + keyHeader.length) := by
        rw [List.length_append]
        show _ = l.length + 2 + _
        omega
      have hsplit : l ++ 13 :: 10 :: rest = l ++ [13, 10] ++ rest := by simp
      rw [hsum, hsplit, ← List.drop_drop, List.drop_left]
    simp only [Option.none_or, Option.map_none, Option.map_map, Function.comp_def, List.length_map,
      hdrop]

/-- The key is taken from the first line that has the text in front of it. -/
theorem requestKey_joinLines {ls : List Bytes} (hls : ∀ l ∈ ls, 13 ∉ l) :
    requestKey (joinLines ls ++ [13, 10]) = (ls.filterMap lineKey).head? := by
  induction ls with
  | nil => decide
  | cons l ls ih =>
    rw [joinLines_cons, List.append_assoc, List.cons_append, List.cons_append,
      requestKey_line (hls l (by simp)), ih fun l hl => hls l (by simp [hl])]
    cases hkey : lineKey l with
    | none => rw [List.filterMap_cons_none hkey, Option.none_or]
    | some key => rw [List.filterMap_cons_some hkey, Option.some_or, List.head?_cons]

namespace Handshake

variable (h : Handshake)

theorem cr_not_mem_lines : ∀ l ∈ h.lines, 13 ∉ l := by
  intro l hl
  rcases List.mem_cons.mp hl with rfl | hl
  · exact h.cr_not_mem_requestLine
  · obtain ⟨f, -, rfl⟩ := List.mem_map.mp hl
    exact f.cr_not_mem_line

/-- The value that the code computes for the key is the one of the standards. -/
theorem acceptKey_key : acceptKey h.key = accept h.key := by
  have hlength : (h.key ++ guid).length < 2 ^ 61 := by
    rw [List.length_append, h.conforms.key_length]
    decide
  show base64Encode (sha1 (h.key ++ guid)) = _
  rw [base64Encode_eq, accept, ← bits_sha1 hlength, octets_bits]

/-- Two texts are answered alike exactly when they have the same digest. -/
theorem acceptKey_eq_iff (text key : Bytes) :
    acceptKey text = acceptKey key ↔ sha1 (text ++ guid) = sha1 (key ++ guid) := by
  show base64Encode (sha1 (text ++ guid)) = base64Encode (sha1 (key ++ guid)) ↔ _
  rw [base64Encode_eq, base64Encode_eq]
  exact Base64.encode_injective.eq_iff

theorem switchingProtocols_inj {a b : Bytes} :
    switchingProtocols a = switchingProtocols b ↔ a = b := by
  refine ⟨fun heq => ?_, fun heq => by rw [heq]⟩
  simpa [switchingProtocols] using heq

/-- The response is the wanted one exactly when the key is found. -/
theorem generateHandshakeResponse_iff :
    generateHandshakeResponse h.request = .ok (switchingProtocols (accept h.key)) ↔ h.FindsKey := by
  rw [generateHandshakeResponse_eq, request, requestKey_joinLines h.cr_not_mem_lines,
    Except.ok.injEq, FindsKey]
  cases (h.lines.filterMap lineKey).head? with
  | none =>
    refine iff_of_false (fun heq => ?_) (by simp)
    exact absurd (congrArg List.length heq) (by simp [switchingProtocols, lit])
  | some text =>
    show switchingProtocols (acceptKey (trim text)) = _ ↔ _
    rw [switchingProtocols_inj, ← h.acceptKey_key, acceptKey_eq_iff]
    simp

/-- The handshake is answered as RFC 6455 asks for exactly when some header line shows the upgrade,
and the first line with the key header in it has the key behind it. -/
theorem answered_iff :
    h.Answered ↔ (∃ f ∈ h.fields, f.ShowsUpgrade) ∧ h.FindsKey := by
  rw [← h.isWebSocketUpgrade_iff, ← h.generateHandshakeResponse_iff]
  exact ⟨fun hall => ⟨hall.upgrade, hall.response⟩, fun hall => ⟨hall.1, hall.2⟩⟩

end Handshake

/-- The example of RFC 6455. -/
example : acceptKey (lit "dGhlIHNhbXBsZSBub25jZQ==") = lit "s3pPLMBiTxaQ9kYGzzhZRbK+xOo=" := by
  decide +kernel

/-! ## A header without a blank -/

/-- The parts of the header fields of a client that writes no blank behind `Upgrade:`. -/
def tightParts : List (Bytes × Bytes × Bytes) :=
  [(lit "Host", [32], lit "127.0.0.1:2409"), (lit "Upgrade", [], lit "websocket"),
    (lit "Connection", [32], lit "Upgrade"),
    (lit "Sec-WebSocket-Key", [32], lit "dGhlIHNhbXBsZSBub25jZQ=="),
    (lit "Sec-WebSocket-Version", [32], lit "13")]

theorem isField_tightParts : ∀ p ∈ tightParts, isField p.1 p.2.1 p.2.2 [] = true := by
  decide

/-- Its header fields. -/
def tightFields : List HeaderField :=
  tightParts.pmap (fun p hp => ⟨p.1, p.2.1, p.2.2, [], hp⟩) isField_tightParts

theorem conforms_tight :
    Conforms (lit "/ws") 1 1 tightFields (lit "dGhlIHNhbXBsZSBub25jZQ==") where
  target_ne := by decide
  target_chars := by simp [lit]
  version := by decide
  host := by decide
  upgrade := by decide +kernel
  connection := by decide +kernel
  webSocketVersion := by decide
  keyField := by decide +kernel
  key_length := by decide
  key_chars := by decide +kernel

/-- Its opening handshake. -/
def tightHandshake : Handshake where
  target := lit "/ws"
  major := 1
  minor := 1
  fields := tightFields
  key := lit "dGhlIHNhbXBsZSBub25jZQ=="
  conforms := conforms_tight

/-- It is not recognised. -/
theorem not_answered_tightHandshake : ¬ ∀ h : Handshake, h.Answered := by
  intro hall
  have hupgrade := (hall tightHandshake).upgrade
  revert hupgrade
  decide +kernel

end WebSocketHandler
