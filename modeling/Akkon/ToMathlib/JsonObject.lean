import Akkon.ToMathlib.Json
import Mathlib.Data.List.TakeWhile

/-!
# JSON objects written member by member

Texts of objects whose members are separated by a comma and a blank, as many programs write them.

* `Member.Reads`: a member whose value is read back in front of a comma or a brace;
* `parse_objectText`: an object of such members is read back;
* `reads_string`, `reads_number`: members whose values are strings and natural numbers;
* `stringTail_unicode`: an escaped code unit;
* `Value.field`, `Value.natural`: the value of a member, and the natural number of a value.
-/

namespace Json

/-- A member: its key, the text behind the colon, and the value of that text. -/
structure Member where
  key : List UInt8
  text : List UInt8
  value : Value

/-- A member as it is read. -/
def Member.entry (m : Member) : List ℕ × Value := (m.key.map UInt8.toNat, m.value)

/-- The key is plain, and the value is read up to the comma or brace behind it. -/
structure Member.Reads (readValue : Reader Value) (m : Member) : Prop where
  key : m.key.all isPlain = true
  text : ∀ c u, c = 44 ∨ c = 125 → readValue (skipWs (m.text ++ c :: u)) = some (m.value, c :: u)

/-- One member or more, the closing brace, and what is behind it. -/
def membersText : Member → List Member → List UInt8 → List UInt8
  | m, [], u => 34 :: (m.key ++ 34 :: 58 :: (m.text ++ 125 :: u))
  | m, m' :: ms, u => 34 :: (m.key ++ 34 :: 58 :: (m.text ++ 44 :: 32 :: membersText m' ms u))

/-- An object with at least one member. -/
def objectText (m : Member) (ms : List Member) : List UInt8 := 123 :: membersText m ms []

variable {m : Member} {ms : List Member} {u : List UInt8} {readValue : Reader Value} {fuel : ℕ}

theorem membersText_eq_cons (m : Member) (ms : List Member) (u : List UInt8) :
    ∃ t, membersText m ms u = 34 :: t := by
  cases ms with
  | nil => exact ⟨_, rfl⟩
  | cons m' ms => exact ⟨_, rfl⟩

theorem length_le_membersText (m : Member) (ms : List Member) (u : List UInt8) :
    ms.length + 1 ≤ (membersText m ms u).length := by
  induction ms generalizing m with
  | nil => simp [membersText]
  | cons m' ms ih =>
    have := ih m'
    simp only [membersText, List.length_cons, List.length_append]
    omega

/-- The length of an object whose members have a bounded one. -/
theorem length_objectText_le {k : ℕ} (h : ∀ m' ∈ m :: ms, m'.key.length + m'.text.length ≤ k) :
    (objectText m ms).length ≤ (ms.length + 1) * (k + 5) + 1 := by
  have hmembers : (membersText m ms []).length ≤ (ms.length + 1) * (k + 5) := by
    induction ms generalizing m with
    | nil =>
      have hm := h m (by simp)
      simp only [membersText, List.length_cons, List.length_append, List.length_nil]
      omega
    | cons m' ms ih =>
      have hm := h m (by simp)
      have hrest := ih fun m'' hm'' => h m'' (List.mem_cons_of_mem m hm'')
      simp only [membersText, List.length_cons, List.length_append]
      rw [Nat.add_mul (ms.length + 1) 1 (k + 5)]
      omega
  rw [objectText, List.length_cons]
  omega

/-- The members are read one after the other. -/
theorem members_membersText (h : ∀ m' ∈ m :: ms, m'.Reads readValue)
    (hfuel : ms.length + 1 ≤ fuel) :
    members readValue fuel (membersText m ms u) = some ((m :: ms).map Member.entry, u) := by
  obtain ⟨fuel, rfl⟩ := Nat.exists_eq_add_of_lt hfuel
  rw [show ms.length + fuel + 1 = (ms.length + fuel) + 1 by omega]
  induction ms generalizing m with
  | nil =>
    have hm := h m (by simp)
    rw [membersText, members_last hm.key (hm.text 125 u (Or.inr rfl))]
    rfl
  | cons m' ms ih =>
    have hm := h m (by simp)
    obtain ⟨t, ht⟩ := membersText_eq_cons m' ms u
    have hrest := ih (m := m') (fun m'' hm'' => h m'' (List.mem_cons_of_mem m hm'')) (by simp)
    rw [membersText, members_cons hm.key (hm.text 44 _ (Or.inl rfl)), skipWs_blank, ht,
      skipWs_cons_of_not_isWs (by decide), ← ht,
      show (m' :: ms).length + fuel = ms.length + fuel + 1 by simp; omega, hrest]
    rfl

/-- An object of members that are read back, whatever the depth, is read back. -/
theorem parse_objectText (h : ∀ m' ∈ m :: ms, ∀ depth, m'.Reads (value (depth + 1))) :
    parse (objectText m ms) = some (.object ((m :: ms).map Member.entry)) := by
  refine parse_eq (skipWs_cons_of_not_isWs (by decide) _) ?_
  obtain ⟨t, ht⟩ := membersText_eq_cons m ms []
  have hlength := length_le_membersText m ms []
  rw [objectText, ht, value_object (by decide) (by decide), ← ht, List.length_cons,
    members_membersText (fun m' hm' => h m' hm' _) (by omega)]
  rfl

/-! ## Values -/

/-- A code unit in four hexadecimal digits. -/
theorem stringTail_unicode {a b c d : UInt8} {n : ℕ} (h : codeUnit a b c d = some n)
    (t : List UInt8) :
    stringTail (92 :: 117 :: a :: b :: c :: d :: t) =
      (stringTail t).map fun p => (n :: p.1, p.2) := by
  rw [stringTail.eq_def]
  simp only [if_neg (show ¬ (92 : UInt8) = 34 by decide), if_true, h]
  cases stringTail t <;> rfl

/-- A string, with white space in front. -/
theorem reads_string {key s : List UInt8} {units : List ℕ} (hkey : key.all isPlain = true)
    (hs : ∀ t, stringTail (s ++ 34 :: t) = some (units, t)) {gap : List UInt8}
    (hgap : gap.all isWs = true) (depth : ℕ) :
    (Member.mk key (gap ++ 34 :: (s ++ [34])) (.string units)).Reads (value (depth + 1)) := by
  refine ⟨hkey, fun c u _ => ?_⟩
  have hskip : skipWs (gap ++ 34 :: (s ++ [34]) ++ c :: u) = 34 :: (s ++ 34 :: c :: u) := by
    rw [List.append_assoc, skipWs, List.dropWhile_append_of_pos (List.all_eq_true.mp hgap)]
    simp [isWs]
  rw [hskip, value_quote, hs]
  rfl

theorem ne_of_isDigit {c d : UInt8} (hc : isDigit c = true) (hd : isDigit d = false) : c ≠ d := by
  rintro rfl
  rw [hc] at hd
  cases hd

/-- An integer is a number. -/
theorem isNumber_of_isInt {digits : List UInt8} (hdigits : digits.all isDigit = true)
    (hint : isInt digits = true) : isNumber digits = true := by
  have hmem (c : UInt8) (hc : c ∈ digits) : isDigit c = true := List.all_eq_true.mp hdigits c hc
  have hsign : digits.head? ≠ some 45 := fun h =>
    ne_of_isDigit (hmem 45 (List.mem_of_mem_head? h)) (d := 45) (by decide) rfl
  have hexponent : ∀ c ∈ digits, (c != 69 && c != 101) = true := fun c hc => by
    simp [ne_of_isDigit (hmem c hc) (d := 69) (by decide),
      ne_of_isDigit (hmem c hc) (d := 101) (by decide)]
  have hpoint : ∀ c ∈ digits, (c != 46) = true := fun c hc => by
    simp [ne_of_isDigit (hmem c hc) (d := 46) (by decide)]
  rw [isNumber, if_neg hsign, isUnsigned, List.takeWhile_eq_self_iff.mpr hexponent,
    List.dropWhile_eq_nil_iff.mpr hexponent, List.takeWhile_eq_self_iff.mpr hpoint,
    List.dropWhile_eq_nil_iff.mpr hpoint, hint]
  rfl

/-- Digits without a leading zero. -/
theorem reads_number {key digits : List UInt8} (hkey : key.all isPlain = true)
    (hdigits : digits.all isDigit = true) (hint : isInt digits = true) (depth : ℕ) :
    (Member.mk key digits (.number digits)).Reads (value (depth + 1)) := by
  refine ⟨hkey, fun c u hc => ?_⟩
  have hnumber := isNumber_of_isInt hdigits hint
  have hend : isNumberChar c = false := by rcases hc with rfl | rfl <;> decide
  have hchars : ∀ d ∈ digits, isNumberChar d = true := fun d hd => by
    simp [isNumberChar, List.all_eq_true.mp hdigits d hd]
  have htake : (digits ++ c :: u).takeWhile isNumberChar = digits := by
    rw [List.takeWhile_append_of_pos hchars]
    simp [hend]
  have hdrop : (digits ++ c :: u).dropWhile isNumberChar = c :: u := by
    rw [List.dropWhile_append_of_pos hchars]
    simp [hend]
  obtain _ | ⟨d, rest⟩ := digits
  · cases hint
  · have hd : isDigit d = true := List.all_eq_true.mp hdigits d (by simp)
    have hws : isWs d = false := by
      have := ne_of_isDigit hd (d := 32) (by decide)
      have := ne_of_isDigit hd (d := 9) (by decide)
      have := ne_of_isDigit hd (d := 10) (by decide)
      have := ne_of_isDigit hd (d := 13) (by decide)
      simp [isWs, *]
    have hne (n : UInt8) (hn : isDigit n = false) : d ≠ n := ne_of_isDigit hd hn
    rw [List.cons_append] at htake hdrop ⊢
    rw [skipWs_cons_of_not_isWs hws, value.eq_def]
    -- none of the characters that other values begin with is a digit
    simp only [if_neg (hne 34 (by decide)), if_neg (hne 123 (by decide)),
      if_neg (hne 91 (by decide)), if_neg (hne 110 (by decide)), if_neg (hne 116 (by decide)),
      if_neg (hne 102 (by decide)), htake, hdrop, hnumber, if_true]

/-! ## Access -/

/-- The value of the last member with the key, where the value is an object. -/
def Value.field (key : List UInt8) : Value → Option Value
  | .object members => members.reverse.lookup (key.map UInt8.toNat)
  | _ => none

/-- The number that digits without a leading zero stand for. -/
def Value.natural : Value → Option ℕ
  | .number text =>
    if text.all isDigit ∧ isInt text then
      some (text.foldl (fun n c => n * 10 + (c.toNat - 48)) 0)
    else none
  | _ => none

end Json
