import Akkon.Cpp.String

/-!
# Texts made of lines

Searches in a text whose lines end in `\r\n`. A searched text without these characters is found in
one line or not at all.

* `find_line`, `infix_joinLines_iff`: what does not reach over a line end;
* `append_cons_infix_iff`: an occurrence at the first place of a character, or behind it;
* `infix_append_left_iff`, `infix_append_right_iff`, `prefix_append_right_iff`: parts of a text that
  an occurrence does not reach into.
-/

namespace Cpp

/-- Lines with their line ends. -/
def joinLines (ls : List Bytes) : Bytes := ls.flatMap (· ++ [13, 10])

@[simp]
theorem joinLines_nil : joinLines [] = [] := rfl

theorem joinLines_cons (l : Bytes) (ls : List Bytes) :
    joinLines (l :: ls) = l ++ 13 :: 10 :: joinLines ls := by
  simp [joinLines]

/-- A text without line ends, found in a line or behind it. -/
theorem find_line {t : Bytes} (hne : t ≠ []) (hcr : 13 ∉ t) (hlf : 10 ∉ t) (l rest : Bytes) :
    find (l ++ 13 :: 10 :: rest) t =
      (find l t).or ((find rest t).map (· + (l.length + 2))) := by
  have hnot : ¬ t <+: 10 :: rest := fun h =>
    hne (List.prefix_nil.mp ((prefix_append_cons_iff hlf [] rest).mp h))
  have hskip : find (10 :: rest) t = (find rest t).map (· + 1) := by
    rw [find, if_neg (by simpa using hnot)]
  rw [find_append_cons_of_not_mem hcr hne, hskip, Option.map_map]
  congr 2
  ext n
  simp only [Function.comp_apply]
  omega

/-- The end of a line is found behind the line. -/
theorem find_lineEnd {l : Bytes} (h : 13 ∉ l) (rest : Bytes) :
    find (l ++ 13 :: 10 :: rest) [13, 10] = some l.length := by
  induction l with
  | nil => simp [find]
  | cons c l ih =>
    have hne : c ≠ 13 := fun heq => h (by simp [heq])
    rw [List.cons_append, find, if_neg (by simp [Ne.symm hne]),
      ih fun hmem => h (List.mem_cons_of_mem c hmem)]
    rfl

/-- A text without line ends occurs in one of the lines. -/
theorem infix_joinLines_iff {t : Bytes} (hne : t ≠ []) (hcr : 13 ∉ t) (hlf : 10 ∉ t)
    {ls : List Bytes} {rest : Bytes} :
    t <:+: joinLines ls ++ rest ↔ (∃ l ∈ ls, t <:+: l) ∨ t <:+: rest := by
  induction ls with
  | nil => simp
  | cons l ls ih =>
    have hskip : t <:+: 10 :: (joinLines ls ++ rest) ↔ t <:+: joinLines ls ++ rest := by
      rw [List.infix_cons_iff]
      refine or_iff_right fun h => ?_
      exact hne (List.prefix_nil.mp ((prefix_append_cons_iff hlf [] _).mp h))
    rw [joinLines_cons, List.append_assoc, List.cons_append, infix_append_cons_iff hcr hne,
      List.cons_append, hskip, ih]
    simp [or_assoc]

/-! ## Parts of a line -/

/-- Two texts that agree up to the first place of a character. -/
theorem append_cons_prefix_iff {u a : Bytes} {c : UInt8} (hu : c ∉ u) (ha : c ∉ a) (v b : Bytes) :
    u ++ c :: v <+: a ++ c :: b ↔ u = a ∧ v <+: b := by
  induction u generalizing a with
  | nil =>
    cases a with
    | nil => simp
    | cons d a =>
      have hne : c ≠ d := fun h => ha (by simp [h])
      simp [List.cons_prefix_cons, hne]
  | cons e u ih =>
    cases a with
    | nil =>
      have hne : e ≠ c := fun h => hu (by simp [h])
      simp [List.cons_prefix_cons, hne]
    | cons d a =>
      rw [List.cons_append, List.cons_append, List.cons_prefix_cons,
        ih (fun h => hu (by simp [h])) fun h => ha (by simp [h]), List.cons.injEq, and_assoc]

/-- A text with a character in it occurs at the first place of the character or behind it. -/
theorem append_cons_infix_iff {u a : Bytes} {c : UInt8} (hu : c ∉ u) (ha : c ∉ a) (v b : Bytes) :
    u ++ c :: v <:+: a ++ c :: b ↔ (u <:+ a ∧ v <+: b) ∨ u ++ c :: v <:+: b := by
  induction a with
  | nil =>
    have hhead := append_cons_prefix_iff hu (List.not_mem_nil (a := c)) v b
    rw [List.nil_append] at hhead ⊢
    rw [List.infix_cons_iff, hhead, List.suffix_nil]
  | cons d a ih =>
    have hhead := append_cons_prefix_iff hu ha v b
    rw [List.cons_append] at hhead ⊢
    rw [List.infix_cons_iff, hhead, ih fun h => ha (by simp [h]), List.suffix_cons_iff,
      or_and_right, or_assoc]

/-- An occurrence does not begin in a text without its first character. -/
theorem infix_append_left_iff {c : UInt8} {t a : Bytes} (hc : c ∉ a) (b : Bytes) :
    c :: t <:+: a ++ b ↔ c :: t <:+: b :=
  ⟨infix_of_head_not_mem hc, fun h => h.trans (List.suffix_append a b).isInfix⟩

/-- An occurrence does not end in a text without its last character. -/
theorem infix_append_right_iff {c : UInt8} {t b : Bytes} (hc : c ∉ b) (a : Bytes) :
    t ++ [c] <:+: a ++ b ↔ t ++ [c] <:+: a := by
  rw [← List.reverse_infix, ← @List.reverse_infix _ (t ++ [c]), List.reverse_append,
    List.reverse_append, List.reverse_singleton, List.singleton_append]
  exact infix_append_left_iff (by simpa using hc) _

/-- A text does not start across the front of a text that has none of its characters. -/
theorem prefix_append_right_iff {t b : Bytes} (hb : ∀ c ∈ t, c ∉ b) (a : Bytes) :
    t <+: a ++ b ↔ t <+: a := by
  constructor
  · intro h
    rcases List.prefix_or_prefix_of_prefix h (List.prefix_append a b) with hp | ⟨q, rfl⟩
    · exact hp
    · -- what is left of the text lies in `b`
      have hq := (List.prefix_append_right_inj a).mp h
      cases q with
      | nil => simp
      | cons c q => exact absurd (hq.subset (by simp)) (hb c (by simp))
  · exact fun h => h.trans (List.prefix_append a b)

end Cpp
