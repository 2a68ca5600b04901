import Mathlib.Data.List.Basic
import Mathlib.Data.List.Induction

/-!
# Dealing a list out in turn

The elements of a list are dealt to `n` places one after another, the first one again behind the
last.

* `getElem?_deal`: element `m` of place `j` is element `m * n + j` of the list;
* `length_deal_le`: no place gets more than one element more than another.
-/

namespace RoundRobin

variable {α : Type*} (n : ℕ)

/-- What place `j` gets: the elements whose position is `j` modulo `n`. -/
def deal (j : ℕ) (xs : List α) : List α := (xs.zipIdx.filter fun p => p.2 % n == j).map Prod.fst

variable {n}

@[simp]
theorem deal_nil (j : ℕ) : deal n j ([] : List α) = [] := rfl

theorem mem_of_mem_deal {j : ℕ} {xs : List α} {x : α} (h : x ∈ deal n j xs) : x ∈ xs := by
  obtain ⟨p, hp, rfl⟩ := List.mem_map.mp h
  exact List.fst_mem_of_mem_zipIdx (List.mem_filter.mp hp).1

/-- The next element goes to one place. -/
theorem deal_concat (j : ℕ) (xs : List α) (x : α) :
    deal n j (xs ++ [x]) = deal n j xs ++ if xs.length % n = j then [x] else [] := by
  rw [deal, deal, List.zipIdx_append, List.filter_append, List.map_append]
  congr 1
  by_cases h : xs.length % n = j <;> simp [h]

/-- It is the turn of a place when the others behind it have got nothing in this round. -/
theorem mod_eq_iff_of_le {j k len : ℕ} (hj : j < n) (hle : len ≤ n * k + j)
    (hlt : n * k + j < len + n) : len % n = j ↔ len = n * k + j := by
  constructor
  · intro h
    have hdiv : n * (len / n) + j = len := h ▸ Nat.div_add_mod len n
    -- both are whole rounds and `j`, and less than a round lies between them
    have hround : len / n = k := by
      have hn : 0 < n := by omega
      have hle' : n * (len / n) ≤ n * k := by omega
      have hlt' : n * k < n * (len / n + 1) := by rw [Nat.mul_succ]; omega
      exact Nat.le_antisymm (Nat.le_of_mul_le_mul_left hle' hn)
        (Nat.le_of_lt_succ (Nat.lt_of_mul_lt_mul_left hlt'))
    rw [← hround, hdiv]
  · rintro rfl
    rw [Nat.mul_add_mod, Nat.mod_eq_of_lt hj]

/-- How many elements a place has got. -/
theorem length_deal {j : ℕ} (hj : j < n) (xs : List α) :
    xs.length ≤ n * (deal n j xs).length + j ∧ n * (deal n j xs).length + j < xs.length + n := by
  induction xs using List.reverseRecOn with
  | nil => simpa using hj
  | append_singleton xs x ih =>
    have hturn := mod_eq_iff_of_le hj ih.1 ih.2
    rw [deal_concat, List.length_append, List.length_append, List.length_singleton]
    split_ifs with h
    · -- the place gets the element, so its turn in the next round is ahead
      have heq := hturn.mp h
      rw [List.length_singleton, Nat.mul_succ]
      omega
    · -- another place gets it, and this one's turn is not over
      have hne := mt hturn.mpr h
      rw [List.length_nil, Nat.add_zero (deal n j xs).length]
      omega

/-- No place gets more than one element more than another. -/
theorem length_deal_le {i j : ℕ} (hi : i < n) (hj : j < n) (xs : List α) :
    (deal n i xs).length ≤ (deal n j xs).length + 1 := by
  have hlt := (length_deal hi xs).2
  have hle := (length_deal hj xs).1
  refine Nat.le_of_lt_succ (Nat.lt_of_mul_lt_mul_left (a := n) ?_)
  rw [Nat.mul_succ, Nat.mul_succ]
  omega

/-- Element `m` of place `j` is element `m * n + j` of the list. -/
theorem getElem?_deal {j : ℕ} (hj : j < n) (xs : List α) (m : ℕ) :
    (deal n j xs)[m]? = xs[m * n + j]? := by
  induction xs using List.reverseRecOn with
  | nil => simp
  -- A further element goes to one of the places, behind all that this place got before.
  | append_singleton xs x ih =>
    obtain ⟨hle, hlt⟩ := length_deal hj xs
    have hturn := mod_eq_iff_of_le hj hle hlt
    rw [Nat.mul_comm m n] at ih ⊢
    rw [deal_concat]
    rcases Nat.lt_trichotomy m (deal n j xs).length with hm | hm | hm
    · -- an element that was dealt before
      rw [List.getElem?_append_left hm, ih, List.getElem?_append_left]
      rw [List.getElem?_eq_getElem hm] at ih
      exact (List.getElem?_eq_some_iff.mp ih.symm).1
    · -- the next element of this place
      subst hm
      rw [List.getElem?_append_right (Nat.le_refl _), Nat.sub_self]
      split_ifs with h
      · rw [← hturn.mp h, List.getElem?_append_right (Nat.le_refl _), Nat.sub_self]
      · -- it went elsewhere, and the list ends in front of the next turn
        have hne := mt hturn.mpr h
        have hlen : (xs ++ [x]).length ≤ n * (deal n j xs).length + j := by
          rw [List.length_append, List.length_singleton]
          omega
        rw [List.getElem?_nil, List.getElem?_eq_none hlen]
    · -- none of them is there yet
      have hmul : n * ((deal n j xs).length + 1) ≤ n * m := Nat.mul_le_mul_left n hm
      rw [Nat.mul_succ] at hmul
      have hlen : (xs ++ [x]).length ≤ n * m + j := by
        rw [List.length_append, List.length_singleton]
        omega
      rw [List.getElem?_eq_none hlen, List.getElem?_eq_none]
      rw [List.length_append]
      split_ifs
      · exact hm
      · exact Nat.le_of_lt hm

end RoundRobin
