import Mathlib.Data.List.Pairwise
import Mathlib.Data.UInt
import Mathlib.Order.Interval.Set.Defs

/-!
# Stacked regions and alignment

Half-open regions of an ordered type that are laid out one behind the other, as a bump allocator
lays them out, and the mask that rounds an address down.

* `Stacked`: the regions of a list lie between two bounds, each behind the one in front of it;
* `Stacked.append_singleton`: a region put on top;
* `Stacked.bounds`, `Stacked.pairwise`: every region lies between the bounds, and an earlier region
  ends before a later one starts;
* `Stacked.pairwise_apart`: no two regions share a point;
* `Stacked.length_mul_le`: how many regions of a least size there is room for;
* `UInt64.toNat_and_not_63`: clearing the low six bits takes away the remainder by 64.
-/

/-- The points from `start` up to and without `stop`. -/
structure Region (α : Type) [LE α] where
  start : α
  stop : α
  le : start ≤ stop

namespace Region

variable {α : Type} [Preorder α]

/-- The points of a region. -/
def points (r : Region α) : Set α := Set.Ico r.start r.stop

/-- Two regions share no point. -/
def Apart (r s : Region α) : Prop := ∀ x ∈ r.points, x ∉ s.points

theorem Apart.symm {r s : Region α} (h : r.Apart s) : s.Apart r :=
  fun x hs hr => h x hr hs

/-- The regions of a list lie between `lo` and `hi`, each behind the one in front of it. -/
def Stacked : α → α → List (Region α) → Prop
  | lo, hi, [] => lo ≤ hi
  | lo, hi, r :: rs => lo ≤ r.start ∧ Stacked r.stop hi rs

namespace Stacked

variable {lo mid hi : α} {rs : List (Region α)}

theorem le (h : Stacked lo hi rs) : lo ≤ hi := by
  induction rs generalizing lo with
  | nil => exact h
  | cons r rs ih => exact h.1.trans (r.le.trans (ih h.2))

/-- A region behind all others goes on top. -/
theorem append_singleton (h : Stacked lo mid rs) {r : Region α} (hstart : mid ≤ r.start)
    (hstop : r.stop ≤ hi) : Stacked lo hi (rs ++ [r]) := by
  induction rs generalizing lo with
  | nil => exact ⟨le_trans h hstart, hstop⟩
  | cons s rs ih => exact ⟨h.1, ih h.2⟩

/-- Every region lies between the bounds. -/
theorem bounds (h : Stacked lo hi rs) {r : Region α} (hr : r ∈ rs) :
    lo ≤ r.start ∧ r.stop ≤ hi := by
  induction rs generalizing lo with
  | nil => cases hr
  | cons s rs ih =>
    rcases List.mem_cons.mp hr with rfl | hr
    · exact ⟨h.1, h.2.le⟩
    · obtain ⟨hstart, hstop⟩ := ih h.2 hr
      exact ⟨h.1.trans (s.le.trans hstart), hstop⟩

/-- An earlier region ends before a later one starts. -/
theorem pairwise (h : Stacked lo hi rs) : rs.Pairwise fun r s => r.stop ≤ s.start := by
  induction rs generalizing lo with
  | nil => exact List.Pairwise.nil
  | cons r rs ih =>
    refine List.pairwise_cons.mpr ⟨fun s hs => ?_, ih h.2⟩
    exact (h.2.bounds hs).1

/-- No two regions share a point. -/
theorem pairwise_apart (h : Stacked lo hi rs) : rs.Pairwise Apart := by
  refine h.pairwise.imp fun {r s} hrs => ?_
  intro x hxr hxs
  exact lt_irrefl x (hxr.2.trans_le (hrs.trans hxs.1))

end Stacked

/-- Regions of at least `k` points each take up `k` points each. -/
theorem Stacked.length_mul_le {lo hi k : ℕ} {rs : List (Region ℕ)} (h : Stacked lo hi rs)
    (hk : ∀ r ∈ rs, r.start + k ≤ r.stop) : lo + rs.length * k ≤ hi := by
  induction rs generalizing lo with
  | nil => simpa [Stacked] using h
  | cons r rs ih =>
    have hrest := ih h.2 fun s hs => hk s (List.mem_cons_of_mem r hs)
    have hr := hk r List.mem_cons_self
    have hlo := h.1
    rw [List.length_cons, Nat.succ_mul]
    omega

end Region

/-! ## Alignment -/

/-- A value is the sum of its bits inside and outside a mask. -/
theorem BitVec.toNat_and_not_add_and {w : ℕ} (x m : BitVec w) :
    (x &&& ~~~m).toNat + (x &&& m).toNat = x.toNat := by
  have hdisjoint : (x &&& ~~~m) &&& (x &&& m) = 0#w := by
    ext i hi
    simp
    grind
  have hunion : (x &&& ~~~m) ||| (x &&& m) = x := by
    ext i hi
    simp
    grind
  rw [← BitVec.toNat_add_of_and_eq_zero hdisjoint, BitVec.add_eq_or_of_and_eq_zero _ _ hdisjoint,
    hunion]

/-- Clearing the low six bits takes away the remainder by 64. -/
theorem UInt64.toNat_and_not_63 (x : UInt64) :
    (x &&& ~~~63).toNat + x.toNat % 64 = x.toNat := by
  have hlow : (x.toBitVec &&& 63#64).toNat = x.toNat % 64 := by
    rw [BitVec.toNat_and]
    exact Nat.and_two_pow_sub_one_eq_mod x.toNat 6
  rw [← hlow]
  exact BitVec.toNat_and_not_add_and x.toBitVec 63#64
