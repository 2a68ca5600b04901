import Akkon.Index.QueryEngine

/-!
# The index over its history

A `QueryEngine` behind any sequence of insertions, with a filter of any size and any number of hash
functions. What an index knows only grows, whatever the hash values are.

* `insertAll_eq_ok`: a sequence of insertions never throws;
* `mem_members_foldl_inserted`: the members are what was inserted;
* `contains_foldl_inserted`: bits are never cleared;
* `query_insertAll`: the answers, for the index and for the plain set of the inserted items.
-/

namespace Indexer

open Cpp

namespace QueryEngine

/-- An index without members behind a filter of any size. -/
def fresh (size_in_bits : ℕ) (num_hash_functions : UInt8) (h : 0 < size_in_bits) : QueryEngine :=
  ⟨.new size_in_bits num_hash_functions h, ∅, by simp⟩

/-- A sequence of `insert` calls. -/
def insertAll (qe : QueryEngine) (items : List Bytes) : Except Exn QueryEngine :=
  items.foldlM insert qe

variable {qe : QueryEngine} {item : Bytes}

/-- No call of the sequence throws. -/
theorem insertAll_eq_ok (qe : QueryEngine) (items : List Bytes) :
    qe.insertAll items = .ok (items.foldl inserted qe) := by
  induction items generalizing qe with
  | nil => rfl
  | cons item items ih =>
    rw [insertAll, List.foldlM_cons, insert_eq_ok]
    exact ih (qe.inserted item)

/-- The members are those from before and what was inserted. -/
theorem mem_members_foldl_inserted {items : List Bytes} :
    item ∈ (items.foldl inserted qe).members ↔ item ∈ qe.members ∨ item ∈ items := by
  induction items generalizing qe with
  | nil => simp
  | cons other items ih =>
    rw [List.foldl_cons, ih, members_inserted, Finset.mem_insert, List.mem_cons]
    tauto

/-- Bits are never cleared. -/
theorem contains_foldl_inserted (h : qe.m_filter.contains item = true) (items : List Bytes) :
    (items.foldl inserted qe).m_filter.contains item = true := by
  -- the hypothesis is about the filter in front of the remaining insertions
  induction items generalizing qe with
  | nil => exact h
  | cons other items ih => exact ih (BloomFilter.contains_add_of_contains h)

/-- `DEFINITELY_NO` is the answer exactly for what the filter does not contain. -/
theorem answer_eq_definitelyNo_iff :
    qe.answer item = .DEFINITELY_NO ↔ qe.m_filter.contains item = false := by
  rw [answer]
  cases qe.m_filter.contains item with
  | false => simp
  | true => by_cases hmem : item ∈ qe.m_exact_store <;> simp [hmem]

/-- Behind any sequence of insertions, `DEFINITELY_YES` is the answer exactly for the items that were
inserted, the other two answers are given only for items that were not, and an item that is not
`DEFINITELY_NO` will not be later on. -/
theorem query_insertAll {size_in_bits : ℕ} (h : 0 < size_in_bits) (num_hash_functions : UInt8)
    (items later : List Bytes) (item : Bytes) :
    ∃ qe qe' res res',
      (fresh size_in_bits num_hash_functions h).insertAll items = .ok qe ∧
      qe.insertAll later = .ok qe' ∧
      qe.query item = .ok res ∧ qe'.query item = .ok res' ∧
      (res = .DEFINITELY_YES ↔ item ∈ items) ∧
      (res = .DEFINITELY_NO ∨ res = .PROBABLY_YES → item ∉ items) ∧
      (res ≠ .DEFINITELY_NO → res' ≠ .DEFINITELY_NO) := by
  refine ⟨_, _, _, _, insertAll_eq_ok _ items, insertAll_eq_ok _ later, query_eq_ok _ item,
    query_eq_ok _ item, ?_, ?_, ?_⟩
  · rw [answer_eq_definitelyYes_iff, mem_members_foldl_inserted, members, fresh]
    simp
  · rintro (hres | hres) hitem
    all_goals
      -- an item that was inserted is a member, and the answer for members is `DEFINITELY_YES`
      have hyes := answer_eq_definitelyYes_iff.mpr
        ((@mem_members_foldl_inserted (fresh size_in_bits num_hash_functions h) _ _).mpr
          (.inr hitem))
      rw [hres] at hyes
      cases hyes
  · -- an answer other than `DEFINITELY_NO` comes from the filter, whose bits stay
    intro hres hres'
    rw [answer_eq_definitelyNo_iff] at hres'
    rw [ne_eq, answer_eq_definitelyNo_iff, Bool.not_eq_false] at hres
    rw [contains_foldl_inserted hres] at hres'
    cases hres'

/-- One bit and the largest number of hash functions. -/
theorem query_insertAll_oneBit : ∃ qe qe' res res',
    (fresh 1 255 (by decide)).insertAll [lit "a", lit "b"] = .ok qe ∧
    qe.insertAll [lit "c"] = .ok qe' ∧
    qe.query (lit "c") = .ok res ∧ qe'.query (lit "c") = .ok res' ∧
    (res = .DEFINITELY_YES ↔ lit "c" ∈ [lit "a", lit "b"]) ∧
    (res = .DEFINITELY_NO ∨ res = .PROBABLY_YES → lit "c" ∉ [lit "a", lit "b"]) ∧
    (res ≠ .DEFINITELY_NO → res' ≠ .DEFINITELY_NO) :=
  query_insertAll (by decide) 255 [lit "a", lit "b"] [lit "c"] (lit "c")

end QueryEngine

end Indexer
