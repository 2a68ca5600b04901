import Mathlib.Data.Finset.Insert
import Akkon.Index.BloomFilter

/-!
# `indexer::QueryEngine`

The index of `QueryEngine.cpp`: a Bloom filter in front of an exact set of the inserted items. The
structure carries the fact that the filter possibly contains every member of the exact store, which
`insert` keeps; it is what makes `DEFINITELY_NO` right.

* `insert_eq_ok`, `query_eq_ok`: neither call throws;
* `answer_eq_definitelyYes_iff`: `DEFINITELY_YES` is the answer exactly for the members.
-/

namespace Indexer

open Cpp

/-- `QueryResult`. -/
inductive QueryResult
  | DEFINITELY_NO
  | PROBABLY_YES
  | DEFINITELY_YES
  deriving DecidableEq, Repr

/-- The index. -/
structure QueryEngine where
  /-- `m_filter`. -/
  m_filter : BloomFilter
  /-- `m_exact_store`. -/
  m_exact_store : Finset Bytes
  /-- The filter possibly contains every member. -/
  covered : ∀ item ∈ m_exact_store, m_filter.contains item = true
  deriving DecidableEq

namespace QueryEngine

/-- `QueryEngine(expected_items)`: ten bits an item and seven hash functions. -/
def new (expected_items : ℕ) (h : 0 < expected_items) : QueryEngine :=
  ⟨.new (expected_items * 10) 7 (by omega), ∅, by simp⟩

variable (qe : QueryEngine)

/-- What `add` returns possibly contains the item and every member. -/
theorem covered_of_add {item : Bytes} {bf : BloomFilter} (h : qe.m_filter.add item = .ok bf) :
    ∀ other ∈ insert item qe.m_exact_store, bf.contains other = true := by
  rw [BloomFilter.add_eq_ok] at h
  cases h
  intro other hother
  rcases Finset.mem_insert.mp hother with rfl | hmem
  · exact BloomFilter.contains_add other
  · exact BloomFilter.contains_add_of_contains (qe.covered other hmem)

/-- `QueryEngine::insert`. -/
def insert (item : Bytes) : Except Exn QueryEngine :=
  match h : qe.m_filter.add item with
  | .ok m_filter => .ok ⟨m_filter, Insert.insert item qe.m_exact_store, qe.covered_of_add h⟩
  | .error e => .error e

/-- `QueryEngine::query`. -/
def query (item : Bytes) : Except Exn QueryResult := do
  if !(← qe.m_filter.possiblyContains item) then return .DEFINITELY_NO
  if item ∈ qe.m_exact_store then return .DEFINITELY_YES
  return .PROBABLY_YES

/-! ## Neither call throws -/

/-- The index after an insertion. -/
def inserted (item : Bytes) : QueryEngine :=
  ⟨qe.m_filter.setBits (qe.m_filter.indices item), Insert.insert item qe.m_exact_store,
    qe.covered_of_add (qe.m_filter.add_eq_ok item)⟩

theorem insert_eq_ok (item : Bytes) : qe.insert item = .ok (qe.inserted item) := by
  unfold insert
  split
  · next m_filter h =>
    rw [BloomFilter.add_eq_ok] at h
    cases h
    rfl
  · next e h =>
    rw [BloomFilter.add_eq_ok] at h
    cases h

/-- The answer of `query`. -/
def answer (item : Bytes) : QueryResult :=
  if qe.m_filter.contains item = false then .DEFINITELY_NO
  else if item ∈ qe.m_exact_store then .DEFINITELY_YES
  else .PROBABLY_YES

theorem query_eq_ok (item : Bytes) : qe.query item = .ok (qe.answer item) := by
  rw [query, BloomFilter.possiblyContains_eq_ok, answer]
  change (if _ then _ else _) = _
  cases qe.m_filter.contains item with
  | false => rfl
  | true =>
    by_cases hmem : item ∈ qe.m_exact_store
    · simp only [hmem]
      rfl
    · simp only [hmem]
      rfl

/-! ## What the answers mean -/

/-- The items that are `DEFINITELY_YES`. -/
def members : Finset Bytes := qe.m_exact_store

variable {qe}

/-- `DEFINITELY_YES` is the answer exactly for the members. -/
theorem answer_eq_definitelyYes_iff {item : Bytes} :
    qe.answer item = .DEFINITELY_YES ↔ item ∈ qe.members := by
  rw [answer, members]
  by_cases hmem : item ∈ qe.m_exact_store
  · simp [hmem, qe.covered item hmem]
  · cases qe.m_filter.contains item <;> simp [hmem]

@[simp]
theorem members_new (expected_items : ℕ) (h : 0 < expected_items) :
    (new expected_items h).members = ∅ := rfl

@[simp]
theorem members_inserted (item : Bytes) :
    (qe.inserted item).members = Insert.insert item qe.members := rfl

end QueryEngine

end Indexer
