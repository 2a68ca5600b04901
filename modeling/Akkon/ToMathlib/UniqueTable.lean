import Mathlib.Data.List.Induction
import Mathlib.Data.List.Nodup

/-!
# Tables with a unique key

A table is a list of entries with pairwise different keys. An insertion is refused, and changes
nothing, when the key is taken; a replacement puts the new entry in the place of the old one.

* `insertAll_eq_append_filter_iff`: when exactly the entries with a property get in;
* `key_mem_insertAll`, `mem_or_mem_of_mem_insertAll`: every key is taken afterwards, and nothing
  else was added;
* `exists_sublist_insertAll`: the entries that were there stay in front, and what is added keeps its
  order;
* `mem_replaceAll_iff`: after replacements the last entry of each key is there.
-/

namespace UniqueTable

variable {α κ : Type} [DecidableEq κ] (key : α → κ)

/-- An insertion that is refused when the key is taken. -/
def insertNew (t : List α) (x : α) : List α :=
  if key x ∈ t.map key then t else t ++ [x]

/-- Insertions one after the other. -/
def insertAll (t xs : List α) : List α := xs.foldl (insertNew key) t

variable {key} {t xs : List α} {x : α}

theorem insertNew_of_mem (h : key x ∈ t.map key) : insertNew key t x = t := if_pos h

theorem insertNew_of_not_mem (h : key x ∉ t.map key) : insertNew key t x = t ++ [x] := if_neg h

@[simp]
theorem insertAll_nil : insertAll key t [] = t := rfl

@[simp]
theorem insertAll_cons : insertAll key t (x :: xs) = insertAll key (insertNew key t x) xs := rfl

/-- The key is taken afterwards, whether or not the insertion was refused. -/
theorem key_mem_insertNew : key x ∈ (insertNew key t x).map key := by
  by_cases h : key x ∈ t.map key
  · rwa [insertNew_of_mem h]
  · simp [insertNew_of_not_mem h]

theorem prefix_insertNew : t <+: insertNew key t x := by
  by_cases h : key x ∈ t.map key
  · exact (insertNew_of_mem h).symm ▸ List.prefix_refl t
  · rw [insertNew_of_not_mem h]
    exact List.prefix_append t [x]

/-- The entries that were there stay in front. -/
theorem prefix_insertAll : t <+: insertAll key t xs := by
  induction xs generalizing t with
  | nil => exact List.prefix_refl t
  | cons x xs ih => exact prefix_insertNew.trans ih

/-- Nothing else is added. -/
theorem mem_or_mem_of_mem_insertAll {y : α} (h : y ∈ insertAll key t xs) : y ∈ t ∨ y ∈ xs := by
  induction xs generalizing t with
  | nil => exact .inl h
  | cons x xs ih =>
    rcases ih h with hy | hy
    · by_cases hx : key x ∈ t.map key
      · rw [insertNew_of_mem hx] at hy
        exact .inl hy
      · rw [insertNew_of_not_mem hx] at hy
        rcases List.mem_append.mp hy with hy | hy
        · exact .inl hy
        · exact .inr (List.mem_cons.mpr (.inl (List.mem_singleton.mp hy)))
    · exact .inr (List.mem_cons_of_mem x hy)

/-- Every key is taken afterwards. -/
theorem key_mem_insertAll {y : α} (h : y ∈ xs) : key y ∈ (insertAll key t xs).map key := by
  induction xs generalizing t with
  | nil => cases h
  | cons x xs ih =>
    rcases List.mem_cons.mp h with rfl | h
    · -- taken at once, and kept by what follows
      have htaken : key y ∈ (insertNew key t y).map key := key_mem_insertNew
      have hkept : insertNew key t y <+: insertAll key (insertNew key t y) xs := prefix_insertAll
      exact (hkept.map key).subset htaken
    · exact ih h

/-- What is added are some of the entries in their order, with keys that were free. -/
theorem exists_sublist_insertAll (key : α → κ) (t xs : List α) :
    ∃ ys, insertAll key t xs = t ++ ys ∧ ys.Sublist xs ∧ ∀ y ∈ ys, key y ∉ t.map key := by
  induction xs generalizing t with
  | nil => exact ⟨[], by simp, List.Sublist.refl _, by simp⟩
  | cons x xs ih =>
    by_cases hx : key x ∈ t.map key
    · obtain ⟨ys, heq, hsub, hfree⟩ := ih t
      exact ⟨ys, by rw [insertAll_cons, insertNew_of_mem hx, heq], hsub.cons x, hfree⟩
    · obtain ⟨ys, heq, hsub, hfree⟩ := ih (t ++ [x])
      refine ⟨x :: ys, ?_, hsub.cons_cons x, fun y hy => ?_⟩
      · rw [insertAll_cons, insertNew_of_not_mem hx, heq, List.append_assoc]
        rfl
      · rcases List.mem_cons.mp hy with rfl | hy
        · exact hx
        · intro hmem
          exact hfree y hy (by simp only [List.map_append, List.mem_append, hmem, true_or])

/-- When exactly the entries with a property get in: each of them finds its key free, and each other
one finds its key taken, by the table or by an entry with the property in front of it. -/
theorem insertAll_eq_append_filter_iff (key : α → κ) (p : α → Bool) (t xs : List α) :
    insertAll key t xs = t ++ xs.filter p ↔
      ∀ front x back, xs = front ++ x :: back →
        (p x = true ↔ key x ∉ (t ++ front.filter p).map key) := by
  induction xs generalizing t with
  | nil => simp
  | cons x xs ih =>
    -- the condition on the first entry, and the one on the rest behind it
    have hsplit : (∀ front y back, x :: xs = front ++ y :: back →
        (p y = true ↔ key y ∉ (t ++ front.filter p).map key)) ↔
        (p x = true ↔ key x ∉ t.map key) ∧ ∀ front y back, xs = front ++ y :: back →
          (p y = true ↔ key y ∉ (t ++ (x :: front).filter p).map key) := by
      constructor
      · intro h
        refine ⟨by simpa using h [] x xs rfl, fun front y back heq => ?_⟩
        exact h (x :: front) y back (by rw [heq, List.cons_append])
      · rintro ⟨hx, hrest⟩ front y back heq
        cases front with
        | nil =>
          obtain ⟨rfl, rfl⟩ := List.cons.inj heq
          simpa using hx
        | cons z front =>
          obtain ⟨rfl, hxs⟩ := List.cons.inj heq
          exact hrest front y back hxs
    rw [hsplit, insertAll_cons]
    by_cases hkey : key x ∈ t.map key
    · rw [insertNew_of_mem hkey]
      cases hp : p x with
      | false => simpa [hkey, hp] using ih t
      | true =>
        -- it belongs to the filter, but what gets in has a key that was free
        refine iff_of_false (fun heq => ?_) fun h => absurd (h.1.mp rfl) (not_not.mpr hkey)
        obtain ⟨ys, hys, -, hfree⟩ := exists_sublist_insertAll key t xs
        have hadded : ys = (x :: xs).filter p := List.append_cancel_left (hys.symm.trans heq)
        exact hfree x (by rw [hadded]; simp [hp]) hkey
    · rw [insertNew_of_not_mem hkey]
      cases hp : p x with
      | true => simpa [hkey, hp] using ih (t ++ [x])
      | false =>
        -- it gets in without belonging to the filter
        refine iff_of_false (fun heq => ?_) fun h => absurd (h.1.mpr hkey) (by simp)
        obtain ⟨ys, hys, -, -⟩ := exists_sublist_insertAll key (t ++ [x]) xs
        have hadded : x :: ys = (x :: xs).filter p := by
          apply List.append_cancel_left
          rw [← heq, hys, List.append_assoc]
          rfl
        have hmem : x ∈ (x :: xs).filter p := hadded ▸ List.mem_cons_self
        simp [hp] at hmem

/-- When all entries get in: each finds its key free, in the table and among those in front of
it. -/
theorem insertAll_eq_append_iff (t xs : List α) :
    insertAll key t xs = t ++ xs ↔
      ∀ front x back, xs = front ++ x :: back → key x ∉ (t ++ front).map key := by
  simpa using insertAll_eq_append_filter_iff key (fun _ => true) t xs

/-- All entries get in when their number does. -/
theorem insertAll_eq_append_of_length_le
    (h : t.length + xs.length ≤ (insertAll key t xs).length) : insertAll key t xs = t ++ xs := by
  obtain ⟨ys, heq, hsub, -⟩ := exists_sublist_insertAll key t xs
  rw [heq, List.length_append] at h
  rw [heq, hsub.eq_of_length_le (by omega)]

/-- An entry is the only one with its key. -/
theorem filter_key_eq_singleton (ht : (t.map key).Nodup) (hx : x ∈ t) :
    t.filter (fun y => key y = key x) = [x] := by
  induction t with
  | nil => cases hx
  | cons y t ih =>
    obtain ⟨hy, ht⟩ := List.nodup_cons.mp ht
    rcases List.mem_cons.mp hx with rfl | hx
    · have hrest : t.filter (fun y => key y = key x) = [] := by
        rw [List.filter_eq_nil_iff]
        intro z hz hkey
        exact hy (of_decide_eq_true hkey ▸ List.mem_map_of_mem hz)
      rw [List.filter_cons_of_pos (by simp), hrest]
    · have hne : key y ≠ key x := fun heq => hy (heq ▸ List.mem_map_of_mem hx)
      rw [List.filter_cons_of_neg (by simpa using hne), ih ht hx]

/-! ## Replacements -/

/-- An insertion that removes the entries with the same key. -/
def replace (key : α → κ) (t : List α) (x : α) : List α := t.filter (fun y => key y ≠ key x) ++ [x]

/-- Replacements one after the other. -/
def replaceAll (key : α → κ) (t xs : List α) : List α := xs.foldl (replace key) t

theorem mem_replace_iff {y : α} : y ∈ replace key t x ↔ y = x ∨ y ∈ t ∧ key y ≠ key x := by
  simp [replace, or_comm]

theorem replaceAll_append_singleton :
    replaceAll key t (xs ++ [x]) = replace key (replaceAll key t xs) x := by
  simp [replaceAll]

/-- The last entry with a key is the one that is there. -/
theorem mem_replaceAll_iff {y : α} : y ∈ replaceAll key t xs ↔
    match (xs.filter fun x => key x = key y).getLast? with
    | some x => y = x
    | none => y ∈ t := by
  induction xs using List.reverseRecOn with
  | nil => simp [replaceAll]
  | append_singleton xs x ih =>
    rw [replaceAll_append_singleton, mem_replace_iff, List.filter_append]
    by_cases hkey : key x = key y
    · simp [hkey]
    · have hne : y ≠ x := fun heq => hkey (by rw [heq])
      rw [ih]
      simp [hkey, hne, Ne.symm hkey]

/-- A replacement by an entry that is the last one already. -/
theorem replace_eq_self (h : ∃ front, t = front ++ [x] ∧ ∀ y ∈ front, key y ≠ key x) :
    replace key t x = t := by
  obtain ⟨front, rfl, hfront⟩ := h
  have hfilter : front.filter (fun y => key y ≠ key x) = front :=
    List.filter_eq_self.mpr fun y hy => decide_eq_true (hfront y hy)
  rw [replace, List.filter_append, hfilter]
  simp

/-- Replacing by the same entry twice is replacing once. -/
theorem replace_idem : replace key (replace key t x) x = replace key t x :=
  replace_eq_self ⟨_, rfl, fun _ hy => of_decide_eq_true (List.mem_filter.mp hy).2⟩

end UniqueTable
