import Mathlib.Data.List.Infix
import Mathlib.Data.Set.Finite.List

/-!
# File trees and relative path resolution

A file tree without symbolic links: finitely many absolute paths exist, each a directory or a file,
and everything above an existing path is a directory. A relative path is resolved component by
component from a directory, `..` going to the parent and the root being its own parent.

The question answered here is when the result of reading a path can only depend on the part of the
tree under a directory `dir`, which itself lies directly or indirectly under the start directory:

* `FileTree.lookup_eq_of_near`: two trees that agree under `dir` give the same result when every
  place the resolution passes (`places`) is above `dir`, `dir` itself or under it;
* `FileTree.exists_lookup_ne`: for any other path there are two trees that agree under `dir` and
  give different results.
-/

/-- What an absolute path can be. -/
inductive Entry (β : Type)
  | dir
  | file (content : β)
  deriving DecidableEq, Repr

/-- A tree of files with names in `ν` and contents in `β`. -/
structure FileTree (ν β : Type) where
  /-- What is at an absolute path, `none` where nothing exists. -/
  entry : List ν → Option (Entry β)
  root_dir : entry [] = some .dir
  parent_dir : ∀ p n, entry (p ++ [n]) ≠ none → entry p = some .dir
  finite : { p | entry p ≠ none }.Finite

/-- A component of a path. An empty component and `.` are `here`. -/
inductive Component (ν : Type)
  | here
  | up
  | down (n : ν)
  deriving DecidableEq, Repr

namespace FileTree

variable {ν β : Type}

/-- The place a component leads to, as far as names go. -/
def next (cur : List ν) : Component ν → List ν
  | .here => cur
  | .up => cur.dropLast
  | .down n => cur ++ [n]

/-- The places passed behind the first, whether or not they exist. -/
def places : List ν → List (Component ν) → List (List ν)
  | _, [] => []
  | cur, c :: cs => next cur c :: places (next cur c) cs

/-- Path resolution: a component is looked up in a directory only, and what it leads to must
exist. -/
def walk (t : FileTree ν β) : List ν → List (Component ν) → Option (List ν)
  | cur, [] => some cur
  | cur, c :: cs =>
    match t.entry cur with
    | some .dir => if (t.entry (next cur c)).isSome then t.walk (next cur c) cs else none
    | _ => none

/-- What is at the end of a path. -/
def lookup (t : FileTree ν β) (cur : List ν) (cs : List (Component ν)) : Option (Entry β) :=
  (t.walk cur cs).bind t.entry

/-- Everything above an existing path is a directory. -/
theorem entry_of_prefix (t : FileTree ν β) {p q : List ν} (hpq : p <+: q) (hne : p ≠ q)
    (hq : t.entry q ≠ none) : t.entry p = some .dir := by
  obtain ⟨r, rfl⟩ := hpq
  -- by induction on the distance, from the existing path upwards
  induction r using List.reverseRecOn with
  | nil => exact absurd (List.append_nil p).symm hne
  | append_singleton r n ih =>
    rw [← List.append_assoc] at hq
    have hparent := t.parent_dir _ _ hq
    by_cases hr : r = []
    · subst hr
      simpa using hparent
    · exact ih (by simpa using hr) (by rw [hparent]; exact Option.some_ne_none _)

/-! ## Paths that stay near a directory -/

/-- A place above `dir`, `dir` itself or a place under it. -/
def Near (dir p : List ν) : Prop := p <+: dir ∨ dir <+: p

instance [DecidableEq ν] (dir p : List ν) : Decidable (Near dir p) :=
  inferInstanceAs (Decidable (_ ∨ _))

/-- Agreement on everything under `dir`, `dir` itself included. -/
def AgreeUnder (dir : List ν) (t t' : FileTree ν β) : Prop :=
  ∀ p, dir <+: p → t.entry p = t'.entry p

/-- Trees that agree under `dir`, and in which the parent of `dir` is a directory, agree on every
place near `dir`. -/
theorem AgreeUnder.entry_eq {t t' : FileTree ν β} {cur : List ν} {n : ν}
    (h : AgreeUnder (cur ++ [n]) t t') (hcur : t.entry cur = some .dir)
    (hcur' : t'.entry cur = some .dir) {p : List ν} (hp : Near (cur ++ [n]) p) :
    t.entry p = t'.entry p := by
  rcases hp with hp | hp
  · rcases List.prefix_concat_iff.mp hp with rfl | hp
    · exact h _ (List.prefix_refl _)
    -- strictly above: a directory in both trees
    · by_cases heq : p = cur
      · rw [heq, hcur, hcur']
      · rw [t.entry_of_prefix hp heq (by simp [hcur]), t'.entry_of_prefix hp heq (by simp [hcur'])]
  · exact h p hp

/-- Agreement on the places passed makes two resolutions equal. -/
theorem lookup_eq_of_entry_eq {t t' : FileTree ν β} {cur : List ν} {cs : List (Component ν)}
    (h : ∀ p ∈ cur :: places cur cs, t.entry p = t'.entry p) :
    t.lookup cur cs = t'.lookup cur cs := by
  induction cs generalizing cur with
  | nil => exact h cur (by simp)
  | cons c cs ih =>
    have hcur := h cur (by simp)
    have hnext := h (next cur c) (by simp [places])
    -- the places of the rest are places of the whole path
    have hrest : t.lookup (next cur c) cs = t'.lookup (next cur c) cs :=
      ih fun p hp => h p (by simp_all [places])
    simp only [lookup, walk] at hrest ⊢
    rw [hcur, hnext]
    cases t'.entry cur with
    | none => rfl
    | some e =>
      cases e with
      | file content => rfl
      | dir => by_cases hsome : (t'.entry (next cur c)).isSome <;> simp [hsome, hrest]

/-- A resolution that stays near `dir` only depends on what is under `dir`. -/
theorem lookup_eq_of_near {t t' : FileTree ν β} {cur : List ν} {n : ν}
    (h : AgreeUnder (cur ++ [n]) t t') (hcur : t.entry cur = some .dir)
    (hcur' : t'.entry cur = some .dir) {cs : List (Component ν)}
    (hcs : ∀ p ∈ places cur cs, Near (cur ++ [n]) p) : t.lookup cur cs = t'.lookup cur cs := by
  refine lookup_eq_of_entry_eq fun p hp => h.entry_eq hcur hcur' ?_
  rcases List.mem_cons.mp hp with rfl | hp
  · exact .inl (List.prefix_append _ _)
  · exact hcs p hp

/-! ## Paths that leave it -/

section Skeleton

variable [DecidableEq ν]

/-- The tree of the directories above the places `qs`, less everything at or under a removed
place. -/
def skeleton (qs : List (List ν)) (removed : Option (List ν)) : FileTree ν β where
  entry p := if p = [] ∨ ((∃ q ∈ qs, p <+: q) ∧ ∀ b ∈ removed, ¬ b <+: p) then some .dir else none
  root_dir := if_pos (.inl rfl)
  parent_dir p n hp := by
    have hmem : (∃ q ∈ qs, p ++ [n] <+: q) ∧ ∀ b ∈ removed, ¬ b <+: p ++ [n] := by
      by_contra hnot
      exact hp (if_neg (by rintro (h | h); exacts [by simp at h, hnot h]))
    obtain ⟨⟨q, hq, hprefix⟩, hremoved⟩ := hmem
    refine if_pos (.inr ⟨⟨q, hq, (List.prefix_append _ _).trans hprefix⟩, fun b hb hbp => ?_⟩)
    exact hremoved b hb (hbp.trans (List.prefix_append _ _))
  finite := by
    refine ((qs.flatMap List.inits) ++ [[]]).finite_toSet.subset fun p hp => ?_
    by_contra hnot
    refine hp (if_neg ?_)
    rintro (rfl | ⟨⟨q, hq, hprefix⟩, -⟩)
    · exact hnot (by simp)
    · exact hnot (by simpa using .inl ⟨q, hq, hprefix⟩)

/-- A place above one of `qs` is a directory unless it was removed. -/
theorem skeleton_entry_eq {qs : List (List ν)} {removed : Option (List ν)} {p q : List ν}
    (hq : q ∈ qs) (hpq : p <+: q) (hremoved : ∀ b ∈ removed, ¬ b <+: p) :
    (skeleton qs removed : FileTree ν β).entry p = some .dir :=
  if_pos (.inr ⟨⟨q, hq, hpq⟩, hremoved⟩)

/-- A removed place does not exist. -/
theorem skeleton_entry_removed {qs : List (List ν)} {b : List ν} (hb : b ≠ []) :
    (skeleton qs (some b) : FileTree ν β).entry b = none :=
  if_neg (by rintro (h | ⟨-, h⟩); exacts [hb h, h b rfl (List.prefix_refl b)])

end Skeleton

/-- A resolution through directories ends at a directory. -/
theorem lookup_eq_dir {t : FileTree ν β} {cur : List ν} {cs : List (Component ν)}
    (h : ∀ p ∈ cur :: places cur cs, t.entry p = some .dir) : t.lookup cur cs = some .dir := by
  induction cs generalizing cur with
  | nil => exact h cur (by simp)
  | cons c cs ih =>
    have hrest : t.lookup (next cur c) cs = some .dir :=
      ih fun p hp => h p (by simp_all [places])
    have hcur := h cur (by simp)
    have hnext := h (next cur c) (by simp [places])
    simp only [lookup, walk, hcur, hnext] at hrest ⊢
    exact hrest

/-- A resolution that passes a missing place fails. -/
theorem lookup_eq_none {t : FileTree ν β} {cur b : List ν} {cs : List (Component ν)}
    (hb : b ∈ places cur cs) (h : t.entry b = none) : t.lookup cur cs = none := by
  induction cs generalizing cur with
  | nil => cases hb
  | cons c cs ih =>
    simp only [lookup, walk]
    cases t.entry cur with
    | none => rfl
    | some e =>
      cases e with
      | file content => rfl
      | dir =>
        -- the missing place is the next one or a later one
        by_cases hsome : (t.entry (next cur c)).isSome
        · rcases List.mem_cons.mp hb with rfl | hb
          · rw [h] at hsome
            cases hsome
          · rw [if_pos hsome]
            exact ih hb
        · simp [hsome]

/-- A path that passes a place away from `dir` tells apart two trees that agree under `dir`. -/
theorem exists_lookup_ne {cur : List ν} {n : ν} {cs : List (Component ν)}
    (h : ¬ ∀ p ∈ places cur cs, Near (cur ++ [n]) p) :
    ∃ t t' : FileTree ν β, t.entry cur = some .dir ∧ t'.entry cur = some .dir ∧
      AgreeUnder (cur ++ [n]) t t' ∧ t.lookup cur cs = some .dir ∧ t'.lookup cur cs = none := by
  classical
  obtain ⟨b, hb, haway⟩ : ∃ b ∈ places cur cs, ¬ Near (cur ++ [n]) b := by
    simpa using h
  have hroot : b ≠ [] := by
    rintro rfl
    exact haway (.inl List.nil_prefix)
  have hcur : ¬ b <+: cur := fun hcur => haway (.inl (hcur.trans (List.prefix_append _ _)))
  -- all the places exist in one tree; in the other everything from `b` on is gone
  refine ⟨skeleton (cur :: places cur cs) none, skeleton (cur :: places cur cs) (some b), ?_, ?_,
    ?_, ?_, ?_⟩
  · exact skeleton_entry_eq (by simp) (List.prefix_refl _) (by simp)
  · exact skeleton_entry_eq (by simp) (List.prefix_refl _) (by simpa using hcur)
  · intro p hp
    have hbp : ¬ b <+: p := fun hbp =>
      haway (List.prefix_or_prefix_of_prefix hbp hp)
    simp [skeleton, hbp]
  · exact lookup_eq_dir fun p hp => skeleton_entry_eq hp (List.prefix_refl _) (by simp)
  · exact lookup_eq_none hb (skeleton_entry_removed hroot)

end FileTree
