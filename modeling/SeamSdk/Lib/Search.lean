import Mathlib.Data.List.Basic
import Mathlib.Order.MinMax

/-!
# Searching in a list

The index of the first occurrence of a list in another one (`indexOf`), also as a number that is -1 where there is none
(`position`). A single item is found where the part before it does not hold it (`indexOf_singleton_eq_some`).

The index of the first item of a kind is `List.findIdx`, which is the length where there is none. The ways to compute
it from the positions of single items agree with it:

- `min_position`: the least of the positions that are not negative;
- `foldl_position`: a loop that keeps the least position so far.
-/

namespace Search

open List

/-! ## Occurrences -/

section

variable {α : Type} [DecidableEq α]

/-- The index of the first occurrence of `needle`. -/
def indexOf (needle : List α) : List α → Option Nat
  | [] => if needle = [] then some 0 else none
  | a :: s => if needle.isPrefixOf (a :: s) then some 0 else (indexOf needle s).map (· + 1)

/-- The same as a number, which is -1 where there is no occurrence. -/
def position (needle s : List α) : Int := (indexOf needle s).elim (-1) fun i => i

theorem position_of_none {needle s : List α} (h : indexOf needle s = none) : position needle s = -1 := by
  unfold position
  rw [h]
  rfl

theorem position_of_some {needle s : List α} {i : Nat} (h : indexOf needle s = some i) : position needle s = i := by
  unfold position
  rw [h]
  rfl

theorem indexOf_singleton (c : α) (s : List α) : indexOf [c] s = s.findIdx? (· = c) := by
  induction s with
  | nil => rfl
  | cons a s ih =>
    unfold indexOf
    rw [List.findIdx?_cons, ih]
    by_cases h : a = c
    · simp [h]
    · simp [h, Ne.symm h]

theorem indexOf_singleton_eq_none {c : α} {s : List α} : indexOf [c] s = none ↔ c ∉ s := by
  rw [indexOf_singleton, List.findIdx?_eq_none_iff]
  simp only [decide_eq_false_iff_not]
  exact ⟨fun h hc => h c hc rfl, fun h a ha hac => h (hac ▸ ha)⟩

/-- The list around the first occurrence of an item. -/
theorem indexOf_singleton_eq_some {c : α} {s : List α} {i : Nat} :
    indexOf [c] s = some i ↔ c ∉ s.take i ∧ s = s.take i ++ c :: s.drop (i + 1) := by
  induction s generalizing i with
  | nil => simp [indexOf]
  | cons a s ih =>
    unfold indexOf
    by_cases h : a = c
    · subst h
      cases i with
      | zero => simp
      | succ i => simp
    · cases i with
      | zero => simp [h, Ne.symm h]
      | succ i => simp [Ne.symm h, ih]

theorem position_singleton_nonneg {c : α} {s : List α} : 0 ≤ position [c] s ↔ c ∈ s := by
  cases h : indexOf [c] s with
  | none => simpa [position_of_none h] using indexOf_singleton_eq_none.mp h
  | some i =>
    have hc : c ∈ s := by
      rw [(indexOf_singleton_eq_some.mp h).2]
      simp
    simpa [position_of_some h] using hc

theorem indexOf_append {c : α} {s : List α} (h : c ∉ s) (t : List α) : indexOf [c] (s ++ c :: t) = some s.length := by
  rw [indexOf_singleton_eq_some]
  simp [h]

end

/-! ## The first item of a kind -/

section

variable {α : Type}

theorem findIdx_or (p q : α → Bool) (s : List α) :
    s.findIdx (fun a => p a || q a) = min (s.findIdx p) (s.findIdx q) := by
  induction s with
  | nil => rfl
  | cons a s ih =>
    rw [findIdx_cons, findIdx_cons, findIdx_cons, ih]
    cases p a <;> cases q a <;> simp

theorem findIdx_eq_getD (p : α → Bool) (s : List α) : s.findIdx p = (s.findIdx? p).getD s.length := by
  induction s with
  | nil => rfl
  | cons a s ih =>
    rw [findIdx_cons, List.findIdx?_cons, ih]
    cases p a <;> cases s.findIdx? p <;> simp

/-- The index of the first item of a kind as a number, which is -1 where there is none. -/
def firstIndex (p : α → Bool) (s : List α) : Int := (s.findIdx? p).elim (-1) fun i => i

theorem firstIndex_eq (p : α → Bool) (s : List α) :
    firstIndex p s = -1 ∧ s.findIdx p = s.length ∨ firstIndex p s = s.findIdx p := by
  unfold firstIndex
  rw [findIdx_eq_getD]
  cases s.findIdx? p with
  | none => exact Or.inl ⟨rfl, rfl⟩
  | some i => exact Or.inr rfl

variable [DecidableEq α]

theorem findIdx_mem_nil (s : List α) : s.findIdx (· ∈ ([] : List α)) = s.length := by
  simp [findIdx_eq_length]

theorem findIdx_mem_cons (c : α) (cs s : List α) :
    s.findIdx (· ∈ c :: cs) = min ((indexOf [c] s).getD s.length) (s.findIdx (· ∈ cs)) := by
  rw [indexOf_singleton, ← findIdx_eq_getD, ← findIdx_or]
  simp

theorem indexOf_singleton_le {c : α} {s : List α} {i : Nat} (h : indexOf [c] s = some i) : i ≤ s.length := by
  have hle : s.findIdx (· = c) ≤ s.length := findIdx_le_length
  rw [findIdx_eq_getD, ← indexOf_singleton, h] at hle
  exact hle

/-- The least of the positions that are not negative. -/
theorem min_position (cs s : List α) :
    ((cs.map fun c => position [c] s).filter (0 ≤ ·)).min?.getD s.length = (s.findIdx (· ∈ cs) : Int) := by
  induction cs with
  | nil => rw [findIdx_mem_nil]; rfl
  | cons c cs ih =>
    have hle : s.findIdx (· ∈ cs) ≤ s.length := findIdx_le_length
    rw [findIdx_mem_cons, map_cons]
    cases h : indexOf [c] s with
    | none =>
      rw [position_of_none h, filter_cons_of_neg (by decide), ih, Option.getD_none, min_eq_right hle]
    | some i =>
      have hi := indexOf_singleton_le h
      rw [position_of_some h, filter_cons_of_pos (by simp), List.min?_cons, Option.getD_some, Option.getD_some]
      cases hm : ((cs.map fun c => position [c] s).filter (0 ≤ ·)).min? with
      | none =>
        rw [hm, Option.getD_none] at ih
        rw [Option.elim_none]
        omega
      | some j =>
        rw [hm, Option.getD_some] at ih
        rw [Option.elim_some, ih]
        omega

/-- A loop over the items sought that keeps the least position, from any position it may have kept so far. -/
theorem foldl_position_from (cs s : List α) {k : Nat} (hk : k ≤ s.length) :
    cs.foldl (fun k c => if 0 ≤ position [c] s ∧ position [c] s < k then position [c] s else k) (k : Int) =
      (min k (s.findIdx (· ∈ cs)) : Nat) := by
  induction cs generalizing k with
  | nil => rw [findIdx_mem_nil, min_eq_left hk, foldl_nil]
  | cons c cs ih =>
    rw [foldl_cons, findIdx_mem_cons]
    cases h : indexOf [c] s with
    | none => rw [position_of_none h, if_neg (by omega), ih hk, Option.getD_none, ← min_assoc, min_eq_left hk]
    | some i =>
      have hmin : (if 0 ≤ (i : Int) ∧ (i : Int) < k then (i : Int) else k) = (min k i : Nat) := by
        split <;> omega
      rw [position_of_some h, hmin, ih (le_trans (min_le_left k i) hk), Option.getD_some, min_assoc]

theorem foldl_position (cs s : List α) :
    cs.foldl (fun k c => if 0 ≤ position [c] s ∧ position [c] s < k then position [c] s else k) (s.length : Int) =
      s.findIdx (· ∈ cs) := by
  rw [foldl_position_from cs s (le_refl _), min_eq_right findIdx_le_length]

/-! The part of a list before the first item of a kind, and the rest. -/

theorem take_findIdx_mem (cs s : List α) : s.take (s.findIdx (· ∈ cs)) = s.takeWhile (· ∉ cs) := by
  rw [takeWhile_eq_take_findIdx_not]
  simp

theorem drop_findIdx_mem (cs s : List α) : s.drop (s.findIdx (· ∈ cs)) = s.dropWhile (· ∉ cs) := by
  rw [dropWhile_eq_drop_findIdx_not]
  simp

end

end Search
