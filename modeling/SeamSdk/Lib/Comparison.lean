import SeamSdk.Lib.ByteCodec
import Mathlib.Data.List.Perm.Basic
import Mathlib.Data.List.Sort

/-!
# Sorting by a comparison

A comparison gives a negative number, zero or a positive number. A `Lawful` one is a total order that holds only equal
items equal, so what it sorts a list into depends on the items alone and not on their order (`sortBy_eq_of_perm`).
Byte strings compared at the first difference are lawful (`compareBytes_lawful`), and so are pairs of lawful parts
(`Lawful.thenBy`).
-/

namespace Comparison

open ByteCodec List

variable {α β : Type*}

/-- A total order, as a comparison. -/
structure Lawful (cmp : α → α → Int) : Prop where
  eq_zero_iff : ∀ a b, cmp a b = 0 ↔ a = b
  swap : ∀ a b, cmp b a < 0 ↔ 0 < cmp a b
  trans : ∀ a b c, cmp a b ≤ 0 → cmp b c ≤ 0 → cmp a c ≤ 0

/-- The first parts decide unless they are equal. -/
def thenBy (cmp : α → α → Int) (cmp' : β → β → Int) (p q : α × β) : Int :=
  if cmp p.1 q.1 ≠ 0 then cmp p.1 q.1 else cmp' p.2 q.2

/-- A stable sort by a comparison. -/
def sortBy (cmp : α → α → Int) (l : List α) : List α := l.insertionSort fun a b => cmp a b ≤ 0

/-- A stable sort by a strict order. -/
def sortLess (less : α → α → Bool) (l : List α) : List α := l.insertionSort fun a b => less b a = false

section Order

variable {cmp : α → α → Int}

theorem Lawful.thenBy {cmp' : β → β → Int} (h : Lawful cmp) (h' : Lawful cmp') : Lawful (thenBy cmp cmp') := by
  refine ⟨?_, ?_, ?_⟩
  · intro p q
    unfold Comparison.thenBy
    rw [Prod.ext_iff, ← h.eq_zero_iff, ← h'.eq_zero_iff]
    split_ifs with hfirst
    · exact ⟨fun heq => absurd heq hfirst, And.left⟩
    · exact ⟨fun heq => ⟨not_not.mp hfirst, heq⟩, And.right⟩
  · intro p q
    unfold Comparison.thenBy
    have hback : cmp q.1 p.1 = 0 ↔ cmp p.1 q.1 = 0 := by
      rw [h.eq_zero_iff, h.eq_zero_iff, eq_comm]
    by_cases hfirst : cmp p.1 q.1 = 0
    · rw [if_neg (not_not.mpr hfirst), if_neg (not_not.mpr (hback.mpr hfirst))]
      exact h'.swap p.2 q.2
    · rw [if_pos hfirst, if_pos (hback.not.mpr hfirst)]
      exact h.swap p.1 q.1
  · intro p q r hpq hqr
    unfold Comparison.thenBy at hpq hqr ⊢
    by_cases hpq1 : cmp p.1 q.1 = 0
    · rw [if_neg (not_not.mpr hpq1)] at hpq
      rw [(h.eq_zero_iff _ _).mp hpq1]
      by_cases hqr1 : cmp q.1 r.1 = 0
      · rw [if_neg (not_not.mpr hqr1)] at hqr ⊢
        exact h'.trans _ _ _ hpq hqr
      · rw [if_pos hqr1] at hqr ⊢
        exact hqr
    · rw [if_pos hpq1] at hpq
      have hqr1 : cmp q.1 r.1 ≤ 0 := by
        split_ifs at hqr with hzero
        · exact hqr
        · omega
      have hpr := h.trans _ _ _ hpq hqr1
      -- the first parts are not equal, as then the two steps would cancel
      have hne : cmp p.1 r.1 ≠ 0 := by
        intro hzero
        rw [(h.eq_zero_iff _ _).mp hzero] at hpq hpq1
        have hswap := h.swap q.1 r.1
        omega
      rw [if_pos hne]
      exact hpr

theorem sortBy_perm (l : List α) : (sortBy cmp l).Perm l := perm_insertionSort _ _

theorem sortLess_perm {less : α → α → Bool} (l : List α) : (sortLess less l).Perm l := perm_insertionSort _ _

theorem Lawful.sortBy_pairwise (h : Lawful cmp) (l : List α) : (sortBy cmp l).Pairwise fun a b => cmp a b ≤ 0 := by
  have htrans : IsTrans α fun a b => cmp a b ≤ 0 := ⟨h.trans⟩
  have htotal : Std.Total fun a b => cmp a b ≤ 0 := by
    refine ⟨fun a b => ?_⟩
    have hswap := h.swap a b
    omega
  exact pairwise_insertionSort _ l

/-- A list in order is the sorted one of its items. -/
theorem Lawful.eq_sortBy (h : Lawful cmp) {l l' : List α} (hp : l.Perm l') (hl : l.Pairwise fun a b => cmp a b ≤ 0) :
    l = sortBy cmp l' := by
  refine List.Perm.eq_of_pairwise ?_ hl (h.sortBy_pairwise l') (hp.trans (sortBy_perm l').symm)
  intro a b _ _ hab hba
  have hswap := h.swap b a
  exact (h.eq_zero_iff a b).mp (by omega)

/-- **A sorted list depends on the items alone.** -/
theorem Lawful.sortBy_eq_of_perm (h : Lawful cmp) {l l' : List α} (hp : l.Perm l') : sortBy cmp l = sortBy cmp l' :=
  h.eq_sortBy ((sortBy_perm l).trans hp) (h.sortBy_pairwise l)

/-- Items can be compared by their images, if these tell them apart. -/
theorem Lawful.comap {f : β → α} (h : Lawful cmp) (hf : Function.Injective f) : Lawful fun a b => cmp (f a) (f b) :=
  ⟨fun _ _ => (h.eq_zero_iff _ _).trans hf.eq_iff, fun _ _ => h.swap _ _, fun _ _ _ => h.trans _ _ _⟩

theorem Lawful.map_sortBy {f : β → α} (h : Lawful cmp) (hf : Function.Injective f) (l : List β) :
    (sortBy (fun a b => cmp (f a) (f b)) l).map f = sortBy cmp (l.map f) :=
  h.eq_sortBy ((sortBy_perm l).map f) (pairwise_map.mpr ((h.comap hf).sortBy_pairwise l))

/-- A strict order that agrees with a comparison sorts as it does. -/
theorem Lawful.sortLess_eq (h : Lawful cmp) {less : α → α → Bool} (hless : ∀ a b, less a b = true ↔ cmp a b < 0)
    (l : List α) : sortLess less l = sortBy cmp l := by
  have hle : ∀ a b, less b a = false ↔ cmp a b ≤ 0 := by
    intro a b
    have hswap := h.swap a b
    rw [← Bool.not_eq_true, hless]
    omega
  simp only [sortLess, sortBy, hle]

/-- Sorted by a key that tells the items apart, a list depends on the items alone. -/
theorem Lawful.sortLess_key_eq_of_perm (h : Lawful cmp) {key : β → α} {less : β → β → Bool}
    (hless : ∀ a b, less a b = true ↔ cmp (key a) (key b) < 0) {l l' : List β} (hkeys : (l.map key).Nodup)
    (hp : l.Perm l') : sortLess less l = sortLess less l' := by
  have hle : ∀ a b, less b a = false ↔ cmp (key a) (key b) ≤ 0 := by
    intro a b
    have hswap := h.swap (key a) (key b)
    rw [← Bool.not_eq_true, hless]
    omega
  have htrans : IsTrans β fun a b => less b a = false := by
    refine ⟨fun a b c hab hbc => ?_⟩
    rw [hle] at hab hbc ⊢
    exact h.trans _ _ _ hab hbc
  have htotal : Std.Total fun a b : β => less b a = false := by
    refine ⟨fun a b => ?_⟩
    have hswap := h.swap (key a) (key b)
    rw [hle, hle]
    omega
  refine List.Perm.eq_of_pairwise ?_ (pairwise_insertionSort _ l) (pairwise_insertionSort _ l')
    ((sortLess_perm l).trans (hp.trans (sortLess_perm l').symm))
  intro a b ha hb hab hba
  rw [hle] at hab hba
  have hswap := h.swap (key b) (key a)
  have hkey : key a = key b := (h.eq_zero_iff _ _).mp (by omega)
  have ha' := (sortLess_perm l).mem_iff.mp ha
  have hb' := hp.mem_iff.mpr ((sortLess_perm l').mem_iff.mp hb)
  exact inj_on_of_nodup_map hkeys ha' hb' hkey

end Order

/-! ## Byte strings -/

/-- Bytes are compared as numbers at the first difference; of a string and a longer one the shorter comes first. -/
def compareBytes : Bytes → Bytes → Int
  | a :: as, b :: bs => if a ≠ b then (a.toNat : Int) - b.toNat else compareBytes as bs
  | as, bs => (as.length : Int) - bs.length

theorem compareBytes_cons_self (a : UInt8) (as bs : Bytes) : compareBytes (a :: as) (a :: bs) = compareBytes as bs := by
  rw [compareBytes, if_neg (not_not.mpr rfl)]

theorem compareBytes_cons_ne {a b : UInt8} (h : a ≠ b) (as bs : Bytes) :
    compareBytes (a :: as) (b :: bs) = (a.toNat : Int) - b.toNat := by
  rw [compareBytes, if_pos h]

theorem compareBytes_nil_right (as : Bytes) : compareBytes as [] = as.length := by
  cases as <;> simp [compareBytes]

theorem compareBytes_nil_left (bs : Bytes) : compareBytes [] bs = -(bs.length : Int) := by
  simp [compareBytes]

/-- The order is that of the byte strings. -/
theorem compareBytes_neg_iff : ∀ {as bs : Bytes}, compareBytes as bs < 0 ↔ as < bs
  | as, [] => by simp [compareBytes_nil_right]
  | [], b :: bs => by
    rw [compareBytes_nil_left]
    simp only [length_cons, nil_lt_cons, iff_true]
    omega
  | a :: as, b :: bs => by
    rw [cons_lt_cons_iff]
    by_cases hab : a = b
    · subst hab
      rw [compareBytes_cons_self, compareBytes_neg_iff]
      simp
    · rw [compareBytes_cons_ne hab, UInt8.lt_iff_toNat_lt]
      simp only [hab, false_and, or_false]
      omega

theorem compareBytes_swap : ∀ (as bs : Bytes), compareBytes bs as < 0 ↔ 0 < compareBytes as bs
  | as, [] | [], b :: bs => by
    rw [compareBytes_nil_left, compareBytes_nil_right]
    omega
  | a :: as, b :: bs => by
    by_cases hab : a = b
    · subst hab
      rw [compareBytes_cons_self, compareBytes_cons_self, compareBytes_swap]
    · rw [compareBytes_cons_ne hab, compareBytes_cons_ne (Ne.symm hab)]
      omega

theorem compareBytes_eq_zero_iff (as bs : Bytes) : compareBytes as bs = 0 ↔ as = bs := by
  have hlt : compareBytes as bs < 0 ↔ as < bs := compareBytes_neg_iff
  have hgt := (compareBytes_swap as bs).symm.trans compareBytes_neg_iff
  constructor
  · intro h
    exact List.le_antisymm (List.not_lt.mp (mt hgt.mpr (by omega))) (List.not_lt.mp (mt hlt.mpr (by omega)))
  · rintro rfl
    have := mt hlt.mp (List.lt_irrefl as)
    have := mt hgt.mp (List.lt_irrefl as)
    omega

theorem compareBytes_trans : ∀ (as bs cs : Bytes), compareBytes as bs ≤ 0 → compareBytes bs cs ≤ 0 →
    compareBytes as cs ≤ 0
  | [], _, cs, _, _ => by
    rw [compareBytes_nil_left]
    omega
  | a :: as, [], _, hab, _ => by
    rw [compareBytes_nil_right, length_cons] at hab
    omega
  | a :: as, b :: bs, [], _, hbc => by
    rw [compareBytes_nil_right, length_cons] at hbc
    omega
  | a :: as, b :: bs, c :: cs, hab, hbc => by
    by_cases h1 : a = b
    · subst h1
      rw [compareBytes_cons_self] at hab
      by_cases h2 : a = c
      · subst h2
        rw [compareBytes_cons_self] at hbc ⊢
        exact compareBytes_trans as bs cs hab hbc
      · rw [compareBytes_cons_ne h2] at hbc ⊢
        exact hbc
    · -- the first bytes differ already: the first one is below both others
      have hne : a.toNat ≠ b.toNat := fun h => h1 (UInt8.toNat_inj.mp h)
      rw [compareBytes_cons_ne h1] at hab
      have hle : (b.toNat : Int) ≤ c.toNat := by
        by_cases h2 : b = c
        · rw [h2]
        · rw [compareBytes_cons_ne h2] at hbc
          omega
      have h3 : a ≠ c := by
        rintro rfl
        omega
      rw [compareBytes_cons_ne h3]
      omega

theorem compareBytes_lawful : Lawful compareBytes :=
  ⟨compareBytes_eq_zero_iff, compareBytes_swap, compareBytes_trans⟩

end Comparison
