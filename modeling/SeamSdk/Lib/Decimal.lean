import Mathlib.Data.List.Basic
import Mathlib.Data.List.Induction
import Mathlib.Data.Rat.Defs
import Mathlib.Algebra.Order.Field.Rat
import Mathlib.Tactic.Ring

/-!
# Decimal numbers and their texts

A `Decimal` is a sign, digits without a zero at either end and the place of the point: `0.d₁d₂… × 10ⁿ`. This is how a
double that is not zero is printed: by the digits that read back as it. `toText` writes them as ECMA-262 writes a number,
with or without an exponent by the place of the point.
-/

/-- A decimal number that is not zero. -/
structure Decimal where
  neg : Bool
  digits : List Char
  point : Int
  allDigits : digits.all Char.isDigit = true
  ne_nil : digits ≠ []
  head_ne : digits.head? ≠ some '0'
  last_ne : digits.getLast? ≠ some '0'

namespace Decimal

open List Nat

/-- The number that decimal digits write. -/
def natOf (ds : List Char) : Nat := Nat.ofDigitChars 10 ds 0

/-- The decimal digits of a number. -/
def natText (n : Nat) : List Char := Nat.toDigits 10 n

/-- The number a sign, digits and a power of ten write. -/
def scaled (neg : Bool) (ds : List Char) (e : Int) : Rat := (if neg then -1 else 1) * natOf ds * 10 ^ e

def value (d : Decimal) : Rat := scaled d.neg d.digits (d.point - d.digits.length)

def intText (n : Int) : List Char := (if n < 0 then ['-'] else []) ++ natText n.natAbs

/-- The first digit, and the others behind a point. -/
def mantissa (ds : List Char) : List Char := ds.take 1 ++ (if 1 < ds.length then '.' :: ds.drop 1 else [])

/-- `Number::toString` with radix 10, for the digits `s` of length `k` and the place `n` of the point. -/
def toText (d : Decimal) : List Char :=
  let s := d.digits
  let k : Int := s.length
  let n := d.point
  (if d.neg then ['-'] else []) ++
    if -5 ≤ n ∧ n ≤ 21 then
      if k ≤ n then s ++ List.replicate (n - k).toNat '0'
      else if 0 < n then s.take n.toNat ++ '.' :: s.drop n.toNat
      else '0' :: '.' :: List.replicate (-n).toNat '0' ++ s
    else mantissa s ++ 'e' :: (if 0 < n then '+' else '-') :: natText (n - 1).natAbs

/-! ## Digits -/

theorem digit_bounds {c : Char} (h : c.isDigit = true) : 48 ≤ c.toNat ∧ c.toNat ≤ 57 := by
  simp only [Char.isDigit, Bool.and_eq_true, decide_eq_true_eq] at h
  exact h

theorem ascii_of_digits {ds : List Char} (h : ds.all Char.isDigit = true) : ∀ c ∈ ds, c.toNat < 128 := by
  intro c hc
  have := digit_bounds (all_eq_true.mp h c hc)
  omega

theorem takeWhile_digits {ds rest : List Char} (hds : ds.all Char.isDigit = true)
    (hrest : ∀ c ∈ rest.head?, c.isDigit = false) :
    (ds ++ rest).takeWhile Char.isDigit = ds ∧ (ds ++ rest).dropWhile Char.isDigit = rest := by
  have hall := all_eq_true.mp hds
  rw [takeWhile_append_of_pos hall, dropWhile_append_of_pos hall]
  cases rest with
  | nil => simp
  | cons c rest => simp [hrest c rfl]

theorem all_replicate_zero (n : Nat) : (List.replicate n '0').all Char.isDigit = true := by
  rw [all_eq_true]
  intro c hc
  rw [eq_of_mem_replicate hc]
  rfl

theorem all_take_drop {ds : List Char} (h : ds.all Char.isDigit = true) (i : Nat) :
    (ds.take i).all Char.isDigit = true ∧ (ds.drop i).all Char.isDigit = true := by
  simp only [all_eq_true] at h ⊢
  exact ⟨fun c hc => h c (mem_of_mem_take hc), fun c hc => h c (mem_of_mem_drop hc)⟩

theorem mantissa_eq (ds : List Char) :
    mantissa ds = ds.take 1 ++ (if ds.drop 1 = [] then [] else '.' :: ds.drop 1) := by
  have hiff : ds.drop 1 = [] ↔ ¬1 < ds.length := by
    rw [drop_eq_nil_iff]
    omega
  simp only [mantissa, hiff, ite_not]

theorem natText_ne_nil (n : Nat) : natText n ≠ [] := toDigits_ne_nil

theorem all_natText (n : Nat) : (natText n).all Char.isDigit = true :=
  all_eq_true.mpr fun _ hc => isDigit_of_mem_toDigits (by omega) (by omega) hc

/-- A number that is not zero is written without a zero in front. -/
theorem head_natText_ne {n : Nat} (h : n ≠ 0) : (natText n).head? ≠ some '0' := by
  unfold natText
  induction n using Nat.strongRecOn with
  | _ n ih =>
    by_cases hlt : n < 10
    · rw [toDigits_of_lt_base hlt, List.head?_cons, ne_eq, Option.some.injEq, digitChar_eq_zero]
      exact h
    · rw [toDigits_of_base_le (by omega) (by omega), List.head?_append_of_ne_nil _ toDigits_ne_nil]
      exact ih (n / 10) (by omega) (by omega)

theorem natOf_append (ds es : List Char) : natOf (ds ++ es) = natOf ds * 10 ^ es.length + natOf es := by
  unfold natOf
  rw [ofDigitChars_eq_foldl, foldl_append, ← ofDigitChars_eq_foldl, ← ofDigitChars_eq_foldl,
    ofDigitChars_eq_ofDigitChars_zero, mul_comm]

theorem natOf_replicate_zero (n : Nat) : natOf (List.replicate n '0') = 0 := by
  induction n with
  | zero => rfl
  | succ n ih =>
    have hzero : natOf ['0'] = 0 := rfl
    rw [replicate_succ, ← singleton_append, natOf_append, ih, hzero, zero_mul]

theorem natOf_natText (n : Nat) : natOf (natText n) = n := ofDigitChars_ten_toDigits

theorem scaled_append_zeros (neg : Bool) (ds : List Char) (n : Nat) (e : Int) :
    scaled neg (ds ++ List.replicate n '0') e = scaled neg ds (e + n) := by
  unfold scaled
  rw [natOf_append, natOf_replicate_zero, length_replicate, add_zero, zpow_add₀ (by decide), zpow_natCast]
  push_cast
  ring

theorem scaled_zeros_append (neg : Bool) (n : Nat) (ds : List Char) (e : Int) :
    scaled neg (List.replicate n '0' ++ ds) e = scaled neg ds e := by
  unfold scaled
  rw [natOf_append, natOf_replicate_zero, zero_mul, zero_add]

theorem scaled_natText (n : Int) : scaled (decide (n < 0)) (natText n.natAbs) 0 = n := by
  unfold scaled
  rw [natOf_natText, zpow_zero, mul_one]
  by_cases h : n < 0
  · have habs : (n.natAbs : Int) = -n := by omega
    have hcast : ((n.natAbs : Nat) : Rat) = ((n.natAbs : Int) : Rat) := rfl
    rw [hcast, habs]
    simp [h]
  · have habs : (n.natAbs : Int) = n := by omega
    have hcast : ((n.natAbs : Nat) : Rat) = ((n.natAbs : Int) : Rat) := rfl
    rw [hcast, habs]
    simp [h]

/-! ## Numbers that are decimals -/

theorem exists_strip (ds : List Char) : ∃ es z, ds = es ++ List.replicate z '0' ∧ es.getLast? ≠ some '0' := by
  induction ds using List.reverseRecOn with
  | nil => exact ⟨[], 0, rfl, by simp⟩
  | append_singleton ds c ih =>
    by_cases hc : c = '0'
    · subst hc
      obtain ⟨es, z, hds, hlast⟩ := ih
      refine ⟨es, z + 1, ?_, hlast⟩
      rw [hds, append_assoc, ← replicate_succ']
    · exact ⟨ds ++ [c], 0, by simp, by simpa using hc⟩

/-- Every integer but zero is a decimal. -/
theorem exists_value_eq {n : Int} (h : n ≠ 0) : ∃ d : Decimal, d.value = n := by
  obtain ⟨es, z, hds, hlast⟩ := exists_strip (natText n.natAbs)
  have hall := all_natText n.natAbs
  have hhead := head_natText_ne (n := n.natAbs) (by omega)
  have hne : es ≠ [] := by
    rintro rfl
    have hzero := natOf_natText n.natAbs
    rw [hds, nil_append, natOf_replicate_zero] at hzero
    omega
  rw [hds, all_append, Bool.and_eq_true] at hall
  rw [hds, List.head?_append_of_ne_nil _ hne] at hhead
  refine ⟨⟨decide (n < 0), es, es.length + z, hall.1, hne, hhead, hlast⟩, ?_⟩
  have hpoint : ((es.length : Int) + z - es.length) = 0 + z := by omega
  rw [value]
  dsimp only
  rw [hpoint, ← scaled_append_zeros, ← hds, scaled_natText]

theorem natOf_pos {ds : List Char} (hall : ds.all Char.isDigit = true) (hne : ds ≠ []) (hhead : ds.head? ≠ some '0') :
    0 < natOf ds := by
  cases ds with
  | nil => exact absurd rfl hne
  | cons c ds =>
    have hdigit : c.isDigit = true := all_eq_true.mp hall c mem_cons_self
    have hc : c ≠ '0' := by simpa using hhead
    have hpos : 0 < natOf [c] := by
      have h48 : c.toNat ≠ 48 := fun h => hc (Char.toNat_inj.mp h)
      have hlow : 48 ≤ c.toNat := by
        simp only [Char.isDigit, Bool.and_eq_true, decide_eq_true_eq] at hdigit
        exact hdigit.1
      show 0 < 10 * 0 + (c.toNat - 48)
      omega
    have happend := natOf_append [c] ds
    rw [singleton_append] at happend
    have hmul : 0 < natOf [c] * 10 ^ ds.length := Nat.mul_pos hpos (Nat.pow_pos (by decide))
    omega

theorem value_ne_zero (d : Decimal) : d.value ≠ 0 := by
  have hpos := natOf_pos d.allDigits d.ne_nil d.head_ne
  have hnat : (natOf d.digits : Rat) ≠ 0 := by exact_mod_cast hpos.ne'
  have hten : (10 : Rat) ^ (d.point - d.digits.length) ≠ 0 := zpow_ne_zero _ (by norm_num)
  unfold value scaled
  split <;> simp [hnat, hten]

end Decimal
