import Mathlib.Algebra.Order.Ring.Nat
import Mathlib.Data.Nat.Log
import Mathlib.Tactic.Ring

/-!
# Double-precision numbers

Three views of a binary64 number are enough here. As a word, its sign, its finiteness and whether it lies in the unit
interval are read off the bits (`isCanonicalUnit_iff`). As what an integer literal is read as, it is the nearest number
with 53 significant bits, ties to even (`roundInt`): rounding is monotone (`roundInt_mono`) and fixes what it returns
(`roundInt_roundInt`). The exponent is not bounded, so no integer overflows. A literal of any form is read as a `Value`,
which a conversion to an integer truncates (`trunc`) or clamps (`Value.toInt64`).
-/

namespace Binary64

/-! ## Words -/

/-- The word of `1.0`. -/
def one : UInt64 := 0x3FF0000000000000

def isSignNegative (w : UInt64) : Bool := decide (2 ^ 63 ≤ w.toNat)

/-- The word without its sign; magnitudes are ordered as the numbers they encode. -/
def magnitude (w : UInt64) : Nat := w.toNat % 2 ^ 63

/-- Neither infinite nor a NaN: the exponent is not all ones. -/
def isFinite (w : UInt64) : Bool := decide (magnitude w < 0x7FF0000000000000)

/-- `0.0 <= x && x <= 1.0`; the zeros of both signs are equal, and a NaN is in no interval. -/
def inUnit (w : UInt64) : Bool :=
  isFinite w && (!isSignNegative w || magnitude w == 0) && (isSignNegative w || decide (magnitude w ≤ one.toNat))

/-- Finite, in the unit interval and not `-0.0`. -/
def isCanonicalUnit (w : UInt64) : Bool := isFinite w && inUnit w && !isSignNegative w

variable {n m : Nat} {w : UInt64} {a : Int}

theorem isFinite_iff : isFinite w = true ↔ magnitude w < 0x7FF0000000000000 := decide_eq_true_iff

theorem isSignNegative_iff : isSignNegative w = true ↔ 2 ^ 63 ≤ w.toNat := decide_eq_true_iff

/-- The canonical words of the unit interval are those up to the word of `1.0`. -/
theorem isCanonicalUnit_iff : isCanonicalUnit w = true ↔ w ≤ one := by
  have hone : one.toNat = 0x3FF0000000000000 := rfl
  simp only [isCanonicalUnit, inUnit, Bool.and_eq_true, Bool.or_eq_true, Bool.not_eq_true', ← Bool.not_eq_true,
    isFinite_iff, isSignNegative_iff, beq_iff_eq, decide_eq_true_eq, UInt64.le_iff_toNat_le, hone, magnitude]
  constructor
  · intro h
    omega
  · intro h
    have hmod : w.toNat % 2 ^ 63 = w.toNat := Nat.mod_eq_of_lt (by omega)
    omega

/-! ## Rounding at a fixed scale -/

/-- The multiple of `2 ^ s` nearest to `n`, the even one of two. -/
def nearest (s n : Nat) : Nat :=
  let q := n / 2 ^ s
  let r := n % 2 ^ s
  (if 2 * r < 2 ^ s then q else if 2 ^ s < 2 * r then q + 1 else q + q % 2) * 2 ^ s

/-- The multiple is that of the quotient or the next one. -/
theorem nearest_bounds (s n : Nat) : n / 2 ^ s * 2 ^ s ≤ nearest s n ∧ nearest s n ≤ (n / 2 ^ s + 1) * 2 ^ s := by
  simp only [nearest]
  constructor
  · apply Nat.mul_le_mul_right
    split_ifs <;> omega
  · apply Nat.mul_le_mul_right
    split_ifs <;> omega

theorem nearest_mono {s : Nat} (h : n ≤ m) : nearest s n ≤ nearest s m := by
  have hq : n / 2 ^ s ≤ m / 2 ^ s := Nat.div_le_div_right h
  rcases Nat.lt_or_ge (n / 2 ^ s) (m / 2 ^ s) with hlt | hge
  · calc
      nearest s n ≤ (n / 2 ^ s + 1) * 2 ^ s := (nearest_bounds s n).2
      _ ≤ m / 2 ^ s * 2 ^ s := Nat.mul_le_mul_right _ hlt
      _ ≤ nearest s m := (nearest_bounds s m).1
  · have heq : m / 2 ^ s = n / 2 ^ s := Nat.le_antisymm hge hq
    have hn := Nat.div_add_mod n (2 ^ s)
    have hm := Nat.div_add_mod m (2 ^ s)
    rw [heq] at hm
    simp only [nearest, heq]
    apply Nat.mul_le_mul_right
    split_ifs <;> omega

/-- A multiple is its own rounding. -/
theorem nearest_of_dvd {s : Nat} (h : 2 ^ s ∣ n) : nearest s n = n := by
  have hpos : 0 < 2 ^ s := Nat.two_pow_pos s
  have hr : n % 2 ^ s = 0 := Nat.mod_eq_zero_of_dvd h
  simp only [nearest, hr, Nat.mul_zero, if_pos hpos]
  exact Nat.div_mul_cancel h

/-! ## Rounding to 53 bits -/

/-- The exponent of the last of the 53 leading bits. -/
def scale (n : Nat) : Nat := n.log2 - 52

/-- An integer as the nearest number with 53 significant bits. -/
def roundNat (n : Nat) : Nat := nearest (scale n) n

theorem scale_mono (h : n ≤ m) : scale n ≤ scale m := by
  have hlog : n.log2 ≤ m.log2 := by
    rw [Nat.log2_eq_log_two, Nat.log2_eq_log_two]
    exact Nat.log_mono_right h
  simp only [scale]
  omega

theorem lt_two_pow_scale (n : Nat) : n < 2 ^ (scale n + 53) := by
  have hle : n.log2 + 1 ≤ scale n + 53 := by
    simp only [scale]
    omega
  exact lt_of_lt_of_le Nat.lt_log2_self (Nat.pow_le_pow_right (by decide) hle)

/-- A number of positive scale has 53 bits above it. -/
theorem two_pow_scale_le (h : 0 < scale n) : 2 ^ (scale n + 52) ≤ n := by
  have hlog : n.log2 = scale n + 52 := by
    simp only [scale] at h ⊢
    omega
  have hn : n ≠ 0 := by
    rintro rfl
    simp [scale] at h
  rw [← hlog]
  exact Nat.log2_self_le hn

theorem roundNat_le (n : Nat) : roundNat n ≤ 2 ^ (scale n + 53) := by
  have hq : n / 2 ^ scale n < 2 ^ 53 := by
    apply Nat.div_lt_of_lt_mul
    rw [← Nat.pow_add]
    exact lt_two_pow_scale n
  calc
    roundNat n ≤ (n / 2 ^ scale n + 1) * 2 ^ scale n := (nearest_bounds _ n).2
    _ ≤ 2 ^ 53 * 2 ^ scale n := Nat.mul_le_mul_right _ hq
    _ = 2 ^ (scale n + 53) := by rw [← Nat.pow_add, Nat.add_comm]

theorem le_roundNat (h : 0 < scale n) : 2 ^ (scale n + 52) ≤ roundNat n := by
  have hq : 2 ^ 52 ≤ n / 2 ^ scale n := by
    rw [Nat.le_div_iff_mul_le (Nat.two_pow_pos _), ← Nat.pow_add, Nat.add_comm]
    exact two_pow_scale_le h
  calc
    2 ^ (scale n + 52) = 2 ^ 52 * 2 ^ scale n := by rw [← Nat.pow_add, Nat.add_comm]
    _ ≤ n / 2 ^ scale n * 2 ^ scale n := Nat.mul_le_mul_right _ hq
    _ ≤ roundNat n := (nearest_bounds _ n).1

theorem roundNat_mono (h : n ≤ m) : roundNat n ≤ roundNat m := by
  rcases Nat.lt_or_ge (scale n) (scale m) with hlt | hge
  · -- the smaller number rounds to at most the power of two that the larger one reaches
    calc
      roundNat n ≤ 2 ^ (scale n + 53) := roundNat_le n
      _ ≤ 2 ^ (scale m + 52) := Nat.pow_le_pow_right (by decide) (by omega)
      _ ≤ roundNat m := le_roundNat (by omega)
  · have heq : scale n = scale m := Nat.le_antisymm (scale_mono h) hge
    rw [roundNat, roundNat, heq]
    exact nearest_mono h

/-- What rounding returns has at most 53 significant bits. -/
theorem two_pow_scale_dvd_roundNat (n : Nat) : 2 ^ scale (roundNat n) ∣ roundNat n := by
  have hdvd : 2 ^ scale n ∣ roundNat n := Dvd.intro_left _ rfl
  rcases Nat.lt_or_ge (scale n) (scale (roundNat n)) with hlt | hge
  · -- the rounding carried into a new bit, so the result is a power of two
    have hlow := two_pow_scale_le (n := roundNat n) (by omega)
    have hpow : 2 ^ (scale n + 53) ≤ 2 ^ (scale (roundNat n) + 52) := Nat.pow_le_pow_right (by decide) (by omega)
    have heq : roundNat n = 2 ^ (scale n + 53) := Nat.le_antisymm (roundNat_le n) (hpow.trans hlow)
    have hexp : scale (roundNat n) ≤ scale n + 53 := by
      have := (Nat.pow_le_pow_iff_right (by decide : 1 < 2)).mp (hlow.trans (roundNat_le n))
      omega
    have hgoal : 2 ^ scale (roundNat n) ∣ 2 ^ (scale n + 53) := Nat.pow_dvd_pow 2 hexp
    rwa [← heq] at hgoal
  · exact (Nat.pow_dvd_pow 2 hge).trans hdvd

theorem roundNat_roundNat (n : Nat) : roundNat (roundNat n) = roundNat n :=
  nearest_of_dvd (two_pow_scale_dvd_roundNat n)

/-! ## Integers -/

/-- The double nearest to an integer. -/
def roundInt : Int → Int
  | .ofNat n => roundNat n
  | .negSucc n => -(roundNat (n + 1) : Int)

/-- **Rounding is monotone.** -/
theorem roundInt_mono {b : Int} (h : a ≤ b) : roundInt a ≤ roundInt b := by
  match a, b with
  | .ofNat n, .ofNat m =>
    exact Int.ofNat_le.mpr (roundNat_mono (Int.ofNat_le.mp h))
  | .negSucc n, .ofNat m =>
    simp only [roundInt]
    omega
  | .ofNat n, .negSucc m =>
    simp only [Int.ofNat_eq_natCast] at h
    omega
  | .negSucc n, .negSucc m =>
    have := roundNat_mono (n := m + 1) (m := n + 1) (by omega)
    simp only [roundInt]
    omega

theorem roundInt_neg (n : Nat) : roundInt (-(n : Int)) = -(roundNat n : Int) := by
  cases n with
  | zero => rfl
  | succ n => rfl

/-- **A double is read as itself.** -/
theorem roundInt_roundInt (a : Int) : roundInt (roundInt a) = roundInt a := by
  cases a with
  | ofNat n => exact congrArg Int.ofNat (roundNat_roundNat n)
  | negSucc n => rw [roundInt, roundInt_neg, roundNat_roundNat]

/-- A number below a double rounds below it, and one that rounds below is below. -/
theorem lt_roundInt_of_roundInt_lt {b : Int} (h : roundInt a < roundInt b) : a < roundInt b := by
  by_contra hle
  have := roundInt_mono (Int.not_lt.mp hle)
  rw [roundInt_roundInt] at this
  omega

/-- Integers of up to 53 bits are doubles. -/
theorem roundInt_of_natAbs_le (h : a.natAbs ≤ 2 ^ 53) : roundInt a = a := by
  have hfix : ∀ n ≤ 2 ^ 53, roundNat n = n := by
    intro n hn
    apply nearest_of_dvd
    rcases Nat.lt_or_eq_of_le hn with hlt | rfl
    · have hlog : n.log2 ≤ 52 := by
        by_cases h0 : n = 0
        · subst h0
          decide
        · exact Nat.lt_succ_iff.mp ((Nat.log2_lt h0).mpr hlt)
      have hscale : scale n = 0 := by
        simp only [scale]
        omega
      rw [hscale]
      exact Nat.one_dvd n
    · decide
  cases a with
  | ofNat n => exact congrArg Int.ofNat (hfix n h)
  | negSucc n =>
    have := hfix (n + 1) h
    simp only [roundInt]
    omega

/-! ## Values -/

/-- What a number literal is read as: past the largest double it is infinite. -/
inductive Value
  | finite (q : Rat)
  | infinite (neg : Bool)

/-- Truncation toward zero. -/
def trunc (q : Rat) : Int := q.num.tdiv q.den

/-- The conversion to a 64-bit signed integer that saturates at both ends. -/
def Value.toInt64 : Value → Int
  | .finite q => max (-2 ^ 63) (min (2 ^ 63 - 1) (trunc q))
  | .infinite neg => if neg then -2 ^ 63 else 2 ^ 63 - 1

theorem trunc_intCast (a : Int) : trunc (a : Rat) = a := by
  rw [trunc, Rat.num_intCast, Rat.den_intCast]
  exact Int.tdiv_one a

end Binary64
