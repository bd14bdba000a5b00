import SeamSdk.Lib.Decimal
import Mathlib.Algebra.Order.Field.Power
import Mathlib.Tactic.Linarith
import Mathlib.Tactic.Positivity

/-!
# The form of the text of a decimal

A decimal is its value: two decimals with one value are the same (`value_injective`). Its value lies between two powers of
ten (`abs_value_bounds`), so that the place of the point says how it is written:

- `literal_toText`: the text writes the value;
- `toText_positional`: up to `10 ^ 21` and from `10 ^ -6` on without an exponent, no zero at either end;
- `toText_exponential`: otherwise with one digit before the point and an exponent that has a sign.
-/

namespace Decimal

open List Nat Bool

/-! ## Digits -/

/-- The power of ten behind the digits taken as an integer. -/
def exponent (d : Decimal) : Int := d.point - d.digits.length

theorem natOf_cons (c : Char) (ds : List Char) : natOf (c :: ds) = (c.toNat - 48) * 10 ^ ds.length + natOf ds := by
  rw [← singleton_append, natOf_append]
  simp [natOf, ofDigitChars_cons]

variable {ds : List Char} {c : Char} {n : Int}

theorem natOf_lt (h : ds.all Char.isDigit = true) : natOf ds < 10 ^ ds.length := by
  induction ds with
  | nil => decide
  | cons c ds ih =>
    rw [all_cons, and_eq_true] at h
    have hc := digit_bounds h.1
    have hds := ih h.2
    have hdigit : (c.toNat - 48) * 10 ^ ds.length ≤ 9 * 10 ^ ds.length := mul_le_mul_right _ (by omega)
    rw [natOf_cons, length_cons, pow_succ]
    omega

/-- Digits without a zero in front write a number of their length. -/
theorem pow_le_natOf (hall : ds.all Char.isDigit = true) (hne : ds ≠ []) (hhead : ds.head? ≠ some '0') :
    10 ^ (ds.length - 1) ≤ natOf ds := by
  cases ds with
  | nil => exact absurd rfl hne
  | cons c ds =>
    rw [all_cons, and_eq_true] at hall
    have hc := digit_bounds hall.1
    have hzero : c.toNat ≠ 48 := fun h => hhead (congrArg some (Char.toNat_inj.mp h))
    have hdigit : 1 * 10 ^ ds.length ≤ (c.toNat - 48) * 10 ^ ds.length := mul_le_mul_right _ (by omega)
    rw [natOf_cons, length_cons, Nat.add_sub_cancel]
    omega

/-- Digits of one length are told apart by their number. -/
theorem eq_of_natOf_eq : ∀ {ds es : List Char}, ds.all Char.isDigit = true → es.all Char.isDigit = true →
    ds.length = es.length → natOf ds = natOf es → ds = es
  | [], [], _, _, _, _ => rfl
  | c :: ds, d :: es, hds, hes, hlen, h => by
    rw [all_cons, and_eq_true] at hds hes
    have hc := digit_bounds hds.1
    have hd := digit_bounds hes.1
    have hlen : ds.length = es.length := by simpa using hlen
    have hlow := natOf_lt hds.2
    have hlow' := natOf_lt hes.2
    rw [natOf_cons, natOf_cons, hlen] at h
    rw [hlen] at hlow
    -- the digits in front are the quotients, the numbers behind them the remainders
    have hquot := congrArg (· / 10 ^ es.length) h
    have hrem := congrArg (· % 10 ^ es.length) h
    have hpos : 0 < 10 ^ es.length := Nat.pow_pos (by decide)
    simp only [mul_comm _ (10 ^ es.length), mul_add_div hpos, mul_add_mod, div_eq_of_lt hlow,
      div_eq_of_lt hlow', mod_eq_of_lt hlow, mod_eq_of_lt hlow', add_zero] at hquot hrem
    have hcd : c = d := Char.toNat_inj.mp (by omega)
    rw [hcd, eq_of_natOf_eq hds.2 hes.2 hlen hrem]

/-- Digits without a zero in front are those of their number. -/
theorem natText_natOf (hall : ds.all Char.isDigit = true) (hne : ds ≠ []) (hhead : ds.head? ≠ some '0') :
    natText (natOf ds) = ds := by
  have hpos := natOf_pos hall hne hhead
  have htext := natOf_natText (natOf ds)
  have hshort : ∀ {es fs : List Char}, 10 ^ (es.length - 1) ≤ natOf es → natOf fs < 10 ^ fs.length →
      natOf es = natOf fs → es.length ≤ fs.length := by
    intro es fs hes hfs h
    have hlt := (Nat.pow_lt_pow_iff_right (by decide)).mp ((h ▸ hes).trans_lt hfs)
    omega
  have hlow := pow_le_natOf (all_natText (natOf ds)) (natText_ne_nil _) (head_natText_ne hpos.ne')
  have hlen : (natText (natOf ds)).length = ds.length :=
    le_antisymm (hshort hlow (natOf_lt hall) htext)
      (hshort (pow_le_natOf hall hne hhead) (natOf_lt (all_natText _)) htext.symm)
  exact eq_of_natOf_eq (all_natText _) hall hlen htext

section Bounds

variable (d : Decimal)

theorem length_pos : 0 < d.digits.length := length_pos_iff.mpr d.ne_nil

theorem le_natOf : 10 ^ (d.digits.length - 1) ≤ natOf d.digits := pow_le_natOf d.allDigits d.ne_nil d.head_ne

/-- The last digit is not zero. -/
theorem natOf_mod_ten : natOf d.digits % 10 ≠ 0 := by
  have hall := d.allDigits
  have hlast := d.last_ne
  have hne := d.ne_nil
  generalize d.digits = ds at *
  induction ds using List.reverseRecOn with
  | nil => exact absurd rfl hne
  | append_singleton ds c _ =>
    rw [all_append, and_eq_true, all_cons, and_eq_true] at hall
    have hc := digit_bounds hall.2.1
    have hzero : c.toNat ≠ 48 := fun h => hlast (by simpa using Char.toNat_inj.mp h)
    rw [natOf_append, natOf_cons]
    simp only [length_nil, pow_zero, mul_one, length_singleton, pow_one]
    have : natOf [] = 0 := rfl
    omega

theorem abs_value : |d.value| = natOf d.digits * (10 : Rat) ^ (d.point - d.digits.length) := by
  have hpow : (0 : Rat) < 10 ^ (d.point - d.digits.length) := by positivity
  unfold value scaled
  rw [abs_mul, abs_mul, abs_of_pos hpow, abs_cast]
  split <;> simp

/-- **The value lies between two powers of ten.** -/
theorem abs_value_bounds : (10 : Rat) ^ (d.point - 1) ≤ |d.value| ∧ |d.value| < (10 : Rat) ^ d.point := by
  have hlow : (10 : Rat) ^ (d.digits.length - 1) ≤ natOf d.digits := by exact_mod_cast d.le_natOf
  have hhigh : (natOf d.digits : Rat) < 10 ^ d.digits.length := by exact_mod_cast natOf_lt d.allDigits
  have hpow : (0 : Rat) < 10 ^ (d.point - d.digits.length) := by positivity
  have hlen := d.length_pos
  have hsmall : (10 : Rat) ^ (d.point - 1) =
      10 ^ (d.digits.length - 1) * (10 : Rat) ^ (d.point - d.digits.length) := by
    rw [← zpow_natCast, ← zpow_add₀ (by norm_num)]
    congr 1
    omega
  have hlarge : (10 : Rat) ^ d.point = 10 ^ d.digits.length * (10 : Rat) ^ (d.point - d.digits.length) := by
    rw [← zpow_natCast, ← zpow_add₀ (by norm_num)]
    congr 1
    omega
  rw [abs_value, hsmall, hlarge]
  exact ⟨mul_le_mul_of_nonneg_right hlow hpow.le, mul_lt_mul_of_pos_right hhigh hpow⟩

/-- From which place of the point on a value is at least a power of ten. -/
theorem zpow_le_abs_value_iff (m : Int) : (10 : Rat) ^ m ≤ |d.value| ↔ m < d.point := by
  obtain ⟨hlow, hhigh⟩ := d.abs_value_bounds
  constructor
  · intro h
    exact (zpow_lt_zpow_iff_right₀ (by norm_num)).mp (h.trans_lt hhigh)
  · intro h
    exact (zpow_le_zpow_right₀ (by norm_num) (by omega)).trans hlow

/-- The range in which no exponent is written. -/
def Fixed : Prop := (10 : Rat) ^ (-6 : Int) ≤ |d.value| ∧ |d.value| < (10 : Rat) ^ (21 : Int)

theorem fixed_iff : d.Fixed ↔ -5 ≤ d.point ∧ d.point ≤ 21 := by
  rw [Fixed, ← not_le, zpow_le_abs_value_iff, zpow_le_abs_value_iff]
  omega

/-- A value that is an integer has no digit behind the point. -/
theorem le_point_of_int (h : d.value = n) : (d.digits.length : Int) ≤ d.point := by
  by_contra hlt
  have hpow : (10 : Rat) ^ (d.digits.length - d.point) = ((10 ^ (d.digits.length - d.point).toNat : Int) : Rat) := by
    rw [← Int.toNat_of_nonneg (show 0 ≤ (d.digits.length : Int) - d.point by omega), zpow_natCast, Int.toNat_natCast]
    push_cast
    rfl
  have habs : (natOf d.digits : Rat) = |(n : Rat)| * (10 : Rat) ^ (d.digits.length - d.point) := by
    rw [← h, abs_value, mul_assoc, ← zpow_add₀ (by norm_num)]
    simp
  rw [hpow, ← Int.cast_abs, ← Int.cast_mul] at habs
  have hint : (natOf d.digits : Int) = |n| * 10 ^ (d.digits.length - d.point).toNat := by exact_mod_cast habs
  obtain ⟨m, hm⟩ : ∃ m, (d.digits.length - d.point).toNat = m + 1 := ⟨_, (succ_pred (by omega)).symm⟩
  have hmod := d.natOf_mod_ten
  rw [hm, pow_succ, ← mul_assoc] at hint
  omega

end Bounds

/-! ## One decimal for each value -/

theorem neg_iff (d : Decimal) : d.neg = true ↔ d.value < 0 := by
  have hnat : (0 : Rat) < natOf d.digits := by exact_mod_cast natOf_pos d.allDigits d.ne_nil d.head_ne
  have hpow : (0 : Rat) < 10 ^ (d.point - d.digits.length) := by positivity
  have hpos := mul_pos hnat hpow
  unfold value scaled
  cases d.neg with
  | true =>
    simp only [if_true, true_iff]
    linarith
  | false =>
    simp only [false_eq_true, if_false, false_iff, not_lt]
    linarith

/-- A number that ten does not divide, times a power of ten, has one such power. -/
theorem exponent_le_of_scaled_eq {a b : Nat} {e f : Int} (ha : a % 10 ≠ 0)
    (h : (a : Rat) * (10 : Rat) ^ e = b * (10 : Rat) ^ f) : f ≤ e := by
  by_contra hlt
  obtain ⟨m, hm⟩ : ∃ m : Nat, f - e = (m + 1 : Nat) := ⟨(f - e).toNat - 1, by omega⟩
  have hcancel : (a : Rat) = b * (10 : Rat) ^ (f - e) := by
    rw [zpow_sub₀ (by norm_num), ← mul_div_assoc, ← h, mul_div_assoc, div_self (by positivity), mul_one]
  rw [hm, zpow_natCast] at hcancel
  have hnat : a = b * 10 ^ (m + 1) := by exact_mod_cast hcancel
  rw [pow_succ, ← mul_assoc] at hnat
  omega

/-- **A decimal is told apart by its value.** -/
theorem value_injective : Function.Injective value := by
  intro d d' h
  have hneg : d.neg = d'.neg := by rw [Bool.eq_iff_iff, neg_iff, neg_iff, h]
  have habs : (natOf d.digits : Rat) * (10 : Rat) ^ (d.point - d.digits.length) =
      natOf d'.digits * (10 : Rat) ^ (d'.point - d'.digits.length) := by
    rw [← abs_value, ← abs_value, h]
  have hexp : d.point - d.digits.length = d'.point - d'.digits.length :=
    le_antisymm (exponent_le_of_scaled_eq d'.natOf_mod_ten habs.symm) (exponent_le_of_scaled_eq d.natOf_mod_ten habs)
  have hpoint : d.point = d'.point := by
    have hiff : ∀ m, m < d.point ↔ m < d'.point := fun m => by
      rw [← zpow_le_abs_value_iff, ← zpow_le_abs_value_iff, h]
    have hone := hiff (d.point - 1)
    have htwo := hiff (d'.point - 1)
    omega
  have hlen : d.digits.length = d'.digits.length := by omega
  have hnat : natOf d.digits = natOf d'.digits := by
    rw [hexp] at habs
    exact_mod_cast mul_right_cancel₀ (by positivity) habs
  have hdigits := eq_of_natOf_eq d.allDigits d'.allDigits hlen hnat
  cases d
  cases d'
  simp only at hneg hdigits hpoint
  subst hneg hdigits hpoint
  rfl

/-! ## Literals -/

def signText (neg : Bool) : List Char := if neg then ['-'] else []

/-- The digits before a point. -/
inductive Whole : List Char → Prop
  | zero : Whole ['0']
  | digits {ds : List Char} : ds.all Char.isDigit = true → ds ≠ [] → ds.head? ≠ some '0' → Whole ds

/-- The digits behind a point, with it. -/
def pointText (frac : List Char) : List Char := if frac = [] then [] else '.' :: frac

/-- An exponent as it is written. -/
inductive Exponent : List Char → Int → Prop
  | none : Exponent [] 0
  | plus {ds : List Char} : ds.all Char.isDigit = true → ds ≠ [] → Exponent ('e' :: '+' :: ds) (natOf ds)
  | minus {ds : List Char} : ds.all Char.isDigit = true → ds ≠ [] → Exponent ('e' :: '-' :: ds) (-(natOf ds : Int))

/-- A text that writes a number: a sign, digits, a fraction and an exponent. -/
def Literal (t : List Char) (q : Rat) : Prop :=
  ∃ neg int frac exp e, t = signText neg ++ (int ++ (pointText frac ++ exp)) ∧ Whole int ∧ frac.all Char.isDigit = true ∧
    Exponent exp e ∧ scaled neg (int ++ frac) (e - frac.length) = q

theorem whole_natText (n : Nat) : Whole (natText n) := by
  by_cases h : n = 0
  · subst h
    exact Whole.zero
  · exact Whole.digits (all_natText n) (natText_ne_nil n) (head_natText_ne h)

theorem literal_intText (n : Int) : Literal (intText n) n := by
  refine ⟨decide (n < 0), natText n.natAbs, [], [], 0, ?_, whole_natText _, rfl, .none, ?_⟩
  · simp [intText, signText, pointText]
  · rw [append_nil]
    exact scaled_natText n

section Literals

variable (d : Decimal)

theorem head?_take {i : Nat} (h : 0 < i) : (d.digits.take i).head? = d.digits.head? := by
  cases i with
  | zero => omega
  | succ i => cases d.digits <;> rfl

theorem whole_take {i : Nat} (h : 0 < i) : Whole (d.digits.take i) := by
  refine Whole.digits (all_take_drop d.allDigits i).1 ?_ ?_
  · rw [ne_eq, take_eq_nil_iff]
    exact fun h => h.elim (by omega) d.ne_nil
  · rw [head?_take d h]
    exact d.head_ne

/-- The exponent of a number in the form with one. -/
theorem exponent_toText (n : Int) :
    Exponent ('e' :: (if 0 < n then '+' else '-') :: natText (n - 1).natAbs) (n - 1) := by
  by_cases h : 0 < n
  · have hexp := Exponent.plus (all_natText (n - 1).natAbs) (natText_ne_nil _)
    have hn : ((n - 1).natAbs : Int) = n - 1 := by omega
    rwa [natOf_natText, hn, ← if_pos (c := 0 < n) (t := '+') (e := '-') h] at hexp
  · have hexp := Exponent.minus (all_natText (n - 1).natAbs) (natText_ne_nil _)
    have hn : -((n - 1).natAbs : Int) = n - 1 := by omega
    rwa [natOf_natText, hn, ← if_neg (c := 0 < n) (t := '+') (e := '-') h] at hexp

/-- **In each of its four forms, the text of a decimal is a literal for its value.** -/
theorem literal_toText : Literal d.toText d.value := by
  have hlen := length_pos_iff.mpr d.ne_nil
  have hsign : (if d.neg = true then ['-'] else []) = signText d.neg := rfl
  unfold toText Decimal.value
  dsimp only
  rw [hsign]
  by_cases hfixed : -5 ≤ d.point ∧ d.point ≤ 21
  · rw [if_pos hfixed]
    split_ifs
    · refine ⟨d.neg, d.digits ++ List.replicate (d.point - d.digits.length).toNat '0', [], [], 0, ?_, ?_, rfl, .none, ?_⟩
      · simp [pointText]
      · refine Whole.digits ?_ ?_ ?_
        · rw [all_append, d.allDigits, all_replicate_zero]
          rfl
        · simp [d.ne_nil]
        · rw [List.head?_append_of_ne_nil _ d.ne_nil]
          exact d.head_ne
      · rw [append_nil, scaled_append_zeros]
        congr 1
        simp
        omega
    · refine ⟨d.neg, d.digits.take d.point.toNat, d.digits.drop d.point.toNat, [], 0, ?_, whole_take d (by omega),
        (all_take_drop d.allDigits _).2, .none, ?_⟩
      · have hne : d.digits.drop d.point.toNat ≠ [] := by
          rw [ne_eq, drop_eq_nil_iff]
          omega
        rw [pointText, if_neg hne, append_nil]
      · rw [take_append_drop]
        congr 1
        rw [length_drop]
        omega
    · refine ⟨d.neg, ['0'], List.replicate (-d.point).toNat '0' ++ d.digits, [], 0, ?_, .zero, ?_, .none, ?_⟩
      · rw [pointText, if_neg (by simp [d.ne_nil])]
        simp
      · rw [all_append, d.allDigits, all_replicate_zero]
        rfl
      · have hzeros : ['0'] ++ (List.replicate (-d.point).toNat '0' ++ d.digits) =
            List.replicate ((-d.point).toNat + 1) '0' ++ d.digits := by
          simp [replicate_succ]
        rw [hzeros, scaled_zeros_append]
        congr 1
        rw [length_append, length_replicate]
        omega
  · rw [if_neg hfixed]
    refine ⟨d.neg, d.digits.take 1, d.digits.drop 1, _, _, ?_, whole_take d (by omega),
      (all_take_drop d.allDigits _).2, exponent_toText d.point, ?_⟩
    · rw [mantissa_eq, append_assoc]
      rfl
    · rw [take_append_drop]
      congr 1
      rw [length_drop]
      omega

end Literals

/-! ## Forms -/

section Forms

/-- Without an exponent: no zero in front of the other digits, and none at the end of a fraction. -/
def Positional (t : List Char) : Prop :=
  ∃ neg int frac, t = signText neg ++ (int ++ pointText frac) ∧ Whole int ∧ frac.all Char.isDigit = true ∧
    frac.getLast? ≠ some '0'

/-- With an exponent: one digit before the point, no zero at the end of a fraction, a sign before the digits of the
exponent and no zero in front of these. -/
def Exponential (t : List Char) : Prop :=
  ∃ neg c frac sign es, t = signText neg ++ (c :: pointText frac ++ 'e' :: sign :: es) ∧ c.isDigit = true ∧ c ≠ '0' ∧
    frac.all Char.isDigit = true ∧ frac.getLast? ≠ some '0' ∧ (sign = '+' ∨ sign = '-') ∧
    es.all Char.isDigit = true ∧ es ≠ [] ∧ es.head? ≠ some '0'

theorem not_mem_digits (h : ds.all Char.isDigit = true) (hc : c.isDigit = false) : c ∉ ds :=
  fun hmem => by
    rw [all_eq_true.mp h c hmem] at hc
    cases hc

theorem not_mem_signText (h : c ≠ '-') (neg : Bool) : c ∉ signText neg := by
  cases neg with
  | true => simpa [signText] using h
  | false => simp [signText]

/-- The two forms exclude each other. -/
theorem Positional.not_exponential {t : List Char} (h : Positional t) : ¬Exponential t := by
  obtain ⟨neg, int, frac, rfl, hint, hfrac, -⟩ := h
  rintro ⟨neg', c, frac', sign, es, h, -⟩
  have hdigits : int.all Char.isDigit = true := by
    cases hint with
    | zero => rfl
    | digits hds _ _ => exact hds
  have hmem : 'e' ∈ signText neg ++ (int ++ pointText frac) := by
    rw [h]
    simp
  simp only [mem_append] at hmem
  rcases hmem with hmem | hmem | hmem
  · exact not_mem_signText (by decide) neg hmem
  · exact not_mem_digits hdigits rfl hmem
  · unfold pointText at hmem
    split at hmem
    · cases hmem
    · rcases mem_cons.mp hmem with hmem | hmem
      · cases hmem
      · exact not_mem_digits hfrac rfl hmem

variable (d : Decimal)

theorem getLast?_drop_ne {i : Nat} (h : i < d.digits.length) : (d.digits.drop i).getLast? ≠ some '0' := by
  rw [List.getLast?_drop, if_neg (by omega)]
  exact d.last_ne

theorem toText_fixed (h : d.Fixed) : d.toText = signText d.neg ++
    if (d.digits.length : Int) ≤ d.point then d.digits ++ List.replicate (d.point - d.digits.length).toNat '0'
    else if 0 < d.point then d.digits.take d.point.toNat ++ '.' :: d.digits.drop d.point.toNat
    else '0' :: '.' :: List.replicate (-d.point).toNat '0' ++ d.digits := by
  unfold toText
  dsimp only
  rw [if_pos (d.fixed_iff.mp h)]
  rfl

/-- **Without an exponent**, in the range where none is written. -/
theorem toText_positional (h : d.Fixed) : Positional d.toText := by
  have hlen := d.length_pos
  rw [toText_fixed d h]
  split_ifs with hwhole hmixed
  · refine ⟨d.neg, d.digits ++ List.replicate (d.point - d.digits.length).toNat '0', [], by simp [pointText], ?_, rfl,
      by simp⟩
    refine Whole.digits ?_ (by simp [d.ne_nil]) ?_
    · rw [all_append, d.allDigits, all_replicate_zero]
      rfl
    · rw [List.head?_append_of_ne_nil _ d.ne_nil]
      exact d.head_ne
  · have hne : d.digits.drop d.point.toNat ≠ [] := by
      rw [ne_eq, drop_eq_nil_iff]
      omega
    refine ⟨d.neg, d.digits.take d.point.toNat, d.digits.drop d.point.toNat, ?_, whole_take d (by omega),
      (all_take_drop d.allDigits _).2, getLast?_drop_ne d (by omega)⟩
    rw [pointText, if_neg hne]
  · refine ⟨d.neg, ['0'], List.replicate (-d.point).toNat '0' ++ d.digits, ?_, Whole.zero, ?_, ?_⟩
    · rw [pointText, if_neg (by simp [d.ne_nil])]
      rfl
    · rw [all_append, d.allDigits, all_replicate_zero]
      rfl
    · rw [List.getLast?_append_of_ne_nil _ d.ne_nil]
      exact d.last_ne

/-- An integer is written without a point, in the range where no exponent is. -/
theorem point_not_mem_toText (h : d.Fixed) (hn : d.value = n) : '.' ∉ d.toText := by
  rw [toText_fixed d h, if_pos (d.le_point_of_int hn), mem_append, mem_append]
  rintro (hmem | hmem | hmem)
  · exact not_mem_signText (by decide) d.neg hmem
  · exact not_mem_digits d.allDigits rfl hmem
  · exact not_mem_digits (all_replicate_zero _) rfl hmem

/-- An integer is written in full there. -/
theorem toText_eq_intText (h : d.Fixed) (hn : d.value = n) : d.toText = intText n := by
  have hpoint := d.le_point_of_int hn
  obtain ⟨z, hz⟩ : ∃ z : Nat, d.point - d.digits.length = z := ⟨(d.point - d.digits.length).toNat, by omega⟩
  have hneg : d.neg = decide (n < 0) := by
    rw [Bool.eq_iff_iff, neg_iff, hn, decide_eq_true_iff]
    exact_mod_cast Iff.rfl
  have hnat : natOf (d.digits ++ List.replicate z '0') = n.natAbs := by
    have habs := d.abs_value
    rw [hn, hz, zpow_natCast, ← Int.cast_abs] at habs
    have hint : |n| = natOf d.digits * 10 ^ z := by exact_mod_cast habs
    rw [natOf_append, natOf_replicate_zero, length_replicate, add_zero]
    zify
    exact hint.symm
  have hall : (d.digits ++ List.replicate z '0').all Char.isDigit = true := by
    rw [all_append, d.allDigits, all_replicate_zero]
    rfl
  have hhead : (d.digits ++ List.replicate z '0').head? ≠ some '0' := by
    rw [List.head?_append_of_ne_nil _ d.ne_nil]
    exact d.head_ne
  rw [toText_fixed d h, if_pos hpoint, hz, Int.toNat_natCast, intText, ← hnat,
    natText_natOf hall (by simp [d.ne_nil]) hhead, hneg]
  simp [signText]

/-- Without a point and an exponent an integer is written. -/
theorem exists_int_of_not_mem (h : d.Fixed) (hpoint : '.' ∉ d.toText) : ∃ n : Int, d.value = n := by
  rw [toText_fixed d h] at hpoint
  split_ifs at hpoint with hwhole hmixed
  · obtain ⟨z, hz⟩ : ∃ z : Nat, d.point - d.digits.length = z := ⟨(d.point - d.digits.length).toNat, by omega⟩
    refine ⟨(if d.neg then -1 else 1) * natOf d.digits * 10 ^ z, ?_⟩
    rw [value, scaled, hz, zpow_natCast]
    push_cast
    split <;> simp
  · simp at hpoint
  · simp at hpoint

/-- **With an exponent**, out of that range. -/
theorem toText_exponential (h : ¬d.Fixed) : Exponential d.toText := by
  rw [fixed_iff] at h
  obtain ⟨c, ds, hds⟩ := exists_cons_of_ne_nil d.ne_nil
  have hall := d.allDigits
  have hhead := d.head_ne
  rw [hds, all_cons, and_eq_true] at hall
  rw [hds] at hhead
  refine ⟨d.neg, c, ds, if 0 < d.point then '+' else '-', natText (d.point - 1).natAbs, ?_, hall.1, ?_, hall.2, ?_, ?_,
    all_natText _, natText_ne_nil _, head_natText_ne (by omega)⟩
  · unfold toText
    dsimp only
    rw [if_neg h, mantissa_eq, hds]
    rfl
  · exact fun hc => hhead (congrArg some hc)
  · cases ds with
    | nil => simp
    | cons c' ds' =>
      have hlast := d.last_ne
      rwa [hds, List.getLast?_cons_cons] at hlast
  · split
    · exact .inl rfl
    · exact .inr rfl

end Forms

end Decimal
