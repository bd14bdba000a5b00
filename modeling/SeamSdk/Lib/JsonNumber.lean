import SeamSdk.Lib.DecimalForm
import SeamSdk.Lib.JsonDecode

/-!
# The numbers of JSON texts

`literalValue` is the number that a literal writes, and `number` reads one in front of a text. The texts of decimals and of
integers are literals of the grammar (`grammar_of_literal`) for what they write (`literalValue_of_literal`).
-/

namespace JsonGrammar

open List Decimal

/-- The number that decimal digits write. -/
def digitsValue (ds : List UInt16) : Nat := natOf (ds.map fun u => Char.ofNat u.toNat)

/-- The exponent at the end of a literal. -/
def exponentValue (t : List UInt16) : Int :=
  let e := readSign (t.drop 1)
  if e.1 = ascii "-" then -digitsValue e.2 else digitsValue e.2

/-- The number a literal writes. -/
def literalValue (t : List UInt16) : Rat :=
  let s := readSign t
  let frac := readFraction (s.2.dropWhile isDigit)
  let digits := s.2.takeWhile isDigit ++ frac.1.drop 1
  (if s.1 = ascii "-" then -1 else 1) * digitsValue digits * 10 ^ (exponentValue frac.2 - (frac.1.drop 1).length)

/-- The number in front of a text, and what is left. -/
def number (s : List UInt16) : Option (Rat × List UInt16) := (readNumber s).map fun p => (literalValue p.1, p.2)

/-! ## Digits in units -/

variable {ds : List Char} {c : Char} {n : Int}

theorem digitsValue_unit (h : ds.all Char.isDigit = true) : digitsValue (ds.map unit) = natOf ds := by
  rw [digitsValue, map_map]
  refine congrArg natOf ((map_congr_left fun c hc => ?_).trans (map_id ds))
  have hc := ascii_of_digits h c hc
  show Char.ofNat (UInt16.ofNat c.toNat).toNat = c
  rw [Utf16.toNat_unit (by omega), Char.ofNat_toNat]

theorem isDigit_unit (h : c.isDigit = true) : isDigit (unit c) = true := by
  have hc := digit_bounds h
  have hunit : (unit c).toNat = c.toNat := Utf16.toNat_unit (by omega)
  rw [isDigit, Bool.and_eq_true, decide_eq_true_iff, decide_eq_true_iff, UInt16.le_iff_toNat_le,
    UInt16.le_iff_toNat_le, hunit]
  exact hc

theorem digits_unit (h : ds.all Char.isDigit = true) (hne : ds ≠ []) : Digits (ds.map unit) := by
  refine ⟨by simpa using hne, fun u hu => ?_⟩
  obtain ⟨c, hc, rfl⟩ := mem_map.mp hu
  exact isDigit_unit (all_eq_true.mp h c hc)

theorem whole_digits (h : Decimal.Whole ds) : ds.all Char.isDigit = true ∧ ds ≠ [] := by
  cases h with
  | zero => exact ⟨rfl, by decide⟩
  | digits hds hne _ => exact ⟨hds, hne⟩

theorem whole_unit (h : Decimal.Whole ds) : Whole (ds.map unit) := by
  cases h with
  | zero => exact .inl rfl
  | digits hds hne hhead =>
    refine .inr ⟨digits_unit hds hne, ?_⟩
    obtain ⟨c, ds, rfl⟩ := exists_cons_of_ne_nil hne
    have hc := ascii_of_digits hds c mem_cons_self
    rw [map_cons, head?_cons, ne_eq, Option.some.injEq, unit_eq_iff (by omega) (by decide)]
    exact fun h => hhead (congrArg some h)

theorem fraction_unit (h : ds.all Char.isDigit = true) : Fraction ((pointText ds).map unit) := by
  unfold pointText
  split
  next => exact .inl rfl
  next hne => exact .inr ⟨ds.map unit, digits_unit h hne, rfl⟩

theorem exponent_unit {t : List Char} {e : Int} (h : Decimal.Exponent t e) :
    Exponent (t.map unit) ∧ exponentValue (t.map unit) = e := by
  cases h with
  | none => exact ⟨.inl rfl, rfl⟩
  | @plus ds hds hne =>
    refine ⟨.inr ⟨unit 'e', [unit '+'], ds.map unit, .inl rfl, .inr (.inl rfl), digits_unit hds hne, rfl⟩, ?_⟩
    exact congrArg Nat.cast (digitsValue_unit hds)
  | @minus ds hds hne =>
    refine ⟨.inr ⟨unit 'e', [unit '-'], ds.map unit, .inl rfl, .inr (.inr rfl), digits_unit hds hne, rfl⟩, ?_⟩
    exact congrArg (fun n : Nat => -(n : Int)) (digitsValue_unit hds)

/-! ## Literals -/

variable {t : List Char} {q : Rat}

theorem signText_unit (neg : Bool) : (signText neg).map unit = [] ∨ (signText neg).map unit = ascii "-" := by
  cases neg with
  | true => exact .inr rfl
  | false => exact .inl rfl

/-- **A literal is a number of the grammar.** -/
theorem grammar_of_literal (h : Literal t q) : Number (t.map unit) := by
  obtain ⟨neg, int, frac, exp, e, rfl, hint, hfrac, hexp, -⟩ := h
  refine ⟨(signText neg).map unit, int.map unit, (pointText frac).map unit, exp.map unit, signText_unit neg,
    whole_unit hint, fraction_unit hfrac, (exponent_unit hexp).1, ?_⟩
  simp only [map_append]

theorem ascii_of_literal (h : Literal t q) : ∀ c ∈ t, c.toNat < 128 := by
  obtain ⟨neg, int, frac, exp, e, rfl, hint, hfrac, hexp, -⟩ := h
  have hsign : ∀ c ∈ signText neg, c.toNat < 128 := by cases neg <;> simp [signText]
  have hpoint : ∀ c ∈ pointText frac, c.toNat < 128 := by
    unfold pointText
    split
    · simp
    · exact forall_mem_cons.mpr ⟨by decide, ascii_of_digits hfrac⟩
  have hexp : ∀ c ∈ exp, c.toNat < 128 := by
    cases hexp with
    | none => simp
    | plus hds _ | minus hds _ =>
      exact forall_mem_cons.mpr ⟨by decide, forall_mem_cons.mpr ⟨by decide, ascii_of_digits hds⟩⟩
  simp only [forall_mem_append]
  exact ⟨hsign, ascii_of_digits (whole_digits hint).1, hpoint, hexp⟩

/-- **A literal is read as the number it writes.** -/
theorem literalValue_of_literal (h : Literal t q) : literalValue (t.map unit) = q := by
  obtain ⟨neg, int, frac, exp, e, rfl, hint, hfrac, hexp, hq⟩ := h
  obtain ⟨hdigits, hne⟩ := whole_digits hint
  have hint' := digits_unit hdigits hne
  obtain ⟨hgrammar, hexponent⟩ := exponent_unit hexp
  have hhead : ∀ u ∈ (exp.map unit).head?, isDigit u = false ∧ u ≠ unit '.' := by
    have := hgrammar.head_append (r := []) (by simp)
    rwa [append_nil] at this
  obtain ⟨htake, hdrop⟩ := span_digits hint'.2 ((fraction_unit hfrac).head_append hhead)
  have hneg : ((signText neg).map unit = ascii "-") ↔ neg = true := by cases neg <;> decide
  have hpoint : ((pointText frac).map unit).drop 1 = frac.map unit := by
    unfold pointText
    split
    next hnil => rw [hnil]; rfl
    next => rfl
  have hall : (int ++ frac).all Char.isDigit = true := by rw [all_append, hdigits, hfrac]; rfl
  simp only [literalValue, map_append, readSign_append ((signText_unit neg).imp_right .inr) hint', htake, hdrop,
    readFraction_append (fraction_unit hfrac) hhead, hpoint, hexponent, hneg, length_map]
  rw [← map_append, digitsValue_unit hall]
  exact hq

theorem number_of_literal (h : Literal t q) : number (t.map unit) = some (q, []) := by
  have hread := readNumber_append (grammar_of_literal h) (r := []) (by simp)
  rw [append_nil] at hread
  rw [number, hread, Option.map_some, literalValue_of_literal h]

/-- What a number writes tells literals apart. -/
theorem literal_unique {q' : Rat} (h : Literal t q) (h' : Literal t q') : q = q' :=
  (literalValue_of_literal h).symm.trans (literalValue_of_literal h')

theorem mem_intText (h : c ∈ intText n) : c = '-' ∨ c.isDigit = true := by
  rcases mem_append.mp h with h | h
  · split at h
    · exact .inl (mem_singleton.mp h)
    · cases h
  · exact .inr (all_eq_true.mp (all_natText _) c h)

end JsonGrammar
