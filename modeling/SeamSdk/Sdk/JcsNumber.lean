import SeamSdk.Lib.JsonNumber
import SeamSdk.Sdk.JcsAgree

/-!
# The canonical text of a number

`_jcs_number` puts the digits of a double into one of four forms. What it builds is said here for every sign, digits and
exponent, those of a double or not: `jcs_number_exact`.

`Printed q t` says that `t` is the text of the number `q`. There is one such text (`printed_unique`), it is a literal for `q`
(`literal_printed`), and an integer that `_jcs_int` accepts has it too (`printed_jcsInt`).
-/

namespace SeamSdk.Python

open Decimal (Positional Exponential)
open JsonGrammar (unit literal_unique)

variable {F : Type}

section Text

variable (d : Decimal)

theorem jcsNumberText_exponent (zeros : Nat) :
    jcsNumberText d.neg (d.digits ++ List.replicate zeros '0') (d.exponent - zeros) = d.toText :=
  jcsNumberText_digits d zeros

theorem jcsNumberText_toText : jcsNumberText d.neg d.digits d.exponent = d.toText := by
  have h := jcsNumberText_exponent d 0
  rwa [List.replicate_zero, List.append_nil, Nat.cast_zero, sub_zero] at h

theorem positional_toText_iff : Positional d.toText ↔ d.Fixed :=
  ⟨fun h => by_contra fun hfixed => h.not_exponential (d.toText_exponential hfixed), d.toText_positional⟩

theorem exponential_toText_iff : Exponential d.toText ↔ ¬d.Fixed :=
  ⟨fun h hfixed => (d.toText_positional hfixed).not_exponential h, d.toText_exponential⟩

end Text

/-- The text of a decimal is read as its value, so that it is the text of no other decimal. -/
theorem toText_injective : Function.Injective Decimal.toText := by
  intro d d' h
  have hliteral := d'.literal_toText
  rw [← h] at hliteral
  exact Decimal.value_injective (literal_unique d.literal_toText hliteral)

/-- **Main result.** The text is a JSON number for exactly the value of the digits and the exponent, without an exponent of
its own in one range and with one out of it. Zeros behind the digits make no difference, and no two numbers share a text.
The text of a double is the one of its digits. -/
theorem jcs_number_exact :
    (∀ (d : Decimal) (zeros : Nat),
      let text := jcsNumberText d.neg (d.digits ++ List.replicate zeros '0') (d.exponent - zeros)
      JsonGrammar.Number (text.map unit) ∧ JsonGrammar.number (text.map unit) = some (d.value, []) ∧
      (Positional text ↔ d.Fixed) ∧ (Exponential text ↔ ¬d.Fixed) ∧
      (∀ n : Int, d.value = n → d.Fixed → '.' ∉ text) ∧
      text = jcsNumberText d.neg d.digits d.exponent) ∧
    (∀ d d' : Decimal,
      jcsNumberText d.neg d.digits d.exponent = jcsNumberText d'.neg d'.digits d'.exponent → d = d') ∧
    ∀ (E : Floats F) (x : F), jcsNumber E (.finite x) =
      .ok (jcsNumberText (E.shortest x).neg (E.shortest x).digits (E.shortest x).exponent) := by
  refine ⟨fun d zeros => ?_, fun d d' h => ?_, fun E x => ?_⟩
  · dsimp only
    rw [jcsNumberText_exponent, jcsNumberText_toText]
    exact ⟨JsonGrammar.grammar_of_literal d.literal_toText, JsonGrammar.number_of_literal d.literal_toText,
      positional_toText_iff d, exponential_toText_iff d, fun n hn hfixed => d.point_not_mem_toText hfixed hn, rfl⟩
  · rw [jcsNumberText_toText, jcsNumberText_toText] at h
    exact toText_injective h
  · rw [jcsNumber_finite, jcsNumberText_toText]

/-- `5e2` is written as `500`, from the digits with a zero behind them too. -/
theorem jcs_number_exact_hundreds : ∃ d : Decimal, d.exponent = 2 ∧
    jcsNumberText d.neg (d.digits ++ ['0']) 1 = ['5', '0', '0'] ∧ d.Fixed ∧
    '.' ∉ jcsNumberText d.neg (d.digits ++ ['0']) 1 := by
  let d : Decimal := ⟨false, ['5'], 3, rfl, by decide, by decide, by decide⟩
  have hvalue : d.value = (500 : Int) := by
    have hdigits : Decimal.natOf d.digits = 5 := by decide
    norm_num [Decimal.value, Decimal.scaled, hdigits]
    norm_num [d]
  have hfixed : d.Fixed := d.fixed_iff.mpr ⟨by decide, by decide⟩
  exact ⟨d, rfl, by decide, hfixed, ((jcs_number_exact (F := Decimal)).1 d 1).2.2.2.2.1 500 hvalue hfixed⟩

/-! ## Numbers and their texts -/

/-- The text of a number. -/
def Printed (q : Rat) (t : List Char) : Prop := q = 0 ∧ t = ['0'] ∨ ∃ d : Decimal, d.value = q ∧ t = d.toText

variable {t : List Char} {q : Rat} {n : Int}

theorem printed_unique {u : List Char} (ht : Printed q t) (hu : Printed q u) : t = u := by
  rcases ht with ⟨rfl, rfl⟩ | ⟨d, rfl, rfl⟩
  · rcases hu with ⟨-, rfl⟩ | ⟨d, hd, -⟩
    · rfl
    · exact absurd hd d.value_ne_zero
  · rcases hu with ⟨hd, -⟩ | ⟨d', hd, rfl⟩
    · exact absurd hd d.value_ne_zero
    · rw [Decimal.value_injective hd]

theorem literal_printed (h : Printed q t) : Decimal.Literal t q := by
  rcases h with ⟨rfl, rfl⟩ | ⟨d, rfl, rfl⟩
  · exact Decimal.literal_intText 0
  · exact d.literal_toText

theorem jcsInt_ok {E : Floats F} (h : jcsInt E n = .ok t) : t = Decimal.intText n ∧
    (-maxSafe ≤ n ∧ n ≤ maxSafe ∨ ∃ x, E.ofInt n = some x ∧ (E.shortest x).toText = Decimal.intText n) := by
  unfold jcsInt at h
  dsimp only at h
  split_ifs at h with hsafe
  · exact ⟨(Except.ok.inj h).symm, .inl hsafe⟩
  · split at h
    · cases h
    · rename_i x hx
      rw [jcsNumber_finite] at h
      simp only [bind, Except.bind] at h
      split_ifs at h with htext
      rw [not_not] at htext
      exact ⟨(Except.ok.inj h).symm.trans htext, .inr ⟨x, hx, htext⟩⟩

/-- An integer up to `2 ** 53` is written in full. -/
theorem fixed_of_safe {d : Decimal} (hd : d.value = n) (hlow : -maxSafe ≤ n) (hhigh : n ≤ maxSafe) : d.Fixed := by
  have hzero : n ≠ 0 := fun h => d.value_ne_zero (by rw [hd, h, Int.cast_zero])
  have hone : 1 ≤ |n| := Int.one_le_abs hzero
  have hsafe : |n| ≤ 2 ^ 53 := abs_le.mpr ⟨hlow, hhigh⟩
  have hone' : (1 : Rat) ≤ |(n : Rat)| := by exact_mod_cast hone
  have hsafe' : |(n : Rat)| ≤ 2 ^ 53 := by exact_mod_cast hsafe
  rw [Decimal.Fixed, hd]
  refine ⟨le_trans ?_ hone', lt_of_le_of_lt hsafe' ?_⟩
  · norm_num
  · norm_num

/-- **The integers that are accepted have the text of a double.** -/
theorem printed_jcsInt {E : Floats F} (h : jcsInt E n = .ok t) : Printed n t := by
  obtain ⟨rfl, hsafe | ⟨x, -, htext⟩⟩ := jcsInt_ok h
  · by_cases hzero : n = 0
    · subst hzero
      exact .inl ⟨Int.cast_zero, rfl⟩
    · obtain ⟨d, hd⟩ := Decimal.exists_value_eq hzero
      exact .inr ⟨d, hd, (d.toText_eq_intText (fixed_of_safe hd hsafe.1 hsafe.2) hd).symm⟩
  · refine .inr ⟨E.shortest x, ?_, htext.symm⟩
    have hliteral := (E.shortest x).literal_toText
    rw [htext] at hliteral
    exact literal_unique hliteral (Decimal.literal_intText n)

end SeamSdk.Python
