import SeamSdk.Lib.Utf16

/-!
# Code points written as units

A text of code points may hold surrogates. Written as UTF-16 units and read again, a lead surrogate that stood directly
before a trail surrogate has become one code point with it; nothing else has changed
(`codePoints_ofCodePoints_iff`).
-/

namespace Utf16

open List

variable {p : CodePoint}

namespace CodePoint

/-- The units of a code point: itself, or a pair of surrogates. -/
def units (p : CodePoint) : List UInt16 :=
  if p.val < 0x10000 then [UInt16.ofNat p.val]
  else [UInt16.ofNat (0xD800 + (p.val - 0x10000) / 0x400), UInt16.ofNat (0xDC00 + (p.val - 0x10000) % 0x400)]

def isLead (p : CodePoint) : Bool := 0xD800 ≤ p.val && p.val < 0xDC00

def isTrail (p : CodePoint) : Bool := 0xDC00 ≤ p.val && p.val < 0xE000

/-- Somewhere a lead surrogate stands directly before a trail surrogate. -/
def hasPair : List CodePoint → Bool
  | p :: q :: ps => isLead p && isTrail q || hasPair (q :: ps)
  | _ => false

theorem isLead_iff : isLead p = true ↔ 0xD800 ≤ p.val ∧ p.val < 0xDC00 := by
  simp [isLead]

theorem isTrail_iff : isTrail p = true ↔ 0xDC00 ≤ p.val ∧ p.val < 0xE000 := by
  simp [isTrail]

theorem toNat_unit (h : p.val < 0x10000) : (UInt16.ofNat p.val).toNat = p.val :=
  UInt16.toNat_ofNat_of_lt' h

theorem units_of_lt (h : p.val < 0x10000) : units p = [UInt16.ofNat p.val] := if_pos h

/-- The first unit of a code point is a trail surrogate exactly if the code point is one. -/
theorem head_units (p : CodePoint) (us : List UInt16) : (units p ++ us).head?.any Utf16.isTrail = isTrail p := by
  by_cases h : p.val < 0x10000
  · rw [units_of_lt h, singleton_append, List.head?_cons, Option.any_some, Bool.eq_iff_iff, isTrail_iff,
      Utf16.isTrail_iff, toNat_unit h]
  · have hp := p.isLt
    obtain ⟨hu, -⟩ := toNat_pair_units (n := p.val - 0x10000) (by omega)
    rw [units, if_neg h, cons_append, List.head?_cons, Option.any_some, Bool.eq_iff_iff, isTrail_iff,
      Utf16.isTrail_iff, hu]
    omega

end CodePoint

open CodePoint (hasPair)

def ofCodePoints (ps : List CodePoint) : List UInt16 := ps.flatMap CodePoint.units

theorem ofCodePoints_map_ofChar (s : List Char) : ofCodePoints (s.map CodePoint.ofChar) = encode s := by
  rw [ofCodePoints, flatMap_map]
  rfl

theorem ofCodePoints_eq_nil {ps : List CodePoint} : ofCodePoints ps = [] ↔ ps = [] := by
  cases ps with
  | nil => exact ⟨fun _ => rfl, fun _ => rfl⟩
  | cons p ps =>
    refine ⟨fun h => ?_, fun h => nomatch h⟩
    have hunits := (append_eq_nil_iff.mp h).1
    unfold CodePoint.units at hunits
    split at hunits <;> cases hunits

theorem codePoints_eq_nil {us : List UInt16} (h : codePoints us = []) : us = [] := by
  rw [← flatMap_points us, map_eq_nil_iff.mp h, flatMap_nil]

theorem head_ofCodePoints (ps : List CodePoint) :
    (ofCodePoints ps).head?.any isTrail = ps.head?.any CodePoint.isTrail := by
  cases ps with
  | nil => rfl
  | cons p ps => exact CodePoint.head_units p (ofCodePoints ps)

theorem codePoints_singleton (h : p.val < 0x10000) : codePoints [UInt16.ofNat p.val] = [p] := by
  show [Point.codePoint (single _)] = [p]
  refine congrArg (fun p => [p]) (Fin.ext ?_)
  exact (code_single _).trans (CodePoint.toNat_unit h)

/-- A code point is read as itself, unless a pair goes across its end. -/
theorem codePoints_units_append {us : List UInt16} (h : CodePoint.isLead p = false ∨ us.head?.any isTrail = false) :
    codePoints (CodePoint.units p ++ us) = p :: codePoints us := by
  cases hsurrogate : CodePoint.isSurrogate p with
  | false =>
    have hscalar : [p].any CodePoint.isSurrogate = false := by simp [hsurrogate]
    obtain ⟨s, hs⟩ := CodePoint.exists_chars hscalar
    obtain ⟨c, rfl, hp⟩ := map_eq_singleton_iff.mp hs.symm
    subst hp
    show codePoints (units c ++ us) = _
    rw [codePoints, points_units, map_cons]
    rfl
  | true =>
    have hrange := CodePoint.isSurrogate_iff.mp hsurrogate
    have hlt : p.val < 0x10000 := by omega
    rw [CodePoint.units_of_lt hlt]
    rcases h with h | h
    · have hlead : isLead (UInt16.ofNat p.val) = false := by
        rw [← Bool.not_eq_true, isLead_iff, CodePoint.toNat_unit hlt]
        rwa [← Bool.not_eq_true, CodePoint.isLead_iff] at h
      rw [singleton_append, codePoints, points_cons_of_not_lead hlead, map_cons]
      exact congrArg (· :: _) (Fin.ext ((code_single _).trans (CodePoint.toNat_unit hlt)))
    · rw [codePoints_append h, codePoints_singleton hlt]
      rfl

theorem val_codePoint_scalar (c : Char) : (Point.codePoint (.scalar c)).val = c.toNat := rfl

/-- A pair becomes a code point beyond the first plane. -/
theorem codePoints_pair {q : CodePoint} (hp : CodePoint.isLead p = true) (hq : CodePoint.isTrail q = true)
    (us : List UInt16) : ∃ r : CodePoint, 0x10000 ≤ r.val ∧
      codePoints (CodePoint.units p ++ (CodePoint.units q ++ us)) = r :: codePoints us := by
  rw [CodePoint.isLead_iff] at hp
  rw [CodePoint.isTrail_iff] at hq
  have hu := CodePoint.toNat_unit (p := p) (by omega)
  have hv := CodePoint.toNat_unit (p := q) (by omega)
  rw [CodePoint.units_of_lt (by omega), CodePoint.units_of_lt (by omega)]
  generalize UInt16.ofNat p.val = u at hu ⊢
  generalize UInt16.ofNat q.val = v at hv ⊢
  have hlead : isLead u = true := isLead_iff.mpr (by omega)
  have htrail : isTrail v = true := isTrail_iff.mpr (by omega)
  have hcode : (pair u v).toNat = 0x10000 + (u.toNat - 0xD800) * 0x400 + (v.toNat - 0xDC00) :=
    toNat_ofNat_of_valid (by unfold Nat.isValidChar; omega)
  refine ⟨Point.codePoint (.scalar (pair u v)), ?_, ?_⟩
  · rw [val_codePoint_scalar, hcode]
    omega
  · rw [singleton_append, singleton_append, codePoints, points, hlead, htrail, Bool.and_self, if_pos rfl,
      map_cons, codePoints]

/-- **What is written is read back exactly if it holds no pair.** -/
theorem codePoints_ofCodePoints_iff : ∀ ps : List CodePoint, codePoints (ofCodePoints ps) = ps ↔ hasPair ps = false
  | [] => by simp [ofCodePoints, codePoints, points, hasPair]
  | [p] => by
    have h := codePoints_units_append (p := p) (.inr (rfl : ([] : List UInt16).head?.any isTrail = false))
    simp only [hasPair, iff_true]
    exact h
  | p :: q :: ps => by
    by_cases hpair : CodePoint.isLead p = true ∧ CodePoint.isTrail q = true
    · obtain ⟨r, hr, hread⟩ := codePoints_pair hpair.1 hpair.2 (ofCodePoints ps)
      have hlead := CodePoint.isLead_iff.mp hpair.1
      rw [hasPair, hpair.1, hpair.2]
      simp only [Bool.and_self, Bool.true_or, Bool.true_eq_false, iff_false]
      intro h
      have hhead : r = p := (List.cons.inj (hread.symm.trans h)).1
      rw [hhead] at hr
      omega
    · have hpass : CodePoint.isLead p = false ∨ (ofCodePoints (q :: ps)).head?.any isTrail = false := by
        rw [head_ofCodePoints]
        rwa [not_and_or, Bool.not_eq_true, Bool.not_eq_true] at hpair
      have hread := codePoints_units_append hpass
      have hskip : (CodePoint.isLead p && CodePoint.isTrail q) = false := by
        rwa [← Bool.not_eq_true, Bool.and_eq_true]
      rw [hasPair, hskip, Bool.false_or, ← codePoints_ofCodePoints_iff (q :: ps)]
      show codePoints (CodePoint.units p ++ ofCodePoints (q :: ps)) = _ ↔ _
      rw [hread, List.cons.injEq]
      exact and_iff_right rfl

end Utf16
