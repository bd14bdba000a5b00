import SeamSdk.Lib.ByteCodec

/-!
# UTF-16

A text as code units (`encode`). Read back, a lead unit before a trail unit is one character and every other surrogate
stands alone (`points`), so a text is recovered from its units (`points_encode`) and any units from their points
(`flatMap_points`). The units without a surrogate that stands alone are exactly those of texts (`hasLone_encode`,
`exists_encode`). As code points, a test that only ASCII passes is the same as on units (`test_codePoints`).

Written with the high byte first, units are ordered as their bytes are (`beBytes_lt`).
-/

namespace Utf16

open ByteCodec List

/-! ## Units -/

/-- The units of a character: itself, or a pair of surrogates. -/
def units (c : Char) : List UInt16 :=
  if c.toNat < 0x10000 then [UInt16.ofNat c.toNat]
  else [UInt16.ofNat (0xD800 + (c.toNat - 0x10000) / 0x400), UInt16.ofNat (0xDC00 + (c.toNat - 0x10000) % 0x400)]

def encode (s : List Char) : List UInt16 := s.flatMap units

@[simp] theorem encode_nil : encode [] = [] := rfl

@[simp] theorem encode_cons (c : Char) (s : List Char) : encode (c :: s) = units c ++ encode s := rfl

@[simp] theorem encode_append (s t : List Char) : encode (s ++ t) = encode s ++ encode t := flatMap_append

def isLead (u : UInt16) : Bool := 0xD800 ≤ u.toNat && u.toNat < 0xDC00

def isTrail (u : UInt16) : Bool := 0xDC00 ≤ u.toNat && u.toNat < 0xE000

variable {u : UInt16} {us : List UInt16} {c : Char} {n : Nat}

theorem isLead_iff : isLead u = true ↔ 0xD800 ≤ u.toNat ∧ u.toNat < 0xDC00 := by
  simp [isLead]

theorem isTrail_iff : isTrail u = true ↔ 0xDC00 ≤ u.toNat ∧ u.toNat < 0xE000 := by
  simp [isTrail]

/-! ## Reading units -/

/-- A character, or a surrogate that stands alone. -/
inductive Point
  | scalar (c : Char)
  | lone (u : UInt16)
  deriving DecidableEq, Repr

/-- The character of a pair of surrogates. -/
def pair (u v : UInt16) : Char := Char.ofNat (0x10000 + (u.toNat - 0xD800) * 0x400 + (v.toNat - 0xDC00))

def single (u : UInt16) : Point := if isLead u || isTrail u then .lone u else .scalar (Char.ofNat u.toNat)

def points : List UInt16 → List Point
  | [] => []
  | [u] => [single u]
  | u :: v :: us => if isLead u && isTrail v then .scalar (pair u v) :: points us else single u :: points (v :: us)

/-- A unit that begins no pair is read by itself. -/
theorem points_cons_of_not_lead (h : isLead u = false) (us : List UInt16) :
    points (u :: us) = single u :: points us := by
  cases us with
  | nil => rfl
  | cons v us => rw [points, h, Bool.false_and, if_neg Bool.false_ne_true]

/-- A character below the surrogates or above them is one unit, which is no surrogate. -/
theorem toNat_lt_or (c : Char) : c.toNat < 0xD800 ∨ 0xE000 ≤ c.toNat ∧ c.toNat < 0x110000 := by
  have hvalid := c.valid
  unfold UInt32.isValidChar Nat.isValidChar at hvalid
  have htoNat : c.val.toNat = c.toNat := rfl
  omega

/-- The unit of a character that takes one is no surrogate. -/
theorem toNat_unit (h : c.toNat < 0x10000) : (UInt16.ofNat c.toNat).toNat = c.toNat :=
  UInt16.toNat_ofNat_of_lt' h

theorem not_surrogate_unit (h : c.toNat < 0x10000) :
    isLead (UInt16.ofNat c.toNat) = false ∧ isTrail (UInt16.ofNat c.toNat) = false := by
  have hc := toNat_lt_or c
  rw [← Bool.not_eq_true, ← Bool.not_eq_true, isLead_iff, isTrail_iff, toNat_unit h]
  omega

/-- The units of a character that takes two. -/
theorem toNat_pair_units (h : n < 0x100000) : (UInt16.ofNat (0xD800 + n / 0x400)).toNat = 0xD800 + n / 0x400 ∧
      (UInt16.ofNat (0xDC00 + n % 0x400)).toNat = 0xDC00 + n % 0x400 :=
  ⟨UInt16.toNat_ofNat_of_lt' (by show _ < 65536; omega), UInt16.toNat_ofNat_of_lt' (by show _ < 65536; omega)⟩

theorem surrogate_pair_units (h : n < 0x100000) :
    isLead (UInt16.ofNat (0xD800 + n / 0x400)) = true ∧ isTrail (UInt16.ofNat (0xDC00 + n % 0x400)) = true := by
  obtain ⟨hu, hv⟩ := toNat_pair_units h
  rw [isLead_iff, isTrail_iff, hu, hv]
  omega

/-- The two units of a character beyond the first plane. -/
theorem units_of_le (h : 0x10000 ≤ c.toNat) : ∃ u v : UInt16, units c = [u, v] ∧ 0xD800 ≤ u.toNat ∧
    0xD800 ≤ v.toNat := by
  have hc := toNat_lt_or c
  obtain ⟨hu, hv⟩ := toNat_pair_units (n := c.toNat - 0x10000) (by omega)
  refine ⟨_, _, if_neg (by omega), ?_, ?_⟩
  · rw [hu]
    omega
  · rw [hv]
    omega

theorem points_units (c : Char) (us : List UInt16) : points (units c ++ us) = .scalar c :: points us := by
  unfold units
  split
  next hlt =>
    obtain ⟨hlead, htrail⟩ := not_surrogate_unit hlt
    rw [singleton_append, points_cons_of_not_lead hlead, single, hlead, htrail, toNat_unit hlt, Char.ofNat_toNat]
    rfl
  next hlt =>
    have hn : c.toNat - 0x10000 < 0x100000 := by
      have := toNat_lt_or c
      omega
    obtain ⟨hu, hv⟩ := toNat_pair_units hn
    obtain ⟨hlead, htrail⟩ := surrogate_pair_units hn
    rw [cons_append, singleton_append, points, hlead, htrail, Bool.and_self, if_pos rfl, pair, hu, hv]
    have hsum : 0x10000 + (0xD800 + (c.toNat - 0x10000) / 0x400 - 0xD800) * 0x400 +
        (0xDC00 + (c.toNat - 0x10000) % 0x400 - 0xDC00) = c.toNat := by
      omega
    rw [hsum, Char.ofNat_toNat]

/-- **A text is read back from its units.** -/
theorem points_encode (s : List Char) : points (encode s) = s.map .scalar := by
  induction s with
  | nil => rfl
  | cons c s ih => rw [encode_cons, points_units, ih, map_cons]

theorem encode_injective : Function.Injective encode := by
  intro s t h
  have hmap := congrArg points h
  rw [points_encode, points_encode] at hmap
  exact map_injective_iff.mpr (fun a b hab => Point.scalar.inj hab) hmap

/-- The text of units, with the replacement character for a surrogate that stands alone. -/
def decodeLossy (us : List UInt16) : List Char :=
  (points us).map fun p => match p with
    | .scalar c => c
    | .lone _ => Char.ofNat 0xFFFD

theorem decodeLossy_encode (s : List Char) : decodeLossy (encode s) = s := by
  rw [decodeLossy, points_encode, map_map]
  exact map_id s

/-! ## Surrogates that stand alone -/

/-- A lead that no trail follows, or a trail that no lead precedes. -/
def hasLoneAfter (lead : Bool) : List UInt16 → Bool
  | [] => false
  | u :: us => (isLead u && !us.head?.any isTrail) || (isTrail u && !lead) || hasLoneAfter (isLead u) us

def hasLone (us : List UInt16) : Bool := hasLoneAfter false us

theorem not_lead_of_trail (h : isTrail u = true) : isLead u = false := by
  rw [isTrail_iff] at h
  rw [← Bool.not_eq_true, isLead_iff]
  omega

theorem hasLoneAfter_units (lead : Bool) (c : Char) (us : List UInt16) :
    hasLoneAfter lead (units c ++ us) = hasLoneAfter false us := by
  unfold units
  split
  next hlt =>
    obtain ⟨hlead, htrail⟩ := not_surrogate_unit hlt
    rw [singleton_append, hasLoneAfter, hlead, htrail]
    rfl
  next hlt =>
    have hn : c.toNat - 0x10000 < 0x100000 := by
      have := toNat_lt_or c
      omega
    obtain ⟨hlead, htrail⟩ := surrogate_pair_units hn
    have htrail' : isTrail (UInt16.ofNat (0xD800 + (c.toNat - 0x10000) / 0x400)) = false := by
      rw [← Bool.not_eq_true]
      intro h
      rw [not_lead_of_trail h] at hlead
      cases hlead
    rw [cons_append, singleton_append, hasLoneAfter, hasLoneAfter, hlead, htrail', List.head?_cons,
      Option.any_some, htrail, not_lead_of_trail htrail]
    rfl

theorem hasLone_encode (s : List Char) : hasLone (encode s) = false := by
  unfold hasLone
  induction s with
  | nil => rfl
  | cons c s ih => rw [encode_cons, hasLoneAfter_units, ih]

theorem toNat_ofNat_of_valid (h : n.isValidChar) : (Char.ofNat n).toNat = n := by
  unfold Char.ofNat
  rw [dif_pos h]
  rfl

theorem units_ofNat (hlead : isLead u = false) (htrail : isTrail u = false) : units (Char.ofNat u.toNat) = [u] := by
  rw [← Bool.not_eq_true, isLead_iff] at hlead
  rw [← Bool.not_eq_true, isTrail_iff] at htrail
  have hlt : u.toNat < 65536 := u.toNat_lt
  have hvalid : u.toNat.isValidChar := by
    unfold Nat.isValidChar
    omega
  have hnat : (Char.ofNat u.toNat).toNat = u.toNat := toNat_ofNat_of_valid hvalid
  rw [units, hnat, if_pos hlt, UInt16.ofNat_toNat]

theorem units_pair {v : UInt16} (hlead : isLead u = true) (htrail : isTrail v = true) : units (pair u v) = [u, v] := by
  rw [isLead_iff] at hlead
  rw [isTrail_iff] at htrail
  have hvalid : (0x10000 + (u.toNat - 0xD800) * 0x400 + (v.toNat - 0xDC00)).isValidChar := by
    unfold Nat.isValidChar
    omega
  have hnat : (pair u v).toNat = 0x10000 + (u.toNat - 0xD800) * 0x400 + (v.toNat - 0xDC00) :=
    toNat_ofNat_of_valid hvalid
  have hu : 0xD800 + ((pair u v).toNat - 0x10000) / 0x400 = u.toNat := by
    omega
  have hv : 0xDC00 + ((pair u v).toNat - 0x10000) % 0x400 = v.toNat := by
    omega
  rw [units, if_neg (by omega), hu, hv, UInt16.ofNat_toNat, UInt16.ofNat_toNat]

/-- **Units without a surrogate that stands alone are those of a text.** -/
theorem exists_encode : ∀ {us : List UInt16}, hasLone us = false → ∃ s, us = encode s
  | [], _ => ⟨[], rfl⟩
  | u :: us, h => by
    unfold hasLone at h
    simp only [hasLoneAfter, Bool.or_eq_false_iff, Bool.not_false, Bool.and_true] at h
    obtain ⟨⟨hpair, htrail⟩, hrest⟩ := h
    cases hlead : isLead u with
    | false =>
      rw [hlead] at hrest
      obtain ⟨s, hs⟩ := exists_encode hrest
      exact ⟨Char.ofNat u.toNat :: s, by rw [encode_cons, units_ofNat hlead htrail, ← hs]; rfl⟩
    | true =>
      -- a trail follows the lead, and nothing that follows it depends on the lead
      match us, hpair, hrest with
      | [], hpair, _ => simp [hlead] at hpair
      | v :: us, hpair, hrest =>
        have hv : isTrail v = true := by simpa [hlead] using hpair
        simp only [hasLoneAfter, Bool.or_eq_false_iff] at hrest
        rw [not_lead_of_trail hv] at hrest
        obtain ⟨s, hs⟩ := exists_encode hrest.2
        exact ⟨pair u v :: s, by rw [encode_cons, units_pair hlead hv, ← hs]; rfl⟩

/-! ## Units from points -/

namespace Point

def units : Point → List UInt16
  | .scalar c => Utf16.units c
  | .lone u => [u]

/-- The number of a character or of a surrogate. -/
def code : Point → Nat
  | .scalar c => c.toNat
  | .lone u => u.toNat

end Point

theorem units_single (u : UInt16) : (single u).units = [u] := by
  unfold single
  split
  · rfl
  · rename_i h
    simp only [Bool.or_eq_true, not_or, Bool.not_eq_true] at h
    exact units_ofNat h.1 h.2

/-- **Nothing is lost in points.** -/
theorem flatMap_points : ∀ us : List UInt16, (points us).flatMap Point.units = us
  | [] => rfl
  | [u] => by rw [points, flatMap_cons, units_single]; rfl
  | u :: v :: us => by
    unfold points
    split
    · rename_i h
      rw [Bool.and_eq_true] at h
      rw [flatMap_cons, flatMap_points us, Point.units, units_pair h.1 h.2]
      rfl
    · rw [flatMap_cons, units_single, flatMap_points (v :: us)]
      rfl

theorem points_injective : Function.Injective points := by
  intro us vs h
  rw [← flatMap_points us, h, flatMap_points]

/-- No pair goes across a place where no trail follows. -/
theorem points_append : ∀ {us vs : List UInt16}, vs.head?.any isTrail = false →
    points (us ++ vs) = points us ++ points vs
  | [], vs, _ => rfl
  | [u], [], _ => rfl
  | [u], v :: vs, h => by
    have hv : isTrail v = false := h
    show points (u :: v :: vs) = single u :: points (v :: vs)
    rw [points, hv, Bool.and_false, if_neg Bool.false_ne_true]
  | u :: w :: us, vs, h => by
    rw [cons_append, cons_append, points, points]
    split
    · rw [points_append h, cons_append]
    · rw [← cons_append, points_append h, cons_append]

theorem surrogate_of_single {v : UInt16} (h : single v = .lone u) : 0xD800 ≤ u.toNat ∧ u.toNat < 0xE000 := by
  unfold single at h
  split at h
  · rename_i hv
    cases h
    rw [Bool.or_eq_true, isLead_iff, isTrail_iff] at hv
    omega
  · cases h

/-- What stands alone is a surrogate. -/
theorem surrogate_of_lone_mem : ∀ {us : List UInt16} {u : UInt16}, Point.lone u ∈ points us →
    0xD800 ≤ u.toNat ∧ u.toNat < 0xE000
  | [], _, h => by cases h
  | [v], u, h => by
    rw [points, mem_singleton] at h
    exact surrogate_of_single h.symm
  | v :: w :: us, u, h => by
    unfold points at h
    split at h
    · rcases mem_cons.mp h with h | h
      · cases h
      · exact surrogate_of_lone_mem h
    · rcases mem_cons.mp h with h | h
      · exact surrogate_of_single h.symm
      · exact surrogate_of_lone_mem h

/-! ## Code points -/

/-- A number of Unicode, which may be that of a surrogate. -/
abbrev CodePoint := Fin 0x110000

namespace CodePoint

def ofChar (c : Char) : CodePoint := ⟨c.toNat, by have := toNat_lt_or c; omega⟩

def isSurrogate (p : CodePoint) : Bool := 0xD800 ≤ p.val && p.val < 0xE000

theorem isSurrogate_iff {p : CodePoint} : isSurrogate p = true ↔ 0xD800 ≤ p.val ∧ p.val < 0xE000 := by
  simp [isSurrogate]

theorem isSurrogate_ofChar (c : Char) : isSurrogate (ofChar c) = false := by
  have hc := toNat_lt_or c
  have hval : (ofChar c).val = c.toNat := rfl
  rw [← Bool.not_eq_true, isSurrogate_iff, hval]
  omega

/-- Code points without a surrogate are a text. -/
theorem exists_chars : ∀ {ps : List CodePoint}, ps.any isSurrogate = false → ∃ s : List Char, ps = s.map ofChar
  | [], _ => ⟨[], rfl⟩
  | p :: ps, h => by
    rw [any_cons, Bool.or_eq_false_iff] at h
    obtain ⟨s, rfl⟩ := exists_chars h.2
    have hp := h.1
    rw [← Bool.not_eq_true, isSurrogate_iff] at hp
    have hvalid : p.val.isValidChar := by
      have := p.isLt
      unfold Nat.isValidChar
      omega
    exact ⟨Char.ofNat p.val :: s, congrArg (· :: _) (Fin.ext (toNat_ofNat_of_valid hvalid).symm)⟩

end CodePoint

namespace Point

theorem code_lt (p : Point) : p.code < 0x110000 := by
  cases p with
  | scalar c =>
    have := toNat_lt_or c
    show c.toNat < _
    omega
  | lone u =>
    have : u.toNat < 65536 := u.toNat_lt
    show u.toNat < _
    omega

def codePoint (p : Point) : CodePoint := ⟨p.code, p.code_lt⟩

end Point

/-- Units as code points. -/
def codePoints (us : List UInt16) : List CodePoint := (points us).map Point.codePoint

theorem map_ofChar_injective : Function.Injective (List.map CodePoint.ofChar) := by
  refine map_injective_iff.mpr fun c d h => ?_
  have hnat := congrArg Fin.val h
  exact Char.toNat_inj.mp hnat

theorem codePoints_encode (s : List Char) : codePoints (encode s) = s.map CodePoint.ofChar := by
  rw [codePoints, points_encode, map_map]
  rfl

theorem map_val_codePoints (us : List UInt16) : (codePoints us).map Fin.val = (points us).map Point.code := by
  rw [codePoints, map_map]
  rfl

theorem codePoints_append {vs : List UInt16} (h : vs.head?.any isTrail = false) :
    codePoints (us ++ vs) = codePoints us ++ codePoints vs := by
  rw [codePoints, points_append h, map_append]
  rfl

theorem exists_scalars {ps : List Point} (h : ∀ p ∈ ps, ∃ c, p = .scalar c) : ∃ s : List Char, ps = s.map .scalar := by
  induction ps with
  | nil => exact ⟨[], rfl⟩
  | cons p ps ih =>
    rw [forall_mem_cons] at h
    obtain ⟨⟨c, rfl⟩, hps⟩ := h
    obtain ⟨s, rfl⟩ := ih hps
    exact ⟨c :: s, rfl⟩

/-- **A surrogate is left where one stands alone.** -/
theorem any_isSurrogate_codePoints (us : List UInt16) : (codePoints us).any CodePoint.isSurrogate = hasLone us := by
  cases hlone : hasLone us with
  | false =>
    obtain ⟨s, rfl⟩ := exists_encode hlone
    rw [codePoints_encode]
    simp [CodePoint.isSurrogate_ofChar]
  | true =>
    by_contra hnone
    rw [Bool.not_eq_true, any_eq_false] at hnone
    have hscalar : ∀ p ∈ points us, ∃ c, p = .scalar c := by
      intro p hp
      cases p with
      | scalar c => exact ⟨c, rfl⟩
      | lone u =>
        exact absurd (CodePoint.isSurrogate_iff.mpr (surrogate_of_lone_mem hp)) (hnone _ (mem_map_of_mem hp))
    obtain ⟨s, hs⟩ := exists_scalars hscalar
    rw [points_injective (hs.trans (points_encode s).symm), hasLone_encode] at hlone
    cases hlone

/-! ## ASCII -/

theorem not_surrogate_of_lt (h : u.toNat < 128) : isLead u = false ∧ isTrail u = false := by
  rw [← Bool.not_eq_true, ← Bool.not_eq_true, isLead_iff, isTrail_iff]
  omega

theorem code_single (u : UInt16) : (single u).code = u.toNat := by
  unfold single
  split
  · rfl
  · rename_i h
    simp only [Bool.or_eq_true, not_or, isLead_iff, isTrail_iff] at h
    have hlt : u.toNat < 65536 := u.toNat_lt
    apply toNat_ofNat_of_valid
    unfold Nat.isValidChar
    omega

theorem codePoints_cons (h : u.toNat < 128) (us : List UInt16) :
    codePoints (u :: us) = ⟨u.toNat, by omega⟩ :: codePoints us := by
  rw [codePoints, points_cons_of_not_lead (not_surrogate_of_lt h).1, map_cons]
  exact congrArg (· :: _) (Fin.ext (code_single u))

theorem units_of_code_lt {p : Point} (h : p.code < 128) : p.units = [UInt16.ofNat p.code] := by
  cases p with
  | scalar c =>
    have hc : c.toNat < 128 := h
    rw [Point.units, units, if_pos (by omega)]
    rfl
  | lone u =>
    rw [Point.units, Point.code, UInt16.ofNat_toNat]

theorem map_val_codePoints_of_ascii (h : ∀ u ∈ us, u.toNat < 128) :
    (codePoints us).map Fin.val = us.map UInt16.toNat := by
  induction us with
  | nil => rfl
  | cons u us ih =>
    rw [forall_mem_cons] at h
    rw [codePoints_cons h.1, map_cons, map_cons, ih h.2]

/-- Code points are ASCII only where units are. -/
theorem lt_of_val_lt (h : ∀ n ∈ (codePoints us).map Fin.val, n < 128) : ∀ u ∈ us, u.toNat < 128 := by
  intro u hu
  rw [← flatMap_points us, mem_flatMap] at hu
  obtain ⟨p, hp, hup⟩ := hu
  rw [map_val_codePoints] at h
  have hcode := h _ (mem_map_of_mem hp)
  rw [units_of_code_lt hcode, mem_singleton] at hup
  rw [hup, UInt16.toNat_ofNat_of_lt' (by show _ < 65536; omega)]
  exact hcode

/-- **A test that only ASCII passes** has one answer on code points and on units. -/
theorem test_codePoints {f : List Nat → Bool} (hf : ∀ l, f l = true → ∀ n ∈ l, n < 128) (us : List UInt16) :
    f ((codePoints us).map Fin.val) = f (us.map UInt16.toNat) := by
  by_cases hascii : ∀ u ∈ us, u.toNat < 128
  · rw [map_val_codePoints_of_ascii hascii]
  · have hpoints : f ((codePoints us).map Fin.val) = false :=
      Bool.eq_false_iff.mpr fun h => hascii (lt_of_val_lt (hf _ h))
    have hunits : f (us.map UInt16.toNat) = false :=
      Bool.eq_false_iff.mpr fun h => hascii fun u hu => hf _ h _ (mem_map_of_mem hu)
    rw [hpoints, hunits]

/-- A part of the code points that is ASCII comes from units of its own. -/
theorem exists_of_codePoints_eq_append {ps qs : List CodePoint} (h : codePoints us = ps ++ qs)
    (hps : ∀ p ∈ ps, p.val < 128) : ∃ vs, us = ps.map (fun p => UInt16.ofNat p.val) ++ vs := by
  obtain ⟨l, r, hlr, rfl, rfl⟩ := map_eq_append_iff.mp h
  refine ⟨r.flatMap Point.units, ?_⟩
  rw [← flatMap_points us, hlr, flatMap_append, map_map]
  have hunits : l.flatMap Point.units = l.flatMap fun p => [UInt16.ofNat p.code] :=
    flatMap_congr fun p hp => units_of_code_lt (hps _ (mem_map_of_mem hp))
  rw [hunits, ← map_eq_flatMap]
  rfl

/-! ## Bytes -/

/-- Every unit as two bytes, the high one first. -/
def beBytes (us : List UInt16) : Bytes := us.flatMap fun u => [UInt8.ofNat (u.toNat / 256), UInt8.ofNat u.toNat]

theorem beBytes_cons (u : UInt16) (us : List UInt16) :
    beBytes (u :: us) = UInt8.ofNat (u.toNat / 256) :: UInt8.ofNat u.toNat :: beBytes us := rfl

/-- **Bytes are ordered as the units they are written from.** -/
theorem beBytes_lt : ∀ {us vs : List UInt16}, beBytes us < beBytes vs ↔ us < vs
  | us, [] => by
    constructor
    · intro h
      exact absurd h (not_lt_nil _)
    · intro h
      exact absurd h (not_lt_nil _)
  | [], v :: vs => by
    rw [beBytes_cons]
    exact ⟨fun _ => nil_lt_cons _ _, fun _ => nil_lt_cons _ _⟩
  | u :: us, v :: vs => by
    have hu : u.toNat < 65536 := u.toNat_lt
    have hv : v.toNat < 65536 := v.toNat_lt
    rw [beBytes_cons, beBytes_cons, cons_lt_cons_iff, cons_lt_cons_iff, cons_lt_cons_iff, beBytes_lt,
      UInt8.lt_iff_toNat_lt, UInt8.lt_iff_toNat_lt, UInt16.lt_iff_toNat_lt, ← UInt8.toNat_inj, ← UInt8.toNat_inj,
      ← UInt16.toNat_inj]
    simp only [UInt8.toNat_ofNat']
    by_cases heq : u.toNat = v.toNat
    · simp [heq]
    · simp only [heq, false_and, or_false]
      omega

end Utf16
