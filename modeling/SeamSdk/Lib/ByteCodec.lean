import Mathlib.Algebra.Group.Nat.Defs
import Mathlib.Data.List.Forall2
import Mathlib.Data.Set.Function

/-!
# Uniquely decodable byte layouts

A layout is a concatenation of parts: a byte string behind its 32-bit little-endian length (`frame`) or its 64-bit
big-endian one (`frame64`), bytes of a width fixed in advance (`Part.raw`), or any of these behind a presence byte.
Each part can be split off the front of a longer byte string (`Part.split`), so two layouts of the same shape with
equal bytes have equal parts (`layout_split`), and a list of records of one shape is determined by its bytes without
knowing how many there are (`records_inj`, for frames `frames_inj`). Records of different shapes are determined once
their number is known (`records_split`).

A length prefix wraps, so every statement asks for contents that fit it (`Part.Short`).
-/

namespace ByteCodec

open List

abbrev Bytes := List UInt8

/-! ## Strings -/

/-- The UTF-8 bytes of a string. -/
def utf8 (s : String) : Bytes := s.toByteArray.data.toList

theorem utf8_injective : Function.Injective utf8 := fun _ _ h =>
  String.toByteArray_inj.mp (ByteArray.ext (Array.toList_inj.mp h))

@[simp] theorem utf8_inj {s t : String} : utf8 s = utf8 t ↔ s = t := utf8_injective.eq_iff

/-- The bytes of a string are those of its characters. -/
theorem utf8_eq_flatMap (s : String) : utf8 s = s.toList.flatMap String.utf8EncodeChar := by
  conv => lhs; rw [← String.ofList_toList (s := s)]
  rw [utf8, String.toByteArray_ofList, List.utf8Encode, data_toByteArray]

theorem utf8_append (s t : String) : utf8 (s ++ t) = utf8 s ++ utf8 t := by
  simp only [utf8_eq_flatMap, String.toList_append, flatMap_append]

/-- Every character takes a byte at least. -/
theorem length_le_length_utf8 (s : String) : s.toList.length ≤ (utf8 s).length := by
  rw [utf8_eq_flatMap]
  induction s.toList with
  | nil => exact Nat.le_refl 0
  | cons c cs ih =>
    have hpos := c.utf8Size_pos
    rw [flatMap_cons, length_append, length_cons, String.length_utf8EncodeChar]
    omega

/-- The string of UTF-8 bytes, if they are one. -/
def ofUtf8? (b : Bytes) : Option String := String.fromUTF8? ⟨b.toArray⟩

@[simp] theorem ofUtf8?_utf8 (s : String) : ofUtf8? (utf8 s) = some s := by
  have hbytes : (⟨(utf8 s).toArray⟩ : ByteArray) = s.toByteArray := by simp [utf8]
  rw [ofUtf8?, hbytes, String.fromUTF8?, dif_pos s.isValidUTF8]
  rfl

/-- The value of a hexadecimal digit of either case, given its code. -/
def hexDigitValue (n : Nat) : Option Nat :=
  if 48 ≤ n ∧ n ≤ 57 then some (n - 48)
  else if 97 ≤ n ∧ n ≤ 102 then some (n - 87)
  else if 65 ≤ n ∧ n ≤ 70 then some (n - 55)
  else none

/-! ## Fixed-width integers -/

/-- The `k` low bytes of `n`, least significant first. -/
def leBytes : Nat → Nat → Bytes
  | 0, _ => []
  | k + 1, n => UInt8.ofNat n :: leBytes k (n / 256)

@[simp] theorem length_leBytes (k n : Nat) : (leBytes k n).length = k := by
  induction k generalizing n with
  | zero => rfl
  | succ k ih => simp [leBytes, ih]

theorem leBytes_inj : ∀ {k n m : Nat}, n < 256 ^ k → m < 256 ^ k → leBytes k n = leBytes k m → n = m
  | 0, n, m, hn, hm, _ => by simp at hn hm; omega
  | k + 1, n, m, hn, hm, h => by
    simp only [leBytes, List.cons.injEq] at h
    have hlow : n % 256 = m % 256 := by
      have := congrArg UInt8.toNat h.1
      simpa using this
    have hhigh : n / 256 = m / 256 := by
      refine leBytes_inj ?_ ?_ h.2
      · rw [Nat.pow_succ] at hn; exact Nat.div_lt_of_lt_mul (by omega)
      · rw [Nat.pow_succ] at hm; exact Nat.div_lt_of_lt_mul (by omega)
    omega

/-- `u32::to_le_bytes`. -/
def u32le (n : UInt32) : Bytes := leBytes 4 n.toNat

/-- `u64::to_le_bytes`. -/
def u64le (n : UInt64) : Bytes := leBytes 8 n.toNat

@[simp] theorem length_u32le (n : UInt32) : (u32le n).length = 4 := by simp [u32le]

@[simp] theorem length_u64le (n : UInt64) : (u64le n).length = 8 := by simp [u64le]

@[simp] theorem u32le_inj {n m : UInt32} : u32le n = u32le m ↔ n = m := by
  refine ⟨fun h => UInt32.toNat_inj.mp (leBytes_inj ?_ ?_ h), congrArg u32le⟩
  · simpa using n.toNat_lt
  · simpa using m.toNat_lt

@[simp] theorem u64le_inj {n m : UInt64} : u64le n = u64le m ↔ n = m := by
  refine ⟨fun h => UInt64.toNat_inj.mp (leBytes_inj ?_ ?_ h), congrArg u64le⟩
  · simpa using n.toNat_lt
  · simpa using m.toNat_lt

/-- `u64::to_be_bytes`. -/
def u64be (n : UInt64) : Bytes := (u64le n).reverse

@[simp] theorem length_u64be (n : UInt64) : (u64be n).length = 8 := by simp [u64be]

@[simp] theorem u64be_inj {n m : UInt64} : u64be n = u64be m ↔ n = m := by
  rw [u64be, u64be, reverse_inj, u64le_inj]

/-- A 32-bit length below the wrap-around is read back exactly. -/
theorem u32le_length_inj {n m : Nat} (hn : n < 2 ^ 32) (hm : m < 2 ^ 32)
    (h : u32le (UInt32.ofNat n) = u32le (UInt32.ofNat m)) : n = m := by
  have := congrArg UInt32.toNat (u32le_inj.mp h)
  simp only [UInt32.toNat_ofNat'] at this
  omega

/-- So is a 64-bit one. -/
theorem u64be_length_inj {n m : Nat} (hn : n < 2 ^ 64) (hm : m < 2 ^ 64)
    (h : u64be (UInt64.ofNat n) = u64be (UInt64.ofNat m)) : n = m := by
  have := congrArg UInt64.toNat (u64be_inj.mp h)
  simp only [UInt64.toNat_ofNat'] at this
  omega

/-! ## Frames -/

/-- A byte string behind its length as a 32-bit little-endian word. -/
def frame (b : Bytes) : Bytes := u32le (UInt32.ofNat b.length) ++ b

/-- A byte string behind its length as a 64-bit big-endian word. -/
def frame64 (b : Bytes) : Bytes := u64be (UInt64.ofNat b.length) ++ b

/-- `0x00` when absent, `0x01` and the encoding of the value when present. -/
def present (enc : Bytes → Bytes) : Option Bytes → Bytes
  | none => [0]
  | some b => 1 :: enc b

/-- An optional frame. -/
def opt : Option Bytes → Bytes := present frame

theorem frame_ne_nil (b : Bytes) : frame b ≠ [] := by
  intro h
  have := congrArg List.length h
  simp [frame] at this

theorem frame_split {a b r s : Bytes} (ha : a.length < 2 ^ 32) (hb : b.length < 2 ^ 32)
    (h : frame a ++ r = frame b ++ s) : a = b ∧ r = s := by
  simp only [frame, append_assoc] at h
  obtain ⟨hlen, h⟩ := append_inj h (by simp)
  exact append_inj h (u32le_length_inj ha hb hlen)

theorem frame64_split {a b r s : Bytes} (ha : a.length < 2 ^ 64) (hb : b.length < 2 ^ 64)
    (h : frame64 a ++ r = frame64 b ++ s) : a = b ∧ r = s := by
  simp only [frame64, append_assoc] at h
  obtain ⟨hlen, h⟩ := append_inj h (by simp)
  exact append_inj h (u64be_length_inj ha hb hlen)

/-- A presence byte is split off with the value behind it, if that is. -/
theorem present_split {enc : Bytes → Bytes} {a b : Option Bytes} {r s : Bytes}
    (hsplit : ∀ x ∈ a, ∀ y ∈ b, enc x ++ r = enc y ++ s → x = y ∧ r = s)
    (h : present enc a ++ r = present enc b ++ s) : a = b ∧ r = s := by
  cases a with
  | none =>
    cases b with
    | none => simpa [present] using h
    | some y => simp [present] at h
  | some x =>
    cases b with
    | none => simp [present] at h
    | some y =>
      simp only [present, cons_append, List.cons.injEq, true_and] at h
      obtain ⟨hxy, hrs⟩ := hsplit x rfl y rfl h
      exact ⟨congrArg some hxy, hrs⟩

/-! ## Layouts -/

/-- One part of a layout. -/
inductive Part
  | frame (b : Bytes)
  | opt (b : Option Bytes)
  | raw (b : Bytes)
  | frame64 (b : Bytes)
  | opt64 (b : Option Bytes)
  | optRaw (b : Option Bytes)

def Part.bytes : Part → Bytes
  | .frame b => ByteCodec.frame b
  | .opt b => ByteCodec.opt b
  | .raw b => b
  | .frame64 b => ByteCodec.frame64 b
  | .opt64 b => present ByteCodec.frame64 b
  | .optRaw b => present id b

/-- Contents short enough for the length prefix. -/
def Part.Short : Part → Prop
  | .frame b => b.length < 2 ^ 32
  | .opt o => ∀ b ∈ o, b.length < 2 ^ 32
  | .frame64 b => b.length < 2 ^ 64
  | .opt64 o => ∀ b ∈ o, b.length < 2 ^ 64
  | .raw _ | .optRaw _ => True

instance : DecidablePred Part.Short
  | .frame b => inferInstanceAs (Decidable (b.length < 2 ^ 32))
  | .opt o => inferInstanceAs (Decidable (∀ b ∈ o, b.length < 2 ^ 32))
  | .frame64 b => inferInstanceAs (Decidable (b.length < 2 ^ 64))
  | .opt64 o => inferInstanceAs (Decidable (∀ b ∈ o, b.length < 2 ^ 64))
  | .raw _ | .optRaw _ => inferInstanceAs (Decidable True)

/-- The same kind of part; raw bytes of the same width. -/
def Part.SameShape : Part → Part → Prop
  | .frame _, .frame _ | .opt _, .opt _ | .frame64 _, .frame64 _ | .opt64 _, .opt64 _ => True
  | .raw a, .raw b => a.length = b.length
  | .optRaw a, .optRaw b => ∀ x ∈ a, ∀ y ∈ b, x.length = y.length
  | _, _ => False

/-- A part can be split off the front of a byte string. -/
theorem Part.split {p q : Part} {r s : Bytes} (hpq : p.SameShape q) (hp : p.Short) (hq : q.Short)
    (h : p.bytes ++ r = q.bytes ++ s) : p = q ∧ r = s := by
  cases p <;> cases q <;> try exact hpq.elim
  case frame.frame =>
    obtain ⟨rfl, hrs⟩ := frame_split hp hq h
    exact ⟨rfl, hrs⟩
  case opt.opt =>
    obtain ⟨rfl, hrs⟩ := present_split (fun x hx y hy => frame_split (hp x hx) (hq y hy)) h
    exact ⟨rfl, hrs⟩
  case raw.raw a b =>
    obtain ⟨rfl, hrs⟩ := append_inj (show a ++ r = b ++ s from h) hpq
    exact ⟨rfl, hrs⟩
  case frame64.frame64 =>
    obtain ⟨rfl, hrs⟩ := frame64_split hp hq h
    exact ⟨rfl, hrs⟩
  case opt64.opt64 =>
    obtain ⟨rfl, hrs⟩ := present_split (fun x hx y hy => frame64_split (hp x hx) (hq y hy)) h
    exact ⟨rfl, hrs⟩
  case optRaw.optRaw =>
    obtain ⟨rfl, hrs⟩ := present_split (fun x hx y hy h => append_inj h (hpq x hx y hy)) h
    exact ⟨rfl, hrs⟩

/-- The bytes of a list of parts. -/
def layout (ps : List Part) : Bytes := ps.flatMap Part.bytes

@[simp] theorem layout_cons (p : Part) (ps : List Part) : layout (p :: ps) = p.bytes ++ layout ps := rfl

@[simp] theorem layout_nil : layout [] = [] := rfl

@[simp] theorem layout_append (ps qs : List Part) : layout (ps ++ qs) = layout ps ++ layout qs :=
  flatMap_append ..

/-- **Unique decoding.** Layouts of the same shape can be split off the front of a byte string part by part. -/
theorem layout_split {ps qs : List Part} (hpq : List.Forall₂ Part.SameShape ps qs) :
    ∀ {r s : Bytes}, (∀ p ∈ ps, p.Short) → (∀ q ∈ qs, q.Short) → layout ps ++ r = layout qs ++ s →
      ps = qs ∧ r = s := by
  induction hpq with
  | nil => intro r s _ _ h; exact ⟨rfl, h⟩
  | cons hpq _ ih =>
    intro r s hp hq h
    rw [forall_mem_cons] at hp hq
    simp only [layout_cons, append_assoc] at h
    obtain ⟨hhead, h⟩ := Part.split hpq hp.1 hq.1 h
    obtain ⟨htail, hrs⟩ := ih hp.2 hq.2 h
    exact ⟨by rw [hhead, htail], hrs⟩

theorem layout_inj {ps qs : List Part} (hpq : List.Forall₂ Part.SameShape ps qs) (hp : ∀ p ∈ ps, p.Short)
    (hq : ∀ q ∈ qs, q.Short) (h : layout ps = layout qs) : ps = qs :=
  (layout_split (r := []) (s := []) hpq hp hq (by rw [h])).1

/-! ## Lists of records -/

section Records

variable {ρ : Type*} {parts : ρ → List Part}

/-- Records that take at least a byte each are determined by their bytes, the number of records included. -/
theorem records_inj (hshape : ∀ a b, List.Forall₂ Part.SameShape (parts a) (parts b))
    (hinj : Function.Injective parts) (hne : ∀ a, layout (parts a) ≠ []) {as bs : List ρ}
    (ha : ∀ p ∈ as.flatMap parts, p.Short) (hb : ∀ q ∈ bs.flatMap parts, q.Short)
    (h : layout (as.flatMap parts) = layout (bs.flatMap parts)) : as = bs := by
  induction as generalizing bs with
  | nil =>
    cases bs with
    | nil => rfl
    | cons b bs =>
      rw [flatMap_cons, layout_append] at h
      exact absurd (append_eq_nil_iff.mp h.symm).1 (hne b)
  | cons a as ih =>
    cases bs with
    | nil =>
      rw [flatMap_cons, layout_append] at h
      exact absurd (append_eq_nil_iff.mp h).1 (hne a)
    | cons b bs =>
      simp only [flatMap_cons, forall_mem_append, layout_append] at ha hb h
      obtain ⟨hhead, htail⟩ := layout_split (hshape a b) ha.1 hb.1 h
      rw [hinj hhead, ih ha.2 hb.2 htail]

/-- As many records on both sides are determined one by one, whatever their shapes, if each can be split off. -/
theorem records_split {P : ρ → Prop} (hsplit : ∀ {a b : ρ} {r s : Bytes}, P a → P b →
      layout (parts a) ++ r = layout (parts b) ++ s → a = b ∧ r = s) : ∀ {as bs : List ρ}, as.length = bs.length →
    (∀ a ∈ as, P a) → (∀ b ∈ bs, P b) → layout (as.flatMap parts) = layout (bs.flatMap parts) → as = bs
  | [], [], _, _, _, _ => rfl
  | [], _ :: _, hlen, _, _, _ => by cases hlen
  | _ :: _, [], hlen, _, _, _ => by cases hlen
  | a :: as, b :: bs, hlen, ha, hb, h => by
    rw [forall_mem_cons] at ha hb
    simp only [flatMap_cons, layout_append] at h
    obtain ⟨rfl, hrest⟩ := hsplit ha.1 hb.1 h
    rw [records_split hsplit (Nat.succ_inj.mp hlen) ha.2 hb.2 hrest]

end Records

/-- Every byte string behind its length. -/
def frames (bs : List Bytes) : List Part := bs.map .frame

theorem frames_eq_flatMap (bs : List Bytes) : frames bs = bs.flatMap fun b => [.frame b] := by
  rw [frames, map_eq_flatMap]

/-- A list of frames is determined by its bytes, the number of frames included. -/
theorem frames_inj {as bs : List Bytes} (ha : ∀ p ∈ frames as, p.Short) (hb : ∀ q ∈ frames bs, q.Short)
    (h : layout (frames as) = layout (frames bs)) : as = bs := by
  rw [frames_eq_flatMap] at ha hb
  rw [frames_eq_flatMap, frames_eq_flatMap] at h
  have hshape : ∀ a b : Bytes, List.Forall₂ Part.SameShape [.frame a] [.frame b] := by simp [Part.SameShape]
  refine records_inj hshape ?_ ?_ ha hb h
  · intro a b hab
    simpa using hab
  · intro a hnil
    exact frame_ne_nil a (by simpa [Part.bytes] using hnil)

end ByteCodec
