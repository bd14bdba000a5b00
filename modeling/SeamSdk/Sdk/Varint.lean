import SeamSdk.Lib.ProtoWire
import SeamSdk.Sdk.StatusDetails

/-!
# Varints as Python reads them

`_varint` collects seven bits of each byte in an integer without a bound, and stops at an eleventh byte. So it reads
whole varints of ten bytes at most (`varint_eq_some_iff`), but a tenth byte brings seven bits where sixty-four leave room
for one: the protocol drops the other six, `_varint` keeps them.

The source walks over the buffer with an index (`varintAt`); elsewhere the bytes that remain are passed on, which is the
same (`varintLoop_eq`).
-/

namespace SeamSdk.Python

open ByteCodec ProtoWire List

/-- The loop of `_varint`. -/
def varintLoop (buf : Bytes) (i shift out : Nat) : Option (Nat × Nat) :=
  if h : buf.length ≤ i ∨ 63 < shift then none
  else
    let b := buf.get ⟨i, by omega⟩
    let out := out ||| (b.toNat &&& 0x7F) <<< shift
    if b.toNat &&& 0x80 = 0 then some (out, i + 1) else varintLoop buf (i + 1) (shift + 7) out
termination_by 64 - shift

/-- `_varint`: the value and the index behind it, `none` where it raises `_Truncated`. -/
def varintAt (buf : Bytes) (i : Nat) : Option (Nat × Nat) := varintLoop buf i 0 0

/-! ## Seven bits at a time -/

variable {out shift : Nat} {buf : Bytes}

/-- Seven bits more above what has been read. -/
theorem or_shiftLeft (h : out < 2 ^ shift) (m : Nat) : out ||| m <<< shift = out + m * 2 ^ shift := by
  have hadd := Nat.two_pow_add_eq_or_of_lt h m
  rw [Nat.shiftLeft_eq, Nat.or_comm, Nat.mul_comm, ← hadd, Nat.add_comm]

theorem low_bits {m : Nat} : m &&& 0x7F = m % 128 := Nat.and_two_pow_sub_one_eq_mod m 7

theorem high_bit : ∀ {b : Nat}, b < 256 → (b &&& 0x80 = 0 ↔ b < 128) := by
  intro b hb
  have hall : ∀ i : Fin 256, i.val &&& 0x80 = 0 ↔ i.val < 128 := by decide +kernel
  exact hall ⟨b, hb⟩

/-- One turn of the loop. -/
theorem varint_cons {b : UInt8} (hshift : shift ≤ 63) (hout : out < 2 ^ shift) : varint shift out (b :: buf) =
      if b.toNat < 128 then some (out + b.toNat % 128 * 2 ^ shift, buf)
      else varint (shift + 7) (out + b.toNat % 128 * 2 ^ shift) buf := by
  rw [varint, if_neg (by omega), low_bits]
  dsimp only
  rw [or_shiftLeft hout]
  exact if_congr (high_bit b.toNat_lt) rfl rfl

/-- What has been read stays below the next group. -/
theorem add_group_lt {m : Nat} (hout : out < 2 ^ shift) (hm : m < 128) : out + m * 2 ^ shift < 2 ^ (shift + 7) := by
  calc out + m * 2 ^ shift < 2 ^ shift + m * 2 ^ shift := Nat.add_lt_add_right hout _
    _ = (m + 1) * 2 ^ shift := by rw [Nat.succ_mul, Nat.add_comm]
    _ ≤ 128 * 2 ^ shift := Nat.mul_le_mul_right _ hm
    _ = 2 ^ (shift + 7) := by rw [Nat.pow_add, Nat.mul_comm]

/-- The groups behind the first stand seven bits higher. -/
theorem add_number_cons (out shift : Nat) (b : UInt8) (bs : Bytes) :
    out + number (b :: bs) * 2 ^ shift = out + b.toNat % 128 * 2 ^ shift + number bs * 2 ^ (shift + 7) := by
  rw [number_cons, Nat.pow_add]
  ring

/-- **What is read is one whole varint, of as many groups as are left of ten.** -/
theorem varint_eq_some_iff {v : Nat} {rest : Bytes} (hseven : shift % 7 = 0) (hout : out < 2 ^ shift) :
    varint shift out buf = some (v, rest) ↔
      ∃ bs, IsVarint bs ∧ buf = bs ++ rest ∧ shift + 7 * bs.length ≤ 70 ∧ v = out + number bs * 2 ^ shift := by
  induction buf generalizing shift out with
  | nil =>
    constructor
    · intro h
      cases h
    · rintro ⟨bs, hbs, hbuf, -⟩
      obtain ⟨rfl, -⟩ := append_eq_nil_iff.mp hbuf.symm
      cases hbs
  | cons b buf ih =>
    by_cases hshift : 63 < shift
    · rw [varint, if_pos hshift]
      constructor
      · intro h
        cases h
      · rintro ⟨bs, hbs, -, hlength, -⟩
        cases hbs <;> simp only [length_cons, length_nil] at hlength <;> omega
    rw [varint_cons (by omega) hout]
    have hnext := add_group_lt hout (Nat.mod_lt b.toNat (by decide))
    split
    case isTrue hlast =>
      constructor
      · intro h
        obtain ⟨rfl, rfl⟩ := Prod.mk.inj (Option.some.inj h)
        exact ⟨[b], .last hlast, rfl, by simp only [length_singleton]; omega, by rw [number_singleton]⟩
      · rintro ⟨bs, hbs, hbuf, -, rfl⟩
        cases hbs with
        | last hb =>
          obtain ⟨rfl, rfl⟩ := List.cons.inj hbuf
          rw [number_singleton]
        | cons hb _ =>
          obtain ⟨rfl, -⟩ := List.cons.inj hbuf
          omega
    case isFalse hmore =>
      rw [ih (by omega) hnext]
      constructor
      · rintro ⟨bs, hbs, rfl, hlength, rfl⟩
        refine ⟨b :: bs, .cons (by omega) hbs, rfl, ?_, (add_number_cons ..).symm⟩
        rw [length_cons]
        omega
      · rintro ⟨bs, hbs, hbuf, hlength, rfl⟩
        cases hbs with
        | last hb =>
          obtain ⟨rfl, -⟩ := List.cons.inj hbuf
          omega
        | @cons c bs _ hbs =>
          obtain ⟨rfl, rfl⟩ := List.cons.inj hbuf
          rw [length_cons] at hlength
          exact ⟨bs, hbs, rfl, by omega, add_number_cons ..⟩

/-! ## With an index -/

theorem varintLoop_eq (buf : Bytes) (i shift out : Nat) : varintLoop buf i shift out =
      (varint shift out (buf.drop i)).map fun r => (r.1, buf.length - r.2.length) := by
  induction i, shift, out using varintLoop.induct buf with
  | case1 i shift out hend =>
    rw [varintLoop, dif_pos hend]
    rcases hend with hend | hshift
    · rw [drop_eq_nil_of_le hend]
      rfl
    · cases buf.drop i with
      | nil => rfl
      | cons b rest => rw [varint, if_pos hshift]; rfl
  | case2 i shift out hend b hlast =>
    have hi : i < buf.length := by omega
    have hlast : buf[i].toNat &&& 0x80 = 0 := hlast
    rw [varintLoop, dif_neg hend, drop_eq_getElem_cons hi, varint, if_neg (show ¬63 < shift by omega)]
    dsimp only [get_eq_getElem]
    rw [if_pos hlast, if_pos hlast, Option.map_some, length_drop]
    congr 2
    omega
  | case3 i shift out hend b out' hmore ih =>
    have hi : i < buf.length := by omega
    have hmore : ¬buf[i].toNat &&& 0x80 = 0 := hmore
    rw [varintLoop, dif_neg hend, drop_eq_getElem_cons hi, varint, if_neg (show ¬63 < shift by omega)]
    dsimp only [get_eq_getElem]
    rw [if_neg hmore, if_neg hmore]
    exact ih

/-- What is read from an index on is one whole varint of ten bytes at most, as its number. -/
theorem varintAt_eq_some_iff {i v j : Nat} : varintAt buf i = some (v, j) ↔
      ∃ bs rest, IsVarint bs ∧ bs.length ≤ 10 ∧ buf.drop i = bs ++ rest ∧ v = number bs ∧ j = i + bs.length := by
  rw [varintAt, varintLoop_eq, Option.map_eq_some_iff]
  constructor
  · rintro ⟨⟨w, rest⟩, hvarint, hvj⟩
    obtain ⟨rfl, rfl⟩ := Prod.mk.inj hvj
    obtain ⟨bs, hbs, hdrop, hlength, rfl⟩ := (varint_eq_some_iff rfl Nat.one_pos).mp hvarint
    have hpos : 0 < bs.length := by cases hbs <;> exact Nat.succ_pos _
    have hsizes := congrArg List.length hdrop
    rw [length_drop, length_append] at hsizes
    exact ⟨bs, rest, hbs, by omega, hdrop, by omega, by dsimp only; omega⟩
  · rintro ⟨bs, rest, hbs, hlength, hdrop, rfl, rfl⟩
    have hpos : 0 < bs.length := by cases hbs <;> exact Nat.succ_pos _
    have hsizes := congrArg List.length hdrop
    rw [length_drop, length_append] at hsizes
    refine ⟨(number bs, rest), (varint_eq_some_iff rfl Nat.one_pos).mpr ⟨bs, hbs, hdrop, by omega, by omega⟩, ?_⟩
    congr 1
    dsimp only
    omega

/-- **The value is the protocol's reading of the bytes, unless a tenth byte overflows.** Whatever is read lies in the
buffer and has ten bytes at most, and every encoding of a number of sixty-four bits is read as that number. -/
theorem varintAt_sixtyFour_bits_iff (buf : Bytes) (i : Nat) :
    (∀ v j, varintAt buf i = some (v, j) →
      i + 1 ≤ j ∧ j ≤ i + 10 ∧ j ≤ buf.length ∧
      (v = number ((buf.drop i).take (j - i)) % 2 ^ 64 ↔ ¬Overflows (buf.drop i)) ∧
      (v < 2 ^ 64 ↔ ¬Overflows (buf.drop i))) ∧
    ∀ n < 2 ^ 64,
      (∀ before after, varintAt (before ++ Protobuf.varint n ++ after) before.length =
        some (n, before.length + (Protobuf.varint n).length)) ∧
      ∀ bs, IsVarint bs → bs.length ≤ 10 → number bs = n → ∀ before after,
        varintAt (before ++ bs ++ after) before.length = some (n, before.length + bs.length) := by
  have hread : ∀ bs, IsVarint bs → bs.length ≤ 10 → ∀ before after,
      varintAt (before ++ bs ++ after) before.length = some (number bs, before.length + bs.length) := by
    intro bs hbs hlength before after
    refine varintAt_eq_some_iff.mpr ⟨bs, after, hbs, hlength, ?_, rfl, rfl⟩
    rw [List.append_assoc, List.drop_left]
  refine ⟨fun v j h => ?_, fun n hn => ⟨fun before after => ?_, ?_⟩⟩
  · obtain ⟨bs, rest, hbs, hlength, hdrop, rfl, rfl⟩ := varintAt_eq_some_iff.mp h
    have hpos : 0 < bs.length := by cases hbs <;> exact Nat.succ_pos _
    have hsizes := congrArg List.length hdrop
    rw [List.length_drop, List.length_append] at hsizes
    rw [hdrop, overflows_iff hbs hlength rest, Nat.add_sub_cancel_left, List.take_left]
    omega
  · obtain ⟨hvarint, hnumber⟩ := isVarint_varint n
    have hlarge : n < 128 ^ 10 := hn.trans (by decide)
    have h := hread _ hvarint (length_varint (k := 9) hlarge) before after
    rwa [hnumber] at h
  · rintro bs hbs hlength rfl before after
    exact hread bs hbs hlength before after

/-- Three hundred takes two bytes. -/
theorem varintAt_three_hundred :
    varintAt [0x0A, 0xAC, 0x02] 1 = some (300, 3) ∧ 300 = number [0xAC, 0x02] % 2 ^ 64 := by
  have hread : varintAt [0x0A, 0xAC, 0x02] 1 = some (300, 3) := by
    rw [varintAt, varintLoop_eq]
    decide
  have h := (varintAt_sixtyFour_bits_iff _ _).1 _ _ hread
  refine ⟨hread, h.2.2.2.1.mpr ?_⟩
  rintro ⟨hcontinued, -⟩
  obtain ⟨b, hb, -⟩ := hcontinued 2 (by decide)
  cases hb

/-- Ten bytes of sixty-four bits and six more: the six are kept. -/
theorem varintAt_keeps_overflow :
    varintAt [0xFF, 0xFF, 0xFF, 0xFF, 0xFF, 0xFF, 0xFF, 0xFF, 0xFF, 0x7F] 0 = some (2 ^ 70 - 1, 10) ∧
    number [0xFF, 0xFF, 0xFF, 0xFF, 0xFF, 0xFF, 0xFF, 0xFF, 0xFF, 0x7F] % 2 ^ 64 = 2 ^ 64 - 1 := by
  constructor
  · rw [varintAt, varintLoop_eq]
    decide
  · decide

end SeamSdk.Python
