import SeamSdk.Lib.Protobuf
import Mathlib.Data.List.OfFn
import Mathlib.Data.Nat.Digits.Lemmas

/-!
# The protocol-buffer wire format, with its four wire types

A message on the wire is a list of fields in any order. What a message holds under a declared field is what stands under
the number and the wire type of that field (`bytesUnder`, `varintsUnder`); every other field is unknown to its reader and
may stand anywhere. A field of a scalar type at its default may be left out (`HasBytes`, `HasVarint`).

- `varint_of_le`: a varint is its low group and the rest;
- `isVarint_varint`: a number is written as a varint of that number;
- `overflows_iff`: ten groups hold more than sixty-four bits when the last is above one;
- `length_le_of_mem_bytesUnder`: a nested message is no longer than the one around it.
-/

namespace ProtoWire

open Protobuf List Nat

open ByteCodec (Bytes utf8)

/-- A value: a varint (`0`), eight bytes (`1`), a byte string with its length (`2`), or four bytes (`5`). -/
inductive Value
  | varint (n : UInt64)
  | fixed64 (b : Fin 8 → UInt8)
  | bytes (b : Bytes)
  | fixed32 (b : Fin 4 → UInt8)

def Value.wireType : Value → Nat
  | .varint _ => 0
  | .fixed64 _ => 1
  | .bytes _ => 2
  | .fixed32 _ => 5

theorem Value.wireType_lt (v : Value) : v.wireType < 8 := by cases v <;> simp [Value.wireType]

def Value.encode : Value → Bytes
  | .varint n => Protobuf.varint n.toNat
  | .fixed64 b => List.ofFn b
  | .bytes b => Protobuf.varint b.length ++ b
  | .fixed32 b => List.ofFn b

/-- A field on the wire. -/
structure Field where
  num : Nat
  num_lt : num < 2 ^ 29
  value : Value

def Field.encode (f : Field) : Bytes := varint (8 * f.num + f.value.wireType) ++ f.value.encode

def encode (fs : List Field) : Bytes := fs.flatMap Field.encode

@[simp] theorem encode_cons (f : Field) (fs : List Field) : encode (f :: fs) = f.encode ++ encode fs := rfl

/-! ## What stands under a number -/

/-- The byte string of a field with that number. -/
def Field.bytes? (num : Nat) (f : Field) : Option Bytes :=
  match f.value with
  | .bytes b => if f.num = num then some b else none
  | _ => none

/-- The varint of a field with that number. -/
def Field.varint? (num : Nat) (f : Field) : Option UInt64 :=
  match f.value with
  | .varint n => if f.num = num then some n else none
  | _ => none

def bytesUnder (num : Nat) (fs : List Field) : List Bytes := fs.filterMap (Field.bytes? num)

def varintsUnder (num : Nat) (fs : List Field) : List UInt64 := fs.filterMap (Field.varint? num)

/-- A singular field of bytes. -/
def HasBytes (fs : List Field) (num : Nat) (b : Bytes) : Prop :=
  bytesUnder num fs = [b] ∨ b = [] ∧ bytesUnder num fs = []

/-- A singular field of text. -/
def HasText (fs : List Field) (num : Nat) (s : String) : Prop := HasBytes fs num (utf8 s)

/-- A singular field of a number. -/
def HasVarint (fs : List Field) (num : Nat) (n : UInt64) : Prop :=
  varintsUnder num fs = [n] ∨ n = 0 ∧ varintsUnder num fs = []

variable {fs : List Field} {num n : Nat} {b : Bytes}

theorem HasBytes.eq_of_mem {c : Bytes} (h : HasBytes fs num b) (hc : c ∈ bytesUnder num fs) : c = b := by
  rcases h with h | ⟨-, h⟩
  · rw [h] at hc
    exact mem_singleton.mp hc
  · rw [h] at hc
    cases hc

/-- The last of a singular field, from its default on. -/
theorem HasBytes.foldl {τ : Type} {g : τ → Bytes → τ} {t t' : τ} (h : HasBytes fs num b) (hg : g t b = t')
    (hdefault : b = [] → t = t') : (bytesUnder num fs).foldl g t = t' := by
  rcases h with h | ⟨hb, h⟩
  · rw [h]
    exact hg
  · rw [h]
    exact hdefault hb

theorem HasVarint.foldl {n : UInt64} {τ : Type} {g : τ → UInt64 → τ} {t t' : τ} (h : HasVarint fs num n)
    (hg : g t n = t') (hdefault : n = 0 → t = t') : (varintsUnder num fs).foldl g t = t' := by
  rcases h with h | ⟨hn, h⟩
  · rw [h]
    exact hg
  · rw [h]
    exact hdefault hn

theorem Field.length_le_of_bytes? {f : Field} (h : f.bytes? num = some b) : b.length ≤ f.encode.length := by
  unfold Field.bytes? at h
  split at h
  · rename_i c hvalue
    rw [Option.ite_none_right_eq_some] at h
    obtain ⟨-, h⟩ := h
    cases h
    rw [Field.encode, hvalue, Value.encode]
    simp only [length_append]
    omega
  · cases h

theorem length_le_of_mem {f : Field} (h : f ∈ fs) : f.encode.length ≤ (encode fs).length := by
  obtain ⟨l, r, rfl⟩ := append_of_mem h
  simp only [encode, flatMap_append, flatMap_cons, length_append]
  omega

/-- A nested message is no longer than the one around it. -/
theorem length_le_of_mem_bytesUnder (h : b ∈ bytesUnder num fs) : b.length ≤ (encode fs).length := by
  obtain ⟨f, hf, hb⟩ := mem_filterMap.mp h
  exact (Field.length_le_of_bytes? hb).trans (length_le_of_mem hf)

/-! ## Varints -/

/-- Fuel beyond the number makes no difference. -/
theorem varintGo_fuel : ∀ {f g n : Nat}, n < f → n < g → varintGo f n = varintGo g n
  | f + 1, g + 1, n, hf, hg => by
    rw [varintGo, varintGo]
    split
    · rfl
    · exact congrArg (_ :: ·) (varintGo_fuel (by omega) (by omega))

theorem varint_of_lt (h : n < 128) : varint n = [UInt8.ofNat n] := by
  rw [varint, varintGo, if_pos h]

/-- **A varint is its low group and the rest.** -/
theorem varint_of_le (h : 128 ≤ n) : varint n = UInt8.ofNat (n % 128 + 128) :: varint (n / 128) := by
  rw [varint, varintGo, if_neg (by omega)]
  exact congrArg (_ :: ·) (varintGo_fuel (by omega) (lt_succ_self _))

/-- Bytes that form one varint: the top bit is set on all but the last. -/
inductive IsVarint : Bytes → Prop
  | last {b : UInt8} : b.toNat < 128 → IsVarint [b]
  | cons {b : UInt8} {bs : Bytes} : 128 ≤ b.toNat → IsVarint bs → IsVarint (b :: bs)

/-- The number that bytes write in base 128, with the least significant group first. -/
def number (bs : Bytes) : Nat := Nat.ofDigits 128 (bs.map fun b => b.toNat % 128)

theorem number_cons (b : UInt8) (bs : Bytes) : number (b :: bs) = b.toNat % 128 + 128 * number bs := by
  rw [number, map_cons, ofDigits_cons, number]

theorem number_singleton (b : UInt8) : number [b] = b.toNat % 128 := by
  rw [number_cons]
  rfl

theorem number_append (bs cs : Bytes) : number (bs ++ cs) = number bs + 128 ^ bs.length * number cs := by
  rw [number, map_append, ofDigits_append, length_map]
  rfl

theorem number_lt (bs : Bytes) : number bs < 128 ^ bs.length := by
  have h := ofDigits_lt_base_pow_length (b := 128) (l := bs.map fun b => b.toNat % 128) (by decide)
    (by simp only [mem_map]; rintro _ ⟨b, -, rfl⟩; exact mod_lt _ (by decide))
  rwa [length_map] at h

/-- A number is written as a varint, of that number. -/
theorem isVarint_varint (n : Nat) : IsVarint (varint n) ∧ number (varint n) = n := by
  induction n using Nat.strongRecOn with
  | ind n ih =>
    by_cases hlast : n < 128
    · have hbyte : (UInt8.ofNat n).toNat = n := by
        rw [UInt8.toNat_ofNat']
        omega
      rw [varint_of_lt hlast, number_singleton, hbyte]
      exact ⟨.last (by omega), mod_eq_of_lt hlast⟩
    · have hbyte : (UInt8.ofNat (n % 128 + 128)).toNat = n % 128 + 128 := by
        rw [UInt8.toNat_ofNat']
        omega
      obtain ⟨hvarint, hnumber⟩ := ih (n / 128) (by omega)
      rw [varint_of_le (by omega), number_cons, hbyte, hnumber]
      exact ⟨.cons (by omega) hvarint, by omega⟩

theorem length_varint : ∀ {k : Nat}, n < 128 ^ (k + 1) → (varint n).length ≤ k + 1 := by
  induction n using Nat.strongRecOn with
  | ind n ih =>
    intro k hn
    by_cases hlast : n < 128
    · rw [varint_of_lt hlast]
      exact Nat.succ_le_succ (zero_le k)
    · cases k with
      | zero => omega
      | succ k =>
        rw [varint_of_le (by omega), length_cons]
        exact Nat.succ_le_succ (ih (n / 128) (by omega) (Nat.div_lt_of_lt_mul (by rwa [Nat.pow_succ'] at hn)))

/-- All but the last byte are continued. -/
theorem IsVarint.split {bs : Bytes} (h : IsVarint bs) :
    ∃ init b, bs = init ++ [b] ∧ (∀ c ∈ init, 128 ≤ c.toNat) ∧ b.toNat < 128 := by
  induction h with
  | @last b hb => exact ⟨[], b, rfl, by simp, hb⟩
  | @cons c bs hc _ ih =>
    obtain ⟨init, b, rfl, hinit, hb⟩ := ih
    refine ⟨c :: init, b, rfl, ?_, hb⟩
    rintro d (_ | ⟨_, hd⟩)
    · exact hc
    · exact hinit d hd

/-- Nine continued bytes, and a tenth above one. -/
def Overflows (bs : Bytes) : Prop :=
  (∀ k < 9, ∃ b, bs[k]? = some b ∧ 128 ≤ b.toNat) ∧ ∃ b, bs[9]? = some b ∧ 1 < b.toNat

/-- **Ten groups hold more than sixty-four bits when the last is above one.** -/
theorem overflows_iff {bs : Bytes} (h : IsVarint bs) (hlength : bs.length ≤ 10) (rest : Bytes) :
    Overflows (bs ++ rest) ↔ 2 ^ 64 ≤ number bs := by
  obtain ⟨init, b, rfl, hinit, hb⟩ := h.split
  have hlow := number_lt init
  rw [length_append, length_singleton] at hlength
  have hat : (init ++ [b] ++ rest)[init.length]? = some b := by simp
  rw [number_append, number_singleton, mod_eq_of_lt hb]
  by_cases hten : init.length = 9
  · rw [hten] at hlow hat ⊢
    constructor
    · rintro ⟨-, c, hc, hone⟩
      rw [hat] at hc
      cases hc
      omega
    · intro hlarge
      refine ⟨fun k hk => ?_, b, hat, by omega⟩
      have hk : k < init.length := by omega
      refine ⟨init[k], ?_, hinit _ (getElem_mem hk)⟩
      rw [append_assoc, List.getElem?_append_left hk, List.getElem?_eq_getElem hk]
  · have hshort : number init + 128 ^ init.length * b.toNat < 128 ^ 9 := by
      calc number init + 128 ^ init.length * b.toNat
          < 128 ^ init.length + 128 ^ init.length * b.toNat := Nat.add_lt_add_right hlow _
        _ = 128 ^ init.length * (b.toNat + 1) := by rw [mul_succ, add_comm]
        _ ≤ 128 ^ init.length * 128 := mul_le_mul_left _ hb
        _ ≤ 128 ^ 9 := by
          rw [← pow_succ]
          exact Nat.pow_le_pow_right (by decide) (by omega)
    constructor
    · rintro ⟨hcontinued, -⟩
      -- the last byte stands where a continued one should
      obtain ⟨c, hc, hlarge⟩ := hcontinued init.length (by omega)
      rw [hat] at hc
      cases hc
      omega
    · intro hlarge
      have : (128 : Nat) ^ 9 < 2 ^ 64 := by decide
      omega

end ProtoWire
