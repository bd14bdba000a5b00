import SeamSdk.Lib.ByteCodec
import Mathlib.Data.List.Nodup

/-!
# Protocol-buffer messages in tag order

A message is a list of groups, one for each declared tag, holding the values written under that tag: none for an
absent field or a scalar at its default, several for a repeated field. `encodeMessage` writes them in the order
given. The bytes determine the fields (`encode_inj`) and, when the declared tags are distinct, the groups
(`encodeMessage_inj`), so an encoding is injective as soon as the values under each tag are.
-/

namespace Protobuf

open List

open ByteCodec (Bytes utf8 utf8_injective utf8_inj)

/-! ## Varints -/

/-- Base-128 groups, least significant first, with the top bit set on all but the last. -/
def varintGo : Nat → Nat → Bytes
  | 0, _ => []
  | fuel + 1, n => if n < 128 then [UInt8.ofNat n] else UInt8.ofNat (n % 128 + 128) :: varintGo fuel (n / 128)

/-- There are at most `n` groups after the first. -/
def varint (n : Nat) : Bytes := varintGo (n + 1) n

theorem ofNat_inj_of_lt {a b : Nat} (ha : a < 256) (hb : b < 256) (h : UInt8.ofNat a = UInt8.ofNat b) : a = b := by
  have := congrArg UInt8.toNat h
  simp only [UInt8.toNat_ofNat'] at this
  omega

theorem varintGo_split : ∀ {f g n m : Nat} {r s : Bytes}, n < f → m < g →
    varintGo f n ++ r = varintGo g m ++ s → n = m ∧ r = s
  | f + 1, g + 1, n, m, r, s, hf, hg, h => by
    simp only [varintGo] at h
    split at h
    · split at h
      · simp only [cons_append, nil_append, List.cons.injEq] at h
        exact ⟨ofNat_inj_of_lt (by omega) (by omega) h.1, h.2⟩
      · -- a last group never equals a continued one: only the latter has the top bit
        simp only [cons_append, nil_append, List.cons.injEq] at h
        have := ofNat_inj_of_lt (by omega) (by omega) h.1
        omega
    · split at h
      · simp only [cons_append, nil_append, List.cons.injEq] at h
        have := ofNat_inj_of_lt (by omega) (by omega) h.1
        omega
      · simp only [cons_append, List.cons.injEq] at h
        have hlow := ofNat_inj_of_lt (by omega) (by omega) h.1
        obtain ⟨hhigh, hrs⟩ := varintGo_split (by omega) (by omega) h.2
        exact ⟨by omega, hrs⟩

theorem varint_split {n m : Nat} {r s : Bytes} (h : varint n ++ r = varint m ++ s) : n = m ∧ r = s :=
  varintGo_split (Nat.lt_succ_self n) (Nat.lt_succ_self m) h

theorem varint_ne_nil (n : Nat) : varint n ≠ [] := by
  unfold varint varintGo
  split <;> simp

/-! ## Fields -/

/-- The two wire types in use: a varint (`0`) and a length-delimited byte string (`2`). -/
inductive Value
  | varint (n : Nat)
  | bytes (b : Bytes)

/-- A field on the wire. -/
structure Field where
  tag : Nat
  value : Value

def Value.wireType : Value → Nat
  | .varint _ => 0
  | .bytes _ => 2

def Value.encode : Value → Bytes
  | .varint n => Protobuf.varint n
  | .bytes b => Protobuf.varint b.length ++ b

def Field.encode (f : Field) : Bytes := Protobuf.varint (8 * f.tag + f.value.wireType) ++ f.value.encode

theorem Value.wireType_lt (v : Value) : v.wireType < 8 := by cases v <;> simp [Value.wireType]

theorem Value.split : ∀ {v w : Value} {r s : Bytes}, v.wireType = w.wireType → v.encode ++ r = w.encode ++ s →
    v = w ∧ r = s
  | .varint _, .varint _, _, _, _, h => by
    obtain ⟨hn, hrs⟩ := varint_split h
    exact ⟨congrArg Value.varint hn, hrs⟩
  | .bytes _, .bytes _, _, _, _, h => by
    simp only [Value.encode, append_assoc] at h
    obtain ⟨hlen, h⟩ := varint_split h
    obtain ⟨hb, hrs⟩ := append_inj h hlen
    exact ⟨congrArg Value.bytes hb, hrs⟩
  | .varint _, .bytes _, _, _, hw, _ | .bytes _, .varint _, _, _, hw, _ => by cases hw

theorem Field.split {f g : Field} {r s : Bytes} (h : f.encode ++ r = g.encode ++ s) : f = g ∧ r = s := by
  simp only [Field.encode, append_assoc] at h
  obtain ⟨hkey, h⟩ := varint_split h
  have hf := f.value.wireType_lt
  have hg := g.value.wireType_lt
  obtain ⟨hv, hrs⟩ := Value.split (by omega) h
  obtain ⟨tf, vf⟩ := f
  obtain ⟨tg, vg⟩ := g
  simp only at hkey hv hf
  subst hv
  exact ⟨by congr 1; omega, hrs⟩

theorem Field.encode_ne_nil (f : Field) : f.encode ≠ [] := by
  simp [Field.encode, varint_ne_nil]

def encode (fs : List Field) : Bytes := fs.flatMap Field.encode

/-- The bytes of a message determine its fields. -/
theorem encode_inj : ∀ {fs gs : List Field}, encode fs = encode gs → fs = gs
  | [], [], _ => rfl
  | [], g :: gs, h => by
    simp only [encode, flatMap_nil, flatMap_cons] at h
    exact absurd (append_eq_nil_iff.mp h.symm).1 g.encode_ne_nil
  | f :: fs, [], h => by
    simp only [encode, flatMap_nil, flatMap_cons] at h
    exact absurd (append_eq_nil_iff.mp h).1 f.encode_ne_nil
  | f :: fs, g :: gs, h => by
    simp only [encode, flatMap_cons] at h
    obtain ⟨hfg, h⟩ := Field.split h
    rw [hfg, encode_inj h]

/-! ## Groups -/

/-- The values written under each declared tag. -/
abbrev Groups := List (Nat × List Value)

def Groups.fields (gs : Groups) : List Field := gs.flatMap fun g => g.2.map (Field.mk g.1)

theorem Groups.fields_cons (t : Nat) (vs : List Value) (gs : Groups) :
    Groups.fields ((t, vs) :: gs) = vs.map (Field.mk t) ++ Groups.fields gs := rfl

theorem Groups.tag_mem {gs : Groups} {f : Field} (h : f ∈ Groups.fields gs) : f.tag ∈ gs.map Prod.fst := by
  simp only [Groups.fields, mem_flatMap, mem_map] at h
  obtain ⟨g, hg, v, _, rfl⟩ := h
  exact mem_map_of_mem hg

/-- Values are told apart from the fields behind them by their tag. -/
theorem map_mk_split : ∀ {t : Nat} {vs ws : List Value} {r s : List Field}, (∀ f ∈ r, f.tag ≠ t) →
    (∀ f ∈ s, f.tag ≠ t) → vs.map (Field.mk t) ++ r = ws.map (Field.mk t) ++ s → vs = ws ∧ r = s
  | _, [], [], _, _, _, _, h => ⟨rfl, by simpa using h⟩
  | t, [], w :: ws, r, s, hr, _, h => by
    simp only [map_nil, nil_append, map_cons, cons_append] at h
    exact absurd rfl (hr ⟨t, w⟩ (by rw [h]; exact mem_cons_self))
  | t, v :: vs, [], r, s, _, hs, h => by
    simp only [map_nil, nil_append, map_cons, cons_append] at h
    exact absurd rfl (hs ⟨t, v⟩ (by rw [← h]; exact mem_cons_self))
  | t, v :: vs, w :: ws, r, s, hr, hs, h => by
    simp only [map_cons, cons_append, List.cons.injEq, Field.mk.injEq, true_and] at h
    obtain ⟨hvs, hrs⟩ := map_mk_split hr hs h.2
    exact ⟨by rw [h.1, hvs], hrs⟩

theorem Groups.fields_inj : ∀ {gs hs : Groups}, gs.map Prod.fst = hs.map Prod.fst → (gs.map Prod.fst).Nodup →
    Groups.fields gs = Groups.fields hs → gs = hs
  | [], [], _, _, _ => rfl
  | [], h :: hs, ht, _, _ | h :: hs, [], ht, _, _ => by simp at ht
  | (t, vs) :: gs, (u, ws) :: hs, ht, hn, h => by
    simp only [map_cons, List.cons.injEq] at ht
    obtain ⟨rfl, ht⟩ := ht
    simp only [map_cons, nodup_cons] at hn
    rw [fields_cons, fields_cons] at h
    have hgs : ∀ f ∈ Groups.fields gs, f.tag ≠ t := by
      intro f hf he
      exact hn.1 (he ▸ Groups.tag_mem hf)
    have hhs : ∀ f ∈ Groups.fields hs, f.tag ≠ t := by
      intro f hf he
      exact hn.1 (by rw [ht]; exact he ▸ Groups.tag_mem hf)
    obtain ⟨hv, h⟩ := map_mk_split hgs hhs h
    rw [hv, Groups.fields_inj ht hn.2 h]

/-- A message with its groups in the order given. -/
def encodeMessage (gs : Groups) : Bytes := encode gs.fields

/-- **Messages over the same distinct tags are determined by their bytes.** -/
theorem encodeMessage_inj (tags : List Nat) {gs hs : Groups} (hg : gs.map Prod.fst = tags)
    (hh : hs.map Prod.fst = tags) (hn : tags.Nodup) : encodeMessage gs = encodeMessage hs ↔ gs = hs := by
  subst hg
  constructor
  · intro h
    exact Groups.fields_inj hh.symm hn (encode_inj h)
  · intro h
    rw [h]

/-! ## Values under a tag -/

/-- An implicit-presence integer: omitted at `0`. -/
def uint (n : Nat) : List Value := if n = 0 then [] else [.varint n]

/-- An implicit-presence byte string: omitted when empty. -/
def bytes (b : Bytes) : List Value := if b = [] then [] else [.bytes b]

def string (s : String) : List Value := bytes (utf8 s)

/-- An explicit-presence integer. -/
def uintOpt (o : Option Nat) : List Value := (o.map Value.varint).toList

/-- An explicit-presence byte string. -/
def bytesOpt (o : Option Bytes) : List Value := (o.map Value.bytes).toList

def stringOpt (o : Option String) : List Value := bytesOpt (o.map utf8)

def repeatedString (ss : List String) : List Value := ss.map fun s => .bytes (utf8 s)

/-- A sub-message, written when present. -/
def messageOpt (o : Option Groups) : List Value := bytesOpt (o.map encodeMessage)

@[simp] theorem uint_inj {n m : Nat} : uint n = uint m ↔ n = m := by
  unfold uint
  split <;> split <;> simp_all [eq_comm]

@[simp] theorem bytes_inj {a b : Bytes} : bytes a = bytes b ↔ a = b := by
  unfold bytes
  split <;> split <;> simp_all [eq_comm]

@[simp] theorem string_inj {s t : String} : string s = string t ↔ s = t := by
  rw [string, string, bytes_inj, utf8_inj]

@[simp] theorem uintOpt_inj {a b : Option Nat} : uintOpt a = uintOpt b ↔ a = b := by
  cases a <;> cases b <;> simp [uintOpt]

@[simp] theorem bytesOpt_inj {a b : Option Bytes} : bytesOpt a = bytesOpt b ↔ a = b := by
  cases a <;> cases b <;> simp [bytesOpt]

@[simp] theorem stringOpt_inj {a b : Option String} : stringOpt a = stringOpt b ↔ a = b := by
  rw [stringOpt, stringOpt, bytesOpt_inj]
  exact (Option.map_injective utf8_injective).eq_iff

@[simp] theorem repeatedString_inj {a b : List String} : repeatedString a = repeatedString b ↔ a = b := by
  refine Function.Injective.eq_iff (map_injective_iff.mpr ?_)
  intro s t hst
  exact utf8_injective (Value.bytes.inj hst)

/-- Sub-messages are equal when present together and their groups are determined by their bytes. -/
theorem messageOpt_inj {α : Type*} {g : α → Groups}
    (hg : ∀ {x y}, encodeMessage (g x) = encodeMessage (g y) → x = y) {a b : Option α} :
    messageOpt (a.map g) = messageOpt (b.map g) ↔ a = b := by
  rw [messageOpt, messageOpt, bytesOpt_inj, Option.map_map, Option.map_map]
  exact (Option.map_injective fun _ _ => hg).eq_iff

end Protobuf
