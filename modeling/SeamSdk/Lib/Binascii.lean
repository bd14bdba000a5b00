import SeamSdk.Lib.Base64

/-!
# Base64, lenient

Base64 as `binascii.a2b_base64` reads it outside its strict mode: characters outside the alphabet are skipped, padding
that is not due is skipped too, due padding ends the text, and the spare low bits of a last partial group are dropped.
`urlsafeB64decode` reads both alphabets.

- `a2b_skip`: what is outside the alphabet makes no difference;
- `urlsafeB64decode_padded`: what a strict decoder reads, this one reads alike.
-/

namespace Base64

open List

open ByteCodec (Bytes)

/-- The place in a group of four, the bits left over from the last character, and the padding seen after it. -/
def a2b (quadPos leftchar pads : Nat) : List Char → Option Bytes
  | [] => if quadPos = 0 then some [] else none
  | c :: cs =>
    if c = '=' then
      if quadPos < 2 then a2b quadPos leftchar pads cs
      else if 4 ≤ quadPos + (pads + 1) then some []
      else a2b quadPos leftchar (pads + 1) cs
    else
      match standard.value c with
      | none => a2b quadPos leftchar pads cs
      | some v =>
        match quadPos with
        | 0 => a2b 1 v 0 cs
        | 1 => (a2b 2 (v % 16) 0 cs).map (UInt8.ofNat (leftchar * 4 + v / 16) :: ·)
        | 2 => (a2b 3 (v % 4) 0 cs).map (UInt8.ofNat (leftchar * 16 + v / 4) :: ·)
        | _ => (a2b 0 0 0 cs).map (UInt8.ofNat (leftchar * 64 + v) :: ·)

/-- `str.translate` from the second alphabet to the first. -/
def translate (c : Char) : Char := if c = '-' then '+' else if c = '_' then '/' else c

/-- `base64.urlsafe_b64decode`, of an ASCII string. -/
def urlsafeB64decode (s : String) : Option Bytes :=
  if s.toList.all fun c => c.toNat < 128 then a2b 0 0 0 (s.toList.map translate) else none

theorem a2b_skip {c : Char} (hpad : c ≠ '=') (hc : standard.value c = none) (quadPos leftchar pads : Nat)
    (cs : List Char) : a2b quadPos leftchar pads (c :: cs) = a2b quadPos leftchar pads cs := by
  rw [a2b.eq_def]
  simp only [hc, if_neg hpad]

theorem a2b_symbol {c : Char} {v : Nat} (hpad : c ≠ '=') (hc : standard.value c = some v) (quadPos leftchar pads : Nat)
    (cs : List Char) : a2b quadPos leftchar pads (c :: cs) =
      match quadPos with
      | 0 => a2b 1 v 0 cs
      | 1 => (a2b 2 (v % 16) 0 cs).map (UInt8.ofNat (leftchar * 4 + v / 16) :: ·)
      | 2 => (a2b 3 (v % 4) 0 cs).map (UInt8.ofNat (leftchar * 16 + v / 4) :: ·)
      | _ => (a2b 0 0 0 cs).map (UInt8.ofNat (leftchar * 64 + v) :: ·) := by
  rw [a2b.eq_def]
  simp only [hc, if_neg hpad]

/-! ## Strict texts -/

/-- The symbols of the second alphabet are translated to symbols of the first, with their values. -/
theorem standard_translate {c : Char} {v : Nat} (h : urlSafe.value c = some v) :
    translate c ≠ '=' ∧ standard.value (translate c) = some v := by
  by_cases hdash : c = '-'
  · subst hdash
    exact ⟨by decide, by rw [← h]; decide⟩
  by_cases hlow : c = '_'
  · subst hlow
    exact ⟨by decide, by rw [← h]; decide⟩
  rw [translate, if_neg hdash, if_neg hlow]
  refine ⟨?_, ?_⟩
  · rintro rfl
    simp [Alphabet.value, urlSafe] at h
  · simp only [Alphabet.value, urlSafe, hdash, hlow, if_false] at h
    simp only [Alphabet.value]
    split at h
    · rw [if_pos ‹_›, h]
    rw [if_neg ‹_›]
    split at h
    · rw [if_pos ‹_›, h]
    rw [if_neg ‹_›]
    split at h
    · rw [if_pos ‹_›, h]
    · cases h

/-- A group is read as the strict decoder reads it, in any of its four lengths. -/
theorem a2b_translate : ∀ {cs : List Char} {l : List Nat} {b : Bytes}, cs.mapM urlSafe.value = some l →
    ofSextets l = some b → a2b 0 0 0 (cs.map translate ++ List.replicate (padding cs.length) '=') = some b
  | [], l, b, hl, hb => by
    cases hl
    cases hb
    rfl
  | [c], l, b, hl, hb => by
    simp only [mapM_cons, mapM_nil, Option.bind_eq_bind, Option.bind_eq_some_iff, Option.pure_def,
      Option.some.injEq] at hl
    obtain ⟨v, -, _, rfl, rfl⟩ := hl
    cases hb
  | [c, d], l, b, hl, hb => by
    simp only [mapM_cons, mapM_nil, Option.bind_eq_bind, Option.bind_eq_some_iff, Option.pure_def,
      Option.some.injEq] at hl
    obtain ⟨v, hv, _, ⟨w, hw, _, rfl, rfl⟩, rfl⟩ := hl
    simp only [ofSextets, Option.ite_none_right_eq_some, Option.some.injEq] at hb
    obtain ⟨-, rfl⟩ := hb
    obtain ⟨hc, hcv⟩ := standard_translate hv
    obtain ⟨hd, hdw⟩ := standard_translate hw
    simp only [map_cons, cons_append, a2b_symbol hc hcv, a2b_symbol hd hdw]
    rfl
  | [c, d, e], l, b, hl, hb => by
    simp only [mapM_cons, mapM_nil, Option.bind_eq_bind, Option.bind_eq_some_iff, Option.pure_def,
      Option.some.injEq] at hl
    obtain ⟨v, hv, _, ⟨w, hw, _, ⟨u, hu, _, rfl, rfl⟩, rfl⟩, rfl⟩ := hl
    simp only [ofSextets, Option.ite_none_right_eq_some, Option.some.injEq] at hb
    obtain ⟨-, rfl⟩ := hb
    obtain ⟨hc, hcv⟩ := standard_translate hv
    obtain ⟨hd, hdw⟩ := standard_translate hw
    obtain ⟨he, heu⟩ := standard_translate hu
    simp only [map_cons, cons_append, a2b_symbol hc hcv, a2b_symbol hd hdw, a2b_symbol he heu]
    rfl
  | c :: d :: e :: f :: cs, l, b, hl, hb => by
    simp only [mapM_cons, Option.bind_eq_bind, Option.bind_eq_some_iff, Option.pure_def,
      Option.some.injEq] at hl
    obtain ⟨v, hv, _, ⟨w, hw, _, ⟨u, hu, _, ⟨t, ht, l, hl, rfl⟩, rfl⟩, rfl⟩, rfl⟩ := hl
    simp only [ofSextets, Option.bind_eq_bind, Option.bind_eq_some_iff, Option.some.injEq] at hb
    obtain ⟨b, hb, rfl⟩ := hb
    obtain ⟨hc, hcv⟩ := standard_translate hv
    obtain ⟨hd, hdw⟩ := standard_translate hw
    obtain ⟨he, heu⟩ := standard_translate hu
    obtain ⟨hf, hft⟩ := standard_translate ht
    have hpad : padding (c :: d :: e :: f :: cs).length = padding cs.length := by
      simp only [padding, length_cons]
      omega
    simp only [hpad, map_cons, cons_append, a2b_symbol hc hcv, a2b_symbol hd hdw, a2b_symbol he heu,
      a2b_symbol hf hft, a2b_translate hl hb, Option.map_some]

/-- **What a strict decoder reads is read alike**, once it is padded. -/
theorem urlsafeB64decode_padded {s : String} {b : Bytes} (h : decodeUnpadded urlSafe s = some b) :
    urlsafeB64decode (s ++ String.ofList (List.replicate (padding s.length) '=')) = some b := by
  obtain ⟨l, hl, hb⟩ := Option.bind_eq_some_iff.mp h
  have hascii : ∀ c ∈ s.toList, c.toNat < 128 := fun c hc => urlSafe_lt (value_of_mem_decodeChars h hc)
  have hpads : (List.replicate (padding s.length) '=').map translate = List.replicate (padding s.length) '=' := by
    rw [map_replicate]
    rfl
  rw [urlsafeB64decode, if_pos, String.toList_append, String.toList_ofList, map_append, hpads,
    ← String.length_toList, a2b_translate hl hb]
  simp only [String.toList_append, String.toList_ofList, all_append, Bool.and_eq_true, all_eq_true,
    decide_eq_true_eq]
  refine ⟨hascii, fun c hc => ?_⟩
  rw [eq_of_mem_replicate hc]
  decide

end Base64
