import SeamSdk.Verify.BundleMembers

/-!
# What counts as hexadecimal in a bundle

`hex_decode` cuts its text into pairs and leaves each to `u8::from_str_radix`, which takes a sign: `+f` is read as `0f`.
Every text it accepts is made of such pairs (`hexDecode_eq_some_iff`), so it is strict as long as no pair begins with a
sign, and it reads back whatever `hex` writes.
-/

namespace SeamSdk

open ByteCodec RustText List Option

/-- The digits of either case. -/
def hexChars : List Char := "0123456789abcdefABCDEF".toList

/-- The characters two by two; one that is left over is dropped. -/
def pairsOf : List Char → List (Char × Char)
  | c :: d :: cs => (c, d) :: pairsOf cs
  | _ => []

/-- Pairs of a digit or a sign and a digit, with a sign somewhere. -/
def SignedPairs (s : String) : Prop :=
  s.length % 2 = 0 ∧ (∀ p ∈ pairsOf s.toList, (p.1 ∈ hexChars ∨ p.1 = '+') ∧ p.2 ∈ hexChars) ∧
    ∃ p ∈ pairsOf s.toList, p.1 = '+'

/-! ## Digits -/

variable {c d : Char} {cs : List Char}

theorem lt_of_hexValue {v : Nat} (h : hexValue c = some v) : c.toNat < 128 ∧ v < 16 := by
  unfold hexValue hexDigitValue at h
  split_ifs at h <;> cases h <;> omega

theorem ascii_of_mem_hexChars (h : c ∈ hexChars) : c.toNat < 128 := by
  have hall : hexChars.all (fun c => c.toNat < 128) = true := by decide
  exact of_decide_eq_true (all_eq_true.mp hall c h)

/-- A digit has the value whose lowercase digit it is. -/
theorem hexValue_eq_some_iff {v : Nat} : hexValue c = some v ↔ c ∈ hexChars ∧ v < 16 ∧ hexDigit v = c.toLower := by
  have hall : ∀ n < 128, ∀ v < 16, hexValue (Char.ofNat n) = some v ↔
      Char.ofNat n ∈ hexChars ∧ hexDigit v = (Char.ofNat n).toLower := by decide +kernel
  constructor
  · intro h
    obtain ⟨hc, hv⟩ := lt_of_hexValue h
    rw [← Char.ofNat_toNat c, hall _ hc v hv] at h
    rw [Char.ofNat_toNat] at h
    exact ⟨h.1, hv, h.2⟩
  · rintro ⟨hc, hv, hlower⟩
    rw [← Char.ofNat_toNat c, hall _ (ascii_of_mem_hexChars hc) v hv, Char.ofNat_toNat]
    exact ⟨hc, hlower⟩

theorem exists_hexValue (h : c ∈ hexChars) : ∃ v, hexValue c = some v := by
  have hall : hexChars.all (fun c => (hexValue c).isSome) = true := by decide
  exact isSome_iff_exists.mp (all_eq_true.mp hall c h)

theorem ne_plus_of_mem (h : c ∈ hexChars) : c ≠ '+' := by
  rintro rfl
  exact absurd h (by decide)

/-! ## Pairs -/

/-- What `from_str_radix` makes of two characters. -/
inductive ReadsPair : Char → Char → UInt8 → Prop
  | digits {c d : Char} {x y : Nat} :
      hexValue c = some x → hexValue d = some y → ReadsPair c d (UInt8.ofNat (x * 16 + y))
  | sign {d : Char} {y : Nat} : hexValue d = some y → ReadsPair '+' d (UInt8.ofNat y)

theorem radixDigits_of_ne (h : c ≠ '+') : radixDigits (c :: cs) = c :: cs := by
  unfold radixDigits
  split
  · rename_i hcs
    exact absurd (List.cons.inj hcs).1 h
  · rfl

/-- Two digits always fit a byte. -/
theorem u8FromHex_digits {x y : Nat} (hc : hexValue c = some x) (hd : hexValue d = some y) :
    u8FromHex [c, d] = some (UInt8.ofNat (x * 16 + y)) := by
  have hplus : c ≠ '+' := ne_plus_of_mem (hexValue_eq_some_iff.mp hc).1
  have hx := (lt_of_hexValue hc).2
  have hy := (lt_of_hexValue hd).2
  have hradix : radixDigits [c, d] = [c, d] := radixDigits_of_ne hplus
  simp only [u8FromHex, hradix, foldlM_cons, foldlM_nil, hc, hd, bind_eq_bind, bind_some,
    Option.pure_def]
  rw [if_pos (by omega), bind_some, if_pos (by omega)]
  simp

theorem u8FromHex_sign {y : Nat} (hd : hexValue d = some y) : u8FromHex ['+', d] = some (UInt8.ofNat y) := by
  have hy := (lt_of_hexValue hd).2
  have hradix : radixDigits ['+', d] = [d] := rfl
  simp only [u8FromHex, hradix, foldlM_cons, foldlM_nil, hd, bind_eq_bind, bind_some,
    Option.pure_def]
  rw [if_pos (by omega), bind_some]
  simp

theorem u8FromHex_eq_some_iff {b : UInt8} : u8FromHex [c, d] = some b ↔ ReadsPair c d b := by
  constructor
  · intro h
    by_cases hplus : c = '+'
    · subst hplus
      cases hd : hexValue d with
      | none => simp [u8FromHex, radixDigits, hd] at h
      | some y =>
        rw [u8FromHex_sign hd] at h
        cases h
        exact .sign hd
    · have hradix : radixDigits [c, d] = [c, d] := radixDigits_of_ne hplus
      cases hc : hexValue c with
      | none => simp [u8FromHex, hradix, hc] at h
      | some x =>
        cases hd : hexValue d with
        | none => simp [u8FromHex, hradix, hc, hd] at h
        | some y =>
          rw [u8FromHex_digits hc hd] at h
          cases h
          exact .digits hc hd
  · rintro (⟨hc, hd⟩ | hd)
    · exact u8FromHex_digits hc hd
    · exact u8FromHex_sign hd

/-- What the pairs of a text are read as. -/
inductive Reads : List Char → Bytes → Prop
  | nil : Reads [] []
  | cons {c d : Char} {b : UInt8} {cs : List Char} {bs : Bytes} :
      ReadsPair c d b → Reads cs bs → Reads (c :: d :: cs) (b :: bs)

theorem hexPairs_eq_some_iff : ∀ {cs : List Char} {bs : Bytes}, hexPairs cs = some bs ↔ Reads cs bs
  | [], bs => by
    constructor
    · intro h
      cases h
      exact .nil
    · rintro ⟨⟩
      rfl
  | [c], bs => by
    constructor
    · intro h
      cases h
    · rintro ⟨⟩
  | c :: d :: cs, bs => by
    rw [hexPairs]
    constructor
    · intro h
      obtain ⟨b, hb, h⟩ := bind_eq_some_iff.mp h
      obtain ⟨bs', hbs, h⟩ := bind_eq_some_iff.mp h
      cases h
      exact .cons (u8FromHex_eq_some_iff.mp hb) (hexPairs_eq_some_iff.mp hbs)
    · rintro (_ | ⟨hb, hbs⟩)
      rw [u8FromHex_eq_some_iff.mpr hb, hexPairs_eq_some_iff.mpr hbs]
      rfl

theorem ReadsPair.chars {b : UInt8} (h : ReadsPair c d b) : (c ∈ hexChars ∨ c = '+') ∧ d ∈ hexChars := by
  cases h with
  | digits hc hd => exact ⟨.inl (hexValue_eq_some_iff.mp hc).1, (hexValue_eq_some_iff.mp hd).1⟩
  | sign hd => exact ⟨.inr rfl, (hexValue_eq_some_iff.mp hd).1⟩

/-- **What is read has pairs of a digit or a sign and a digit**, and any such text is read. -/
theorem reads_iff : ∀ {cs : List Char}, (∃ bs, Reads cs bs) ↔
    cs.length % 2 = 0 ∧ ∀ p ∈ pairsOf cs, (p.1 ∈ hexChars ∨ p.1 = '+') ∧ p.2 ∈ hexChars
  | [] => ⟨fun _ => ⟨rfl, by simp [pairsOf]⟩, fun _ => ⟨[], .nil⟩⟩
  | [c] => by
    constructor
    · rintro ⟨bs, ⟨⟩⟩
    · rintro ⟨h, -⟩
      cases h
  | c :: d :: cs => by
    have ih : (∃ bs, Reads cs bs) ↔ _ := reads_iff
    simp only [pairsOf, forall_mem_cons, length_cons]
    constructor
    · rintro ⟨bs, _ | ⟨hb, hbs⟩⟩
      obtain ⟨hlength, hpairs⟩ := ih.mp ⟨_, hbs⟩
      exact ⟨by omega, hb.chars, hpairs⟩
    · rintro ⟨hlength, ⟨hc, hd⟩, hpairs⟩
      obtain ⟨bs, hbs⟩ := ih.mpr ⟨by omega, hpairs⟩
      obtain ⟨y, hy⟩ := exists_hexValue hd
      rcases hc with hc | rfl
      · obtain ⟨x, hx⟩ := exists_hexValue hc
        exact ⟨_, .cons (.digits hx hy) hbs⟩
      · exact ⟨_, .cons (.sign hy) hbs⟩

theorem Reads.ascii {bs : Bytes} (h : Reads cs bs) : ∀ c ∈ cs, c.toNat < 128 := by
  induction h with
  | nil => simp
  | cons hb _ ih =>
    obtain ⟨hc, hd⟩ := hb.chars
    refine forall_mem_cons.mpr ⟨?_, forall_mem_cons.mpr ⟨ascii_of_mem_hexChars hd, ih⟩⟩
    rcases hc with hc | rfl
    · exact ascii_of_mem_hexChars hc
    · decide

/-- `hex_decode` accepts a text when its pairs are read. -/
theorem hexDecode_eq_some_iff {s : String} {b : Bytes} : hexDecode s = some b ↔ Reads s.toList b := by
  rw [hexDecode, ite_none_left_eq_some, hexPairs_eq_some_iff]
  refine ⟨And.right, fun h => ⟨?_, h⟩⟩
  have heven := (reads_iff.mp ⟨b, h⟩).1
  have hascii : isAscii s = true := by simpa [isAscii] using h.ascii
  simp [heven, hascii]

/-! ## Without a sign -/

theorem mem_of_mem_pairsOf : ∀ {cs : List Char} {p : Char × Char}, p ∈ pairsOf cs → p.1 ∈ cs
  | c :: d :: cs, p, h => by
    rcases mem_cons.mp h with rfl | h
    · exact mem_cons_self
    · exact mem_cons_of_mem _ (mem_cons_of_mem _ (mem_of_mem_pairsOf h))

/-- A byte is written with the digits it was read from, in lowercase. -/
theorem ReadsPair.rendered {b : UInt8} (h : ReadsPair c d b) (hplus : c ≠ '+') :
    c ∈ hexChars ∧ d ∈ hexChars ∧ [hexDigit (b.toNat / 16), hexDigit (b.toNat % 16)] = [c.toLower, d.toLower] := by
  cases h with
  | sign => exact absurd rfl hplus
  | @digits _ _ x y hc hd =>
    obtain ⟨hc, hx, hclower⟩ := hexValue_eq_some_iff.mp hc
    obtain ⟨hd, hy, hdlower⟩ := hexValue_eq_some_iff.mp hd
    have hbyte : (UInt8.ofNat (x * 16 + y)).toNat = x * 16 + y := by
      rw [UInt8.toNat_ofNat']
      omega
    rw [hbyte, ← hclower, ← hdlower, show (x * 16 + y) / 16 = x by omega, show (x * 16 + y) % 16 = y by omega]
    exact ⟨hc, hd, rfl⟩

theorem Reads.rendered {bs : Bytes} (h : Reads cs bs) (hplus : ∀ p ∈ pairsOf cs, p.1 ≠ '+') : (∀ c ∈ cs, c ∈ hexChars) ∧
      bs.flatMap (fun b => [hexDigit (b.toNat / 16), hexDigit (b.toNat % 16)]) = cs.map Char.toLower := by
  induction h with
  | nil => simp
  | cons hb _ ih =>
    rw [pairsOf, forall_mem_cons] at hplus
    obtain ⟨hc, hd, hlower⟩ := hb.rendered hplus.1
    obtain ⟨hcs, hrest⟩ := ih hplus.2
    refine ⟨forall_mem_cons.mpr ⟨hc, forall_mem_cons.mpr ⟨hd, hcs⟩⟩, ?_⟩
    rw [flatMap_cons, hlower, hrest]
    rfl

theorem hex_eq_toLower {s : String} {b : Bytes} (h : hexDecode s = some b) (hplus : ∀ p ∈ pairsOf s.toList, p.1 ≠ '+') :
    (∀ c ∈ s.toList, c ∈ hexChars) ∧ RustText.hex b = s.toLower := by
  obtain ⟨hdigits, hlower⟩ := (hexDecode_eq_some_iff.mp h).rendered hplus
  refine ⟨hdigits, String.toList_injective ?_⟩
  rw [RustText.hex, String.toList_ofList, hlower, show s.toLower = s.map Char.toLower from rfl, String.toList_map]

theorem mem_pairsOf_digits : ∀ {cs : List Char}, (∀ c ∈ cs, c ∈ hexChars) →
    ∀ p ∈ pairsOf cs, p.1 ∈ hexChars ∧ p.2 ∈ hexChars
  | [], _, p, h => by cases h
  | [c], _, p, h => by cases h
  | c :: d :: cs, hcs, p, h => by
    simp only [forall_mem_cons] at hcs
    rcases mem_cons.mp h with rfl | h
    · exact ⟨hcs.1, hcs.2.1⟩
    · exact mem_pairsOf_digits hcs.2.2 p h

/-- **`hex_decode` is strict on a text unless its pairs are signed.** It reads back whatever `hex` writes. -/
theorem hexDecode_strict_iff (s : String) :
    ((∀ b, hexDecode s = some b ↔
      (s.length % 2 = 0 ∧ ∀ c ∈ s.toList, c ∈ hexChars) ∧ RustText.hex b = s.toLower) ↔ ¬SignedPairs s) ∧
    ∀ b, hexDecode (RustText.hex b) = some b := by
  refine ⟨⟨?_, fun hsigned b => ⟨fun h => ?_, ?_⟩⟩, hexDecode_hex⟩
  · rintro hstrict ⟨hlength, hpairs, p, hp, hplus⟩
    obtain ⟨b, hb⟩ := reads_iff.mpr ⟨by rwa [String.length_toList], hpairs⟩
    obtain ⟨⟨-, hdigits⟩, -⟩ := (hstrict b).mp (hexDecode_eq_some_iff.mpr hb)
    exact ne_plus_of_mem (hdigits _ (mem_of_mem_pairsOf hp)) hplus
  · obtain ⟨hlength, hpairs⟩ := reads_iff.mp ⟨b, hexDecode_eq_some_iff.mp h⟩
    rw [String.length_toList] at hlength
    have hplus : ∀ p ∈ pairsOf s.toList, p.1 ≠ '+' := fun p hp hsign => hsigned ⟨hlength, hpairs, p, hp, hsign⟩
    obtain ⟨hdigits, hlower⟩ := hex_eq_toLower h hplus
    exact ⟨⟨hlength, hdigits⟩, hlower⟩
  · rintro ⟨⟨hlength, hdigits⟩, hlower⟩
    have hpairs := mem_pairsOf_digits hdigits
    obtain ⟨b', hb'⟩ := reads_iff.mpr
      ⟨by rwa [String.length_toList], fun p hp => ⟨.inl (hpairs p hp).1, (hpairs p hp).2⟩⟩
    have hread := hexDecode_eq_some_iff.mpr hb'
    -- both byte strings are written alike, and `hex` is read back
    have hlower' := (hex_eq_toLower hread fun p hp => ne_plus_of_mem (hpairs p hp).1).2
    have hsame : some b = some b' := by rw [← hexDecode_hex b, hlower, ← hlower', hexDecode_hex b']
    rw [hread, hsame]

/-- A sign is taken for a digit. -/
theorem hexDecode_takes_sign : hexDecode "+f" = some [0x0F] ∧ RustText.hex [0x0F] = "0f" := by decide

end SeamSdk
