import SeamSdk.Lib.ByteCodec
import Mathlib.Tactic.IntervalCases

/-!
# Base64, strict

The two alphabets of RFC 4648, decoded strictly: no character outside the alphabet, the spare low bits of a last
partial group are zero, and padding is either exactly what the length asks for (`decodePadded`) or not there
(`decodeUnpadded`). Both read back what the encoder writes (`decodePadded_encodePadded`,
`decodeUnpadded_encodeUnpadded`), and nothing else (`encodeUnpadded_of_decodeUnpadded`).
-/

namespace Base64

open List

open ByteCodec (Bytes)

/-- An alphabet is fixed by its last two symbols. -/
structure Alphabet where
  c62 : Char
  c63 : Char

def standard : Alphabet := ⟨'+', '/'⟩

def urlSafe : Alphabet := ⟨'-', '_'⟩

def Alphabet.symbol (a : Alphabet) (n : Nat) : Char :=
  if n < 26 then Char.ofNat (65 + n)
  else if n < 52 then Char.ofNat (71 + n)
  else if n < 62 then Char.ofNat (n - 4)
  else if n = 62 then a.c62
  else a.c63

def Alphabet.value (a : Alphabet) (c : Char) : Option Nat :=
  let n := c.toNat
  if 65 ≤ n ∧ n ≤ 90 then some (n - 65)
  else if 97 ≤ n ∧ n ≤ 122 then some (n - 71)
  else if 48 ≤ n ∧ n ≤ 57 then some (n + 4)
  else if c = a.c62 then some 62
  else if c = a.c63 then some 63
  else none

/-! ## Groups of six bits -/

def toSextets : Bytes → List Nat
  | [] => []
  | [x] => [x.toNat / 4, x.toNat % 4 * 16]
  | [x, y] => [x.toNat / 4, x.toNat % 4 * 16 + y.toNat / 16, y.toNat % 16 * 4]
  | x :: y :: z :: b =>
    [x.toNat / 4, x.toNat % 4 * 16 + y.toNat / 16, y.toNat % 16 * 4 + z.toNat / 64, z.toNat % 64] ++ toSextets b

/-- A last group of two or three sextets has spare low bits, which must be zero. -/
def ofSextets : List Nat → Option Bytes
  | [] => some []
  | [_] => none
  | [a, b] => if b % 16 = 0 then some [UInt8.ofNat (a * 4 + b / 16)] else none
  | [a, b, c] =>
    if c % 4 = 0 then some [UInt8.ofNat (a * 4 + b / 16), UInt8.ofNat (b % 16 * 16 + c / 4)] else none
  | a :: b :: c :: d :: s => do
    let t ← ofSextets s
    some (UInt8.ofNat (a * 4 + b / 16) :: UInt8.ofNat (b % 16 * 16 + c / 4) :: UInt8.ofNat (c % 4 * 64 + d) :: t)

variable {a : Alphabet} {b : Bytes} {c : Char} {cs : List Char} {n : Nat}

theorem ofNat_eq {x : UInt8} (h : n = x.toNat) : UInt8.ofNat n = x := by
  rw [h]
  exact UInt8.toNat_inj.mp (by simp)

theorem ofSextets_toSextets : ∀ b : Bytes, ofSextets (toSextets b) = some b
  | [] => rfl
  | [x] => by
    have h0 : x.toNat % 4 * 16 % 16 = 0 := by omega
    rw [toSextets, ofSextets, if_pos h0, ofNat_eq (by omega : _ = x.toNat)]
  | [x, y] => by
    have hy := y.toNat_lt
    have h0 : y.toNat % 16 * 4 % 4 = 0 := by omega
    rw [toSextets, ofSextets, if_pos h0, ofNat_eq (by omega : _ = x.toNat), ofNat_eq (by omega : _ = y.toNat)]
  | x :: y :: z :: b => by
    have hy := y.toNat_lt
    have hz := z.toNat_lt
    simp only [toSextets, cons_append, nil_append, ofSextets, ofSextets_toSextets b]
    rw [ofNat_eq (by omega : _ = x.toNat), ofNat_eq (by omega : _ = y.toNat), ofNat_eq (by omega : _ = z.toNat)]
    rfl

theorem length_toSextets : ∀ b : Bytes, (toSextets b).length = (4 * b.length + 2) / 3
  | [] | [_] | [_, _] => by simp [toSextets]
  | x :: y :: z :: b => by
    rw [toSextets, length_append, length_toSextets b]
    simp only [length_cons, length_nil]
    omega

theorem toSextets_lt : ∀ {b : Bytes} {n : Nat}, n ∈ toSextets b → n < 64
  | [], n, h => by simp [toSextets] at h
  | [x], n, h => by
    have hx := x.toNat_lt
    simp only [toSextets, mem_cons, not_mem_nil, or_false] at h
    omega
  | [x, y], n, h => by
    have hx := x.toNat_lt
    have hy := y.toNat_lt
    simp only [toSextets, mem_cons, not_mem_nil, or_false] at h
    omega
  | x :: y :: z :: b, n, h => by
    have hx := x.toNat_lt
    have hy := y.toNat_lt
    have hz := z.toNat_lt
    simp only [toSextets, cons_append, nil_append, mem_cons] at h
    rcases h with h | h | h | h | h
    · omega
    · omega
    · omega
    · omega
    · exact toSextets_lt h

/-! ## Text -/

def encodeChars (a : Alphabet) (b : Bytes) : List Char := (toSextets b).map a.symbol

def decodeChars (a : Alphabet) (cs : List Char) : Option Bytes := (cs.mapM a.value).bind ofSextets

/-- The number of `=` that fill up the last group. -/
def padding (n : Nat) : Nat := (4 - n % 4) % 4

/-- `URL_SAFE_NO_PAD.decode`: any `=` is outside the alphabet. -/
def decodeUnpadded (a : Alphabet) (s : String) : Option Bytes := decodeChars a s.toList

/-- `STANDARD.decode`: canonical padding. -/
def decodePadded (a : Alphabet) (s : String) : Option Bytes :=
  let body := s.toList.takeWhile (· != '=')
  if s.toList.drop body.length = List.replicate (padding body.length) '=' then decodeChars a body else none

def encodeUnpadded (a : Alphabet) (b : Bytes) : String := String.ofList (encodeChars a b)

def encodePadded (a : Alphabet) (b : Bytes) : String :=
  let body := encodeChars a b
  String.ofList (body ++ List.replicate (padding body.length) '=')

/-- Each symbol stands for its value. -/
def Alphabet.Lawful (a : Alphabet) : Prop := ∀ n < 64, a.value (a.symbol n) = some n

theorem standard_lawful : standard.Lawful := by
  intro n hn
  interval_cases n <;> rfl

theorem urlSafe_lawful : urlSafe.Lawful := by
  intro n hn
  interval_cases n <;> rfl

theorem decodeChars_encodeChars (ha : a.Lawful) (b : Bytes) : decodeChars a (encodeChars a b) = some b := by
  have hmap : ∀ ns : List Nat, (∀ n ∈ ns, n < 64) → (ns.map a.symbol).mapM a.value = some ns := by
    intro ns
    induction ns with
    | nil => intro _; rfl
    | cons n ns ih =>
      intro hns
      rw [map_cons, mapM_cons, ha n (hns n mem_cons_self),
        ih (fun m hm => hns m (mem_cons_of_mem _ hm))]
      rfl
  rw [decodeChars, encodeChars, hmap _ (fun _ => toSextets_lt)]
  exact ofSextets_toSextets b

theorem decodeUnpadded_encodeUnpadded (ha : a.Lawful) (b : Bytes) : decodeUnpadded a (encodeUnpadded a b) = some b := by
  rw [decodeUnpadded, encodeUnpadded, String.toList_ofList, decodeChars_encodeChars ha]

/-- Text that is decoded has nothing but symbols. -/
theorem value_of_mem_decodeChars (h : decodeChars a cs = some b) (hc : c ∈ cs) : (a.value c).isSome = true := by
  obtain ⟨l, hl, -⟩ := Option.bind_eq_some_iff.mp h
  clear h
  induction cs generalizing l with
  | nil => cases hc
  | cons d cs ih =>
    simp only [mapM_cons, Option.bind_eq_bind, Option.bind_eq_some_iff] at hl
    obtain ⟨n, hn, l', hl', -⟩ := hl
    rcases mem_cons.mp hc with rfl | hc
    · rw [hn]
      rfl
    · exact ih hc l' hl'

/-- Canonical padding is taken off again. -/
theorem decodePadded_append (hpad : a.value '=' = none) (h : decodeChars a cs = some b) :
    decodePadded a (String.ofList (cs ++ List.replicate (padding cs.length) '=')) = some b := by
  have hsym : ∀ c ∈ cs, (c != '=') = true := by
    intro c hc
    have hv := value_of_mem_decodeChars h hc
    rw [bne_iff_ne]
    intro he
    rw [he, hpad] at hv
    cases hv
  have htake : (cs ++ List.replicate (padding cs.length) '=').takeWhile (· != '=') = cs := by
    rw [takeWhile_append_of_pos hsym]
    cases padding cs.length <;> simp [replicate_succ]
  simp only [decodePadded, String.toList_ofList, htake, drop_left, if_true]
  exact h

theorem decodePadded_encodePadded (ha : a.Lawful) (hpad : a.value '=' = none) (b : Bytes) :
    decodePadded a (encodePadded a b) = some b :=
  decodePadded_append hpad (decodeChars_encodeChars ha b)

/-! ## One spelling -/

/-- Each value has one symbol. -/
theorem symbol_of_value (h : a.value c = some n) : a.symbol n = c ∧ n < 64 := by
  have hchar : ∀ m, m = c.toNat → Char.ofNat m = c := by
    rintro _ rfl
    exact Char.ofNat_toNat c
  simp only [Alphabet.value] at h
  unfold Alphabet.symbol
  split at h
  · cases h
    exact ⟨by rw [if_pos (by omega), hchar _ (by omega)], by omega⟩
  split at h
  · cases h
    exact ⟨by rw [if_neg (by omega), if_pos (by omega), hchar _ (by omega)], by omega⟩
  split at h
  · cases h
    exact ⟨by rw [if_neg (by omega), if_neg (by omega), if_pos (by omega), hchar _ (by omega)], by omega⟩
  split at h
  · rename_i hc
    cases h
    exact ⟨hc.symm, by omega⟩
  split at h
  · rename_i hc
    cases h
    exact ⟨hc.symm, by omega⟩
  · cases h

/-- The spare bits are zero, so nothing is lost. -/
theorem toSextets_of_ofSextets : ∀ {l : List Nat} {b : Bytes}, (∀ n ∈ l, n < 64) → ofSextets l = some b →
    toSextets b = l
  | [], b, _, h => by
    cases h
    rfl
  | [_], _, _, h => by cases h
  | [m, n], b, hl, h => by
    simp only [ofSextets, Option.ite_none_right_eq_some, Option.some.injEq] at h
    simp only [forall_mem_cons] at hl
    obtain ⟨hn, rfl⟩ := h
    rw [toSextets, UInt8.toNat_ofNat_of_lt' (by show _ < 256; omega)]
    congr 1
    · omega
    · congr 1
      omega
  | [m, n, o], b, hl, h => by
    simp only [ofSextets, Option.ite_none_right_eq_some, Option.some.injEq] at h
    simp only [forall_mem_cons] at hl
    obtain ⟨ho, rfl⟩ := h
    rw [toSextets, UInt8.toNat_ofNat_of_lt' (by show _ < 256; omega), UInt8.toNat_ofNat_of_lt' (by show _ < 256; omega)]
    congr 1
    · omega
    · congr 1
      · omega
      · congr 1
        omega
  | m :: n :: o :: p :: l, b, hl, h => by
    simp only [ofSextets, Option.bind_eq_bind, Option.bind_eq_some_iff, Option.some.injEq] at h
    simp only [forall_mem_cons] at hl
    obtain ⟨t, ht, rfl⟩ := h
    rw [toSextets, toSextets_of_ofSextets hl.2.2.2.2 ht, UInt8.toNat_ofNat_of_lt' (by show _ < 256; omega),
      UInt8.toNat_ofNat_of_lt' (by show _ < 256; omega), UInt8.toNat_ofNat_of_lt' (by show _ < 256; omega)]
    simp only [cons_append, nil_append, List.cons.injEq, and_true]
    omega

theorem encodeChars_of_decodeChars (h : decodeChars a cs = some b) : encodeChars a b = cs := by
  obtain ⟨l, hl, hb⟩ := Option.bind_eq_some_iff.mp h
  clear h
  have hvalues : (∀ n ∈ l, n < 64) ∧ l.map a.symbol = cs := by
    clear hb
    induction cs generalizing l with
    | nil =>
      cases hl
      exact ⟨nofun, rfl⟩
    | cons c cs ih =>
      simp only [mapM_cons, Option.bind_eq_bind, Option.bind_eq_some_iff, Option.pure_def,
        Option.some.injEq] at hl
      obtain ⟨n, hn, l', hl', rfl⟩ := hl
      obtain ⟨hsymbol, hlt⟩ := symbol_of_value hn
      obtain ⟨hall, hmap⟩ := ih l' hl'
      exact ⟨forall_mem_cons.mpr ⟨hlt, hall⟩, by rw [map_cons, hsymbol, hmap]⟩
  rw [encodeChars, toSextets_of_ofSextets hvalues.1 hb, hvalues.2]

/-- **What is read strictly has one spelling.** -/
theorem encodeUnpadded_of_decodeUnpadded {s : String} (h : decodeUnpadded a s = some b) : encodeUnpadded a b = s := by
  rw [encodeUnpadded, encodeChars_of_decodeChars h, String.ofList_toList]

/-! ## Characters -/

theorem value_of_mem_encodeChars (ha : a.Lawful) (h : c ∈ encodeChars a b) : (a.value c).isSome = true := by
  obtain ⟨n, hn, rfl⟩ := mem_map.mp h
  rw [ha n (toSextets_lt hn)]
  rfl

/-- Encoded text has nothing but symbols and padding. -/
theorem value_of_mem_encodePadded (ha : a.Lawful) (h : c ∈ (encodePadded a b).toList) :
    c = '=' ∨ (a.value c).isSome = true := by
  simp only [encodePadded, String.toList_ofList, mem_append] at h
  rcases h with h | h
  · exact .inr (value_of_mem_encodeChars ha h)
  · exact .inl (eq_of_mem_replicate h)

/-- Text without padding has nothing but symbols. -/
theorem value_of_mem_encodeUnpadded (ha : a.Lawful) (h : c ∈ (encodeUnpadded a b).toList) :
    (a.value c).isSome = true := by
  rw [encodeUnpadded, String.toList_ofList] at h
  exact value_of_mem_encodeChars ha h

/-- The symbols of an alphabet: letters, digits and its last two. -/
theorem range_of_value (h : (a.value c).isSome = true) :
    (65 ≤ c.toNat ∧ c.toNat ≤ 90) ∨ (97 ≤ c.toNat ∧ c.toNat ≤ 122) ∨ (48 ≤ c.toNat ∧ c.toNat ≤ 57) ∨
      c = a.c62 ∨ c = a.c63 := by
  simp only [Alphabet.value] at h
  split at h
  · exact .inl ‹_›
  split at h
  · exact .inr (.inl ‹_›)
  split at h
  · exact .inr (.inr (.inl ‹_›))
  split at h
  · exact .inr (.inr (.inr (.inl ‹_›)))
  split at h
  · exact .inr (.inr (.inr (.inr ‹_›)))
  · cases h

/-- The symbols of the standard alphabet by their code points. -/
theorem standard_range (h : (standard.value c).isSome = true) :
    (65 ≤ c.toNat ∧ c.toNat ≤ 90) ∨ (97 ≤ c.toNat ∧ c.toNat ≤ 122) ∨ (48 ≤ c.toNat ∧ c.toNat ≤ 57) ∨
      c.toNat = 43 ∨ c.toNat = 47 := by
  rcases range_of_value h with h | h | h | rfl | rfl
  · exact .inl h
  · exact .inr (.inl h)
  · exact .inr (.inr (.inl h))
  · exact .inr (.inr (.inr (.inl rfl)))
  · exact .inr (.inr (.inr (.inr rfl)))

theorem urlSafe_lt (h : (urlSafe.value c).isSome = true) : c.toNat < 128 := by
  rcases range_of_value h with h | h | h | rfl | rfl
  · omega
  · omega
  · omega
  · decide
  · decide

/-! ## Lengths -/

theorem length_ofSextets_le : ∀ {l : List Nat} {b : Bytes}, ofSextets l = some b → b.length ≤ l.length
  | [], b, h => by
    cases h
    exact Nat.le_refl 0
  | [_], _, h => by cases h
  | [_, _], b, h | [_, _, _], b, h => by
    simp only [ofSextets, Option.ite_none_right_eq_some, Option.some.injEq] at h
    obtain ⟨-, rfl⟩ := h
    simp
  | _ :: _ :: _ :: _ :: l, b, h => by
    simp only [ofSextets, Option.bind_eq_bind, Option.bind_eq_some_iff, Option.some.injEq] at h
    obtain ⟨t, ht, rfl⟩ := h
    have := length_ofSextets_le ht
    simp only [length_cons]
    omega

theorem length_values {l : List Nat} (h : cs.mapM a.value = some l) : l.length = cs.length := by
  induction cs generalizing l with
  | nil =>
    cases h
    rfl
  | cons c cs ih =>
    simp only [mapM_cons, Option.bind_eq_bind, Option.bind_eq_some_iff, Option.pure_def, Option.some.injEq] at h
    obtain ⟨n, -, l', hl', rfl⟩ := h
    simp [ih hl']

/-- What is decoded is no longer than its text. -/
theorem length_decodeUnpadded_le {s : String} (h : decodeUnpadded a s = some b) : b.length ≤ s.toList.length := by
  obtain ⟨l, hl, hb⟩ := Option.bind_eq_some_iff.mp h
  exact length_values hl ▸ length_ofSextets_le hb

end Base64
