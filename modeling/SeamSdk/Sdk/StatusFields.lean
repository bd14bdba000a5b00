import SeamSdk.Sdk.Varint

/-!
# The bytes of a message

What `_fields` reads is said here of the bytes alone. A number is a varint of ten bytes at most (`Writes`), a field is its
key and a value of one of four wire types (`IsField`), a message a sequence of fields (`IsFields`).

- `nextField_iff`: one turn of `_fields` takes one whole field from the front;
- `collect_iff`: the generator ends without raising exactly on a sequence of fields;
- `search_iff`: a search ends at the first field it looks for, whatever follows.
-/

namespace SeamSdk

open ByteCodec ProtoWire List

/-- A varint of ten bytes at most, and its number. -/
structure Writes (n : Nat) (bs : Bytes) : Prop where
  varint : IsVarint bs
  length : bs.length ≤ 10
  number : number bs = n

/-- The bytes of one field. The lowest three bits of the key are the wire type. -/
inductive IsField : WireField → Bytes → Prop
  | varint {num n : Nat} {key value : Bytes} :
    Writes (8 * num) key → Writes n value → IsField ⟨num, .varint n⟩ (key ++ value)
  | fixed64 {num : Nat} {key value : Bytes} :
    Writes (8 * num + 1) key → value.length = 8 → IsField ⟨num, .fixed⟩ (key ++ value)
  | bytes {num : Nat} {key length value : Bytes} :
    Writes (8 * num + 2) key → Writes value.length length → IsField ⟨num, .bytes value⟩ (key ++ (length ++ value))
  | fixed32 {num : Nat} {key value : Bytes} :
    Writes (8 * num + 5) key → value.length = 4 → IsField ⟨num, .fixed⟩ (key ++ value)

/-- The bytes of a sequence of fields. -/
inductive IsFields : List WireField → Bytes → Prop
  | nil : IsFields [] []
  | cons {f : WireField} {fs : List WireField} {b bs : Bytes} :
    IsField f b → IsFields fs bs → IsFields (f :: fs) (b ++ bs)

theorem Writes.length_pos {n : Nat} {bs : Bytes} (h : Writes n bs) : 0 < bs.length := by
  cases h.varint <;> exact Nat.succ_pos _

theorem Writes.lt {n : Nat} {bs : Bytes} (h : Writes n bs) : n < 2 ^ 70 := by
  rw [← h.number]
  exact (number_lt bs).trans_le (Nat.pow_le_pow_right (n := 128) (by decide) h.length)

theorem IsField.length_pos {f : WireField} {bs : Bytes} (h : IsField f bs) : 0 < bs.length := by
  cases h <;> exact length_append ▸ Nat.add_pos_left (Writes.length_pos (by assumption)) _

theorem IsFields.append {fs gs : List WireField} {b c : Bytes} (h : IsFields fs b) (hc : IsFields gs c) :
    IsFields (fs ++ gs) (b ++ c) := by
  induction h with
  | nil => exact hc
  | cons hf _ ih =>
    rw [append_assoc]
    exact .cons hf ih

namespace Python

variable {buf rest bs pre : Bytes} {f : WireField} {fs : List WireField} {n num w : Nat}

/-! ## One field -/

theorem varint_iff : varint 0 0 buf = some (n, rest) ↔ ∃ bs, Writes n bs ∧ buf = bs ++ rest := by
  rw [varint_eq_some_iff rfl Nat.one_pos]
  constructor
  · rintro ⟨bs, hbs, hbuf, hlength, rfl⟩
    exact ⟨bs, ⟨hbs, by omega, by omega⟩, hbuf⟩
  · rintro ⟨bs, ⟨hbs, hlength, rfl⟩, hbuf⟩
    exact ⟨bs, hbs, hbuf, by omega, by omega⟩

theorem varint_writes (h : Writes n bs) (rest : Bytes) : varint 0 0 (bs ++ rest) = some (n, rest) :=
  varint_iff.mpr ⟨bs, h, rfl⟩

theorem low_three_bits {m : Nat} : m &&& 7 = m % 8 := Nat.and_two_pow_sub_one_eq_mod m 3

theorem key_split (num : Nat) {w : Nat} (h : w < 8) : (8 * num + w) >>> 3 = num ∧ (8 * num + w) &&& 7 = w := by
  rw [low_three_bits, Nat.shiftRight_eq_div_pow]
  omega

theorem key_join (key : Nat) : 8 * (key >>> 3) + (key &&& 7) = key := by
  rw [low_three_bits, Nat.shiftRight_eq_div_pow]
  omega

/-- What stands behind a key of that wire type. -/
theorem nextField_key (h : Writes (8 * num + w) bs) (hw : w < 8) (rest : Bytes) : nextField (bs ++ rest) =
      if w = 0 then (varint 0 0 rest).bind fun v => some (⟨num, .varint v.1⟩, v.2)
      else if w = 2 then (varint 0 0 rest).bind fun n =>
        if n.2.length < n.1 then none else some (⟨num, .bytes (n.2.take n.1)⟩, n.2.drop n.1)
      else if w = 1 then if rest.length < 8 then none else some (⟨num, .fixed⟩, rest.drop 8)
      else if w = 5 then if rest.length < 4 then none else some (⟨num, .fixed⟩, rest.drop 4)
      else none := by
  obtain ⟨hnum, hlow⟩ := key_split num hw
  rw [nextField, varint_writes h]
  simp only [Option.bind_eq_bind, Option.bind_some, hnum, hlow]
  rfl

theorem nextField_append (h : IsField f bs) (rest : Bytes) : nextField (bs ++ rest) = some (f, rest) := by
  cases h with
  | varint hkey hvalue =>
    rw [append_assoc, nextField_key (w := 0) hkey (by decide), if_pos rfl, varint_writes hvalue]
    rfl
  | fixed64 hkey hvalue =>
    rw [append_assoc, nextField_key hkey (by decide), if_neg (by decide), if_neg (by decide), if_pos rfl, if_neg,
      drop_left' hvalue]
    rw [length_append]
    omega
  | bytes hkey hlength =>
    rw [append_assoc, append_assoc, nextField_key hkey (by decide), if_neg (by decide), if_pos rfl,
      varint_writes hlength, Option.bind_some, if_neg, take_left, drop_left]
    rw [length_append]
    omega
  | fixed32 hkey hvalue =>
    rw [append_assoc, nextField_key hkey (by decide), if_neg (by decide), if_neg (by decide), if_neg (by decide),
      if_pos rfl, if_neg, drop_left' hvalue]
    rw [length_append]
    omega

/-- **One turn takes one whole field from the front.** -/
theorem nextField_iff : nextField buf = some (f, rest) ↔ ∃ bs, IsField f bs ∧ buf = bs ++ rest := by
  constructor
  · intro h
    obtain ⟨⟨key, after⟩, hkey, -⟩ := Option.bind_eq_some_iff.mp h
    obtain ⟨bs, hbs, rfl⟩ := varint_iff.mp hkey
    have hlow : key &&& 7 < 8 := Nat.lt_succ_of_le Nat.and_le_right
    rw [← key_join key] at hbs
    rw [nextField_key hbs hlow] at h
    -- by the wire type
    split_ifs at h with h0 h2 h1 hshort h5 hshort
    · obtain ⟨⟨v, after'⟩, hv, hsome⟩ := Option.bind_eq_some_iff.mp h
      obtain ⟨value, hvalue, rfl⟩ := varint_iff.mp hv
      cases hsome
      rw [h0] at hbs
      exact ⟨_, .varint hbs hvalue, (append_assoc ..).symm⟩
    · obtain ⟨⟨n, after'⟩, hn, hsome⟩ := Option.bind_eq_some_iff.mp h
      obtain ⟨length, hlength, rfl⟩ := varint_iff.mp hn
      rw [Option.ite_none_left_eq_some] at hsome
      obtain ⟨hlong, hsome⟩ := hsome
      cases hsome
      rw [h2] at hbs
      have htake : (after'.take n).length = n := length_take_of_le (Nat.le_of_not_lt hlong)
      refine ⟨_, .bytes hbs (htake.symm ▸ hlength), ?_⟩
      rw [append_assoc, append_assoc, take_append_drop]
    · cases h
      rw [h1] at hbs
      refine ⟨_, .fixed64 hbs (length_take_of_le (Nat.le_of_not_lt hshort)), ?_⟩
      rw [append_assoc, take_append_drop]
    · cases h
      rw [h5] at hbs
      refine ⟨_, .fixed32 hbs (length_take_of_le (Nat.le_of_not_lt hshort)), ?_⟩
      rw [append_assoc, take_append_drop]
  · rintro ⟨bs, hbs, rfl⟩
    exact nextField_append hbs rest

/-- Every field takes a byte at least. -/
theorem nextField_lt (h : nextField buf = some (f, rest)) : rest.length < buf.length := by
  obtain ⟨bs, hbs, rfl⟩ := nextField_iff.mp h
  rw [length_append]
  exact Nat.lt_add_of_pos_left hbs.length_pos

/-! ## All fields -/

/-- The generator goes on with what the last field left. -/
theorem fields_append (h : IsField f bs) (rest : Bytes) : fields (bs ++ rest) = .yield f (fields rest) := by
  have hnext := nextField_append h rest
  have hlt := nextField_lt hnext
  cases hbuf : bs ++ rest with
  | nil =>
    rw [hbuf] at hlt
    cases hlt
  | cons b buf =>
    rw [hbuf] at hnext hlt
    rw [length_cons] at hlt
    rw [fields, length_cons, Generator.items, hnext]
    dsimp only
    rw [Generator.items_fuel nextField_lt (by omega), fields]

/-- The bytes are read field by field, to their end or to bytes that are no field. -/
theorem fields_induction {P : Bytes → Prop} (nil : P []) (raise : ∀ buf, fields buf = .raise → P buf)
    (yield : ∀ {f bs rest}, IsField f bs → P rest → P (bs ++ rest)) (buf : Bytes) : P buf := by
  induction hlength : buf.length using Nat.strongRecOn generalizing buf with
  | ind n ih =>
    cases buf with
    | nil => exact nil
    | cons b buf =>
      cases hnext : nextField (b :: buf) with
      | none =>
        apply raise
        rw [fields, length_cons, Generator.items, hnext]
      | some p =>
        obtain ⟨bs, hbs, hbuf⟩ := nextField_iff.mp hnext
        rw [hbuf]
        exact yield hbs (ih _ (hlength ▸ nextField_lt hnext) p.2 rfl)

theorem collect_append (h : IsFields fs bs) (rest : Bytes) :
    (fields (bs ++ rest)).collect = (fields rest).collect.map (fs ++ ·) := by
  induction h with
  | nil =>
    rw [nil_append]
    exact Option.map_id'.symm
  | cons hf _ ih =>
    rw [append_assoc, fields_append hf, Generator.collect, ih, Option.map_map]
    rfl

theorem isFields_of_collect (h : (fields buf).collect = some fs) : IsFields fs buf := by
  induction buf using fields_induction generalizing fs with
  | nil =>
    cases h
    exact .nil
  | raise buf hraise =>
    rw [hraise] at h
    cases h
  | yield hf ih =>
    rw [fields_append hf] at h
    obtain ⟨gs, hgs, rfl⟩ := Option.map_eq_some_iff.mp h
    exact .cons hf (ih hgs)

/-- **The generator ends without raising exactly on a sequence of fields.** -/
theorem collect_iff : (fields buf).collect = some fs ↔ IsFields fs buf := by
  constructor
  · exact isFields_of_collect
  · intro h
    have hcollect := collect_append h []
    rw [append_nil] at hcollect
    rw [hcollect]
    exact congrArg some (append_nil fs)

/-! ## A search -/

variable {β : Type} {p : WireField → Option β} {b : β}

theorem search_append (h : IsFields fs bs) (hnone : ∀ g ∈ fs, p g = none) (rest : Bytes) :
    (fields (bs ++ rest)).search p = (fields rest).search p := by
  induction h with
  | nil => rfl
  | cons hf _ ih =>
    rw [forall_mem_cons] at hnone
    rw [append_assoc, fields_append hf, Generator.search, hnone.1]
    exact ih hnone.2

/-- **A search ends at the first field it looks for, whatever follows.** -/
theorem search_iff : (fields buf).search p = some (some b) ↔
      ∃ fs pre f field post, buf = pre ++ (field ++ post) ∧ IsFields fs pre ∧ (∀ g ∈ fs, p g = none) ∧
        IsField f field ∧ p f = some b := by
  constructor
  · intro h
    induction buf using fields_induction with
    | nil => cases h
    | raise buf hraise =>
      rw [hraise] at h
      cases h
    | @yield g bs rest hg ih =>
      rw [fields_append hg, Generator.search] at h
      cases hp : p g with
      | some b' =>
        rw [hp] at h
        cases h
        exact ⟨[], [], g, bs, rest, rfl, .nil, by simp, hg, hp⟩
      | none =>
        rw [hp] at h
        obtain ⟨fs, pre, f, field, post, hpost, hfs, hnone, hf, hb⟩ := ih h
        refine ⟨g :: fs, bs ++ pre, f, field, post, ?_, .cons hg hfs, forall_mem_cons.mpr ⟨hp, hnone⟩, hf, hb⟩
        rw [hpost, append_assoc]
  · rintro ⟨fs, pre, f, field, post, rfl, hfs, hnone, hf, hb⟩
    rw [search_append hfs hnone, fields_append hf, Generator.search, hb]

end Python

end SeamSdk
