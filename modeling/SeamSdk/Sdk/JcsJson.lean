import SeamSdk.Lib.JsonBroken
import SeamSdk.Sdk.JcsDerived

/-!
# What TypeScript's canonical text says

`jcsWrite` on an array maps over its slots and joins the results. `map` skips a hole and `join` writes nothing for it, so
the text of an array with holes has commas with nothing between them, and the text of `[,]`, an array of one hole, is that
of the empty array.

- `meaning` is what a value means: its numbers exactly, its slots with the holes, its members in the order of the keys.
- `docOf` is the document of a text without holes, and `Solid` values have such a text: no hole stands beside another slot.
- `jcsWrite_derived`: the text of a solid value is derived for its document, and the text of any other value is no JSON.
-/

namespace SeamSdk

open ByteCodec Checked Comparison JsonGrammar Utf16 List

variable {F : Type}

/-- The doubles as numbers: every one is read back from its shortest digits, and integers are rounded as all numbers are.
Integers up to `2 ** 53` are doubles themselves. -/
structure Doubles (F : Type) extends Floats F where
  value : F → Rat
  round : Rat → Option F
  round_shortest : ∀ x, round (shortest x).value = some x
  ofInt_eq : ∀ n : Int, ofInt n = round n
  round_safe : ∀ n : Int, n ≠ 0 → -maxSafe ≤ n → n ≤ maxSafe → ∃ x, round n = some x ∧ value x = n

/-- What a value means. A slot of an array may be empty. -/
inductive Meaning
  | null
  | bool (b : Bool)
  | num (q : Rat)
  | str (s : List UInt16)
  | arr (slots : List (Option Meaning))
  | obj (members : List (List UInt16 × Meaning))

namespace TypeScript

/-! ## Values -/

/-- Induction on a value, through the slots of arrays and the members of objects. -/
@[elab_as_elim]
theorem Value.nested {P : Value F → Prop} (null : P .null) (bool : ∀ b, P (.bool b)) (number : ∀ v, P (.number v))
    (bigint : ∀ n, P (.bigint n)) (string : ∀ s, P (.string s))
    (array : ∀ slots, (∀ v, some v ∈ slots → P v) → P (.array slots))
    (object : ∀ shape ms, (∀ m ∈ ms, P m.2) → P (.object shape ms)) (other : ∀ t, P (.other t)) (v : Value F) :
    P v := by
  refine @Value.rec F P (fun slots => ∀ v, some v ∈ slots → P v) (fun ms => ∀ m ∈ ms, P m.2)
    (fun o => ∀ v, o = some v → P v) (fun m => P m.2) null bool number bigint string array object other
    ?_ ?_ ?_ ?_ ?_ ?_ ?_ v
  · exact fun v h => absurd h not_mem_nil
  · intro o slots ho hslots v h
    rcases mem_cons.mp h with h | h
    · exact ho v h.symm
    · exact hslots v h
  · exact fun m h => absurd h not_mem_nil
  · intro m ms hm hms
    exact forall_mem_cons.mpr ⟨hm, hms⟩
  · exact fun v h => nomatch h
  · intro w hw v h
    rwa [← Option.some.inj h]
  · exact fun _ _ h => h

/-- The number that a double is, given the numbers that finite doubles other than zero are. -/
def numberValue (value : F → Rat) : Double F → Rat
  | .finite x => value x
  | _ => 0

mutual

/-- What a value means, given the numbers that doubles are. -/
def meaning (value : F → Rat) : Value F → Meaning
  | .null => .null
  | .bool b => .bool b
  | .number v => .num (numberValue value v)
  | .bigint n => .num n
  | .string s => .str s
  | .array slots => .arr (meaningSlots value slots)
  | .object _ ms => .obj (sortMembers (meaningMembers value ms))
  | .other _ => .null

def meaningSlots (value : F → Rat) : List (Option (Value F)) → List (Option Meaning)
  | [] => []
  | none :: slots => none :: meaningSlots value slots
  | some v :: slots => some (meaning value v) :: meaningSlots value slots

def meaningMembers (value : F → Rat) : List (List UInt16 × Value F) → List (List UInt16 × Meaning)
  | [] => []
  | (k, v) :: ms => (k, meaning value v) :: meaningMembers value ms

end

/-- `String` on a number. -/
def numberText (E : Floats F) : Double F → List Char
  | .finite x => numberToString E x
  | _ => ['0']

mutual

/-- The document of the text of a value. A hole leaves nothing in it. -/
def docOf (E : Floats F) : Value F → Doc
  | .null => .null
  | .bool b => .bool b
  | .number v => .num ((numberText E v).map unit)
  | .bigint n => .num ((Decimal.intText n).map unit)
  | .string s => .str s
  | .array slots => .arr (docSlots E slots)
  | .object _ ms => .obj (sortMembers (docMembers E ms))
  | .other _ => .null

def docSlots (E : Floats F) : List (Option (Value F)) → List Doc
  | [] => []
  | none :: slots => docSlots E slots
  | some v :: slots => docOf E v :: docSlots E slots

def docMembers (E : Floats F) : List (List UInt16 × Value F) → List (List UInt16 × Doc)
  | [] => []
  | (k, v) :: ms => (k, docOf E v) :: docMembers E ms

end

/-- A hole is the only slot of its array. -/
inductive Solid : Value F → Prop
  | null : Solid .null
  | bool (b : Bool) : Solid (.bool b)
  | number (v : Double F) : Solid (.number v)
  | bigint (n : Int) : Solid (.bigint n)
  | string (s : List UInt16) : Solid (.string s)
  | hole : Solid (.array [none])
  | array {slots : List (Option (Value F))} : none ∉ slots → (∀ v, some v ∈ slots → Solid v) → Solid (.array slots)
  | object {shape : Shape} {ms : List (List UInt16 × Value F)} : (∀ m ∈ ms, Solid m.2) → Solid (.object shape ms)

/-! Members and slots as images. -/

variable {slots : List (Option (Value F))} {α β : Type}

section Images

theorem jcsMembers_eq (E : Floats F) (ms : List (List UInt16 × Value F)) :
    jcsMembers E ms = ms.map fun m => (m.1, jcsWrite E m.2) := by
  induction ms with
  | nil => rw [jcsMembers]; rfl
  | cons m ms ih => rw [jcsMembers, ih]; rfl

theorem docMembers_eq (E : Floats F) (ms : List (List UInt16 × Value F)) :
    docMembers E ms = ms.map fun m => (m.1, docOf E m.2) := by
  induction ms with
  | nil => rfl
  | cons m ms ih => exact congrArg ((m.1, docOf E m.2) :: ·) ih

theorem docSlots_some (E : Floats F) (vs : List (Value F)) : docSlots E (vs.map some) = vs.map (docOf E) := by
  induction vs with
  | nil => rfl
  | cons v vs ih => exact congrArg (docOf E v :: ·) ih

/-- Slots without a hole are values. -/
theorem exists_map_some (h : none ∉ slots) : ∃ vs : List (Value F), slots = vs.map some := by
  refine ⟨slots.filterMap id, ?_⟩
  induction slots with
  | nil => rfl
  | cons o slots ih =>
    cases o with
    | none => exact absurd mem_cons_self h
    | some v => exact congrArg (some v :: ·) (ih fun hnone => h (mem_cons_of_mem _ hnone))

theorem meaningMembers_eq (value : F → Rat) (ms : List (List UInt16 × Value F)) :
    meaningMembers value ms = ms.map fun m => (m.1, meaning value m.2) := by
  induction ms with
  | nil => rfl
  | cons m ms ih => exact congrArg ((m.1, meaning value m.2) :: ·) ih

theorem meaningSlots_eq (value : F → Rat) (slots : List (Option (Value F))) :
    meaningSlots value slots = slots.map (Option.map (meaning value)) := by
  induction slots with
  | nil => rfl
  | cons o slots ih =>
    cases o with
    | none => exact congrArg (none :: ·) ih
    | some v => exact congrArg (some (meaning value v) :: ·) ih

/-- Sorting looks at the keys alone. -/
theorem sortMembers_map (f : α → β) (ms : List (List UInt16 × α)) :
    sortMembers (ms.map fun m => (m.1, f m.2)) = (sortMembers ms).map fun m => (m.1, f m.2) := by
  unfold sortMembers sortLess
  symm
  apply map_insertionSort
  intro a _ b _
  rfl

theorem mem_sortMembers {ms : List (List UInt16 × α)} {m : List UInt16 × α} :
    m ∈ sortMembers ms ↔ m ∈ ms := (sortLess_perm ms).mem_iff

end Images

/-! ## What is written -/

section Written

variable (E : Floats F)

/-- The text of a slot; a hole has none. -/
def writeSlot : Option (Value F) → Except String (List UInt16)
  | none => .ok []
  | some v => jcsWrite E v

theorem jcsSlots_eq (slots : List (Option (Value F))) : jcsSlots E slots = slots.mapM (writeSlot E) := by
  induction slots with
  | nil => rw [jcsSlots]; rfl
  | cons o slots ih => cases o <;> rw [jcsSlots, ih, mapM_cons] <;> rfl

variable {E}

variable {u : List UInt16}

/-- The bigints that are written are written in full. -/
theorem jcsBigInt_ok {n : Int} (h : jcsBigInt E n = .ok u) : u = encode (Decimal.intText n) := by
  unfold jcsBigInt at h
  dsimp only at h
  split_ifs at h
  · exact (Except.ok.inj h).symm
  · split at h
    · cases h
    · split_ifs at h with htext
      rw [← Except.ok.inj h, not_not.mp htext]

theorem jcsMember_ok {k : List UInt16} {x : Except String (List UInt16)} (h : jcsMember (k, x) = .ok u) :
    ∃ cs w, k = encode cs ∧ x = .ok w ∧ u = encode (Python.jcsString cs) ++ ascii ":" ++ w := by
  unfold jcsMember at h
  dsimp only at h
  split_ifs at h with hlone
  obtain ⟨cs, rfl⟩ := exists_encode (Bool.eq_false_iff.mpr hlone)
  obtain ⟨w, hw, heq⟩ := bind_ok.mp h
  exact ⟨cs, w, rfl, hw, by rw [← pure_ok.mp heq, stringify_encode]⟩

/-- Texts between brackets, with commas. -/
theorem enclosed_ok {x : Except String (List (List UInt16))} {o c : Char} (ho : o.toNat < 128) (hc : c.toNat < 128)
    (h : (x >>= fun ts => pure (encode [o] ++ List.intercalate (ascii ",") ts ++ encode [c])) = .ok u) :
    ∃ ts, x = .ok ts ∧ u = unit o :: (List.intercalate [unit ','] ts ++ [unit c]) := by
  obtain ⟨ts, hts, heq⟩ := bind_ok.mp h
  refine ⟨ts, hts, ?_⟩
  rw [← pure_ok.mp heq, encode_ascii (by simpa using ho), encode_ascii (by simpa using hc)]
  rfl

/-- The texts of the slots of an array. -/
theorem written_array (h : jcsWrite E (.array slots) = .ok u) :
    ∃ ts, List.Forall₂ (fun o t => writeSlot E o = .ok t) slots ts ∧
      u = unit '[' :: (List.intercalate [unit ','] ts ++ [unit ']']) := by
  rw [jcsWrite, jcsSlots_eq] at h
  obtain ⟨ts, hts, hu⟩ := enclosed_ok (by decide) (by decide) h
  exact ⟨ts, mapM_ok.mp hts, hu⟩

/-- The text of a member: its key between quotes, and the text of its value. -/
def WrittenMember (E : Floats F) (m : List UInt16 × Value F) (t : List UInt16) : Prop :=
  ∃ cs w, m.1 = encode cs ∧ jcsWrite E m.2 = .ok w ∧
    t = unit '"' :: (encode (cs.flatMap Python.escapeChar) ++ unit '"' :: unit ':' :: w)

/-- The texts of the members of an object, in the order of the keys. -/
theorem written_object {shape : Shape} {ms : List (List UInt16 × Value F)} (h : jcsWrite E (.object shape ms) = .ok u) :
    ∃ ts, List.Forall₂ (WrittenMember E) (sortMembers ms) ts ∧
      u = unit '{' :: (List.intercalate [unit ','] ts ++ [unit '}']) := by
  rw [jcsWrite] at h
  split_ifs at h
  obtain ⟨ts, hts, hu⟩ := enclosed_ok (by decide) (by decide) h
  rw [jcsMembers_eq, sortMembers_map, List.mapM_map] at hts
  refine ⟨ts, forall₂_imp_mem (mapM_ok.mp hts) fun m _ t ht => ?_, hu⟩
  obtain ⟨cs, w, hk, hw, rfl⟩ := jcsMember_ok ht
  refine ⟨cs, w, hk, hw, ?_⟩
  rw [encode_jcsString, append_assoc, cons_append, append_assoc]
  rfl

/-- Texts of UTF-16 units are joined to one. -/
theorem exists_encode_between {o c : Char} (ho : o.toNat < 128) (hc : c.toNat < 128) {ts : List (List UInt16)}
    (h : ∀ t ∈ ts, ∃ s, t = encode s) :
    ∃ s, unit o :: (List.intercalate [unit ','] ts ++ [unit c]) = encode s := by
  choose! f hf using h
  have hmap : (ts.map f).map encode = ts := by
    rw [map_map]
    exact (map_congr_left fun t ht => (hf t ht).symm).trans (map_id ts)
  refine ⟨o :: List.intercalate [','] (ts.map f) ++ [c], ?_⟩
  rw [encode_between o c ho hc, hmap]

/-- What is written is the encoding of a text. -/
theorem exists_encode_of_write (v : Value F) : ∀ u, jcsWrite E v = .ok u → ∃ t, u = encode t := by
  induction v using Value.nested with
  | null =>
    intro u h
    rw [jcsWrite] at h
    exact ⟨_, (Except.ok.inj h).symm⟩
  | bool b =>
    intro u h
    rw [jcsWrite] at h
    cases b
    · exact ⟨_, (Except.ok.inj h).symm⟩
    · exact ⟨_, (Except.ok.inj h).symm⟩
  | number v =>
    intro u h
    cases v with
    | nan | infinite =>
      rw [jcsWrite] at h
      cases h
    | zero | finite =>
      rw [jcsWrite] at h
      exact ⟨_, (Except.ok.inj h).symm⟩
  | bigint n =>
    intro u h
    rw [jcsWrite] at h
    exact ⟨_, jcsBigInt_ok h⟩
  | string s =>
    intro u h
    rw [jcsWrite] at h
    split_ifs at h with hlone
    obtain ⟨cs, rfl⟩ := exists_encode (Bool.eq_false_iff.mpr hlone)
    exact ⟨_, by rw [← Except.ok.inj h, stringify_encode]⟩
  | array slots ih =>
    intro u h
    obtain ⟨ts, hts, rfl⟩ := written_array h
    refine exists_encode_between (by decide) (by decide) fun t ht => ?_
    obtain ⟨o, ho, hwrite⟩ := exists_of_forall₂ hts ht
    cases o with
    | none => exact ⟨[], (Except.ok.inj hwrite).symm⟩
    | some v => exact ih v ho t hwrite
  | object shape ms ih =>
    intro u h
    obtain ⟨ts, hts, rfl⟩ := written_object h
    refine exists_encode_between (by decide) (by decide) fun t ht => ?_
    obtain ⟨m, hm, cs, w, -, hw, rfl⟩ := exists_of_forall₂ hts ht
    obtain ⟨s, rfl⟩ := ih m (mem_sortMembers.mp hm) w hw
    refine ⟨Python.jcsString cs ++ ':' :: s, ?_⟩
    rw [encode_append, encode_jcsString, encode_cons, cons_append, append_assoc]
    rfl
  | other t =>
    intro u h
    rw [jcsWrite] at h
    cases h

/-- **What is written for a value is the text of its document**, or no JSON. -/
def Described (E : Floats F) (v : Value F) : Prop :=
  ∀ u, jcsWrite E v = .ok u → (Solid v → JsonGrammar.Value (docOf E v) u) ∧ (¬Solid v → Broken u)

theorem described_of_solid {v : Value F} (hsolid : Solid v)
    (h : ∀ u, jcsWrite E v = .ok u → JsonGrammar.Value (docOf E v) u) : Described E v :=
  fun u hu => ⟨fun _ => h u hu, fun hnot => absurd hsolid hnot⟩

theorem described_number (v : Double F) : Described E (.number v) := by
  refine described_of_solid (.number v) fun u h => ?_
  cases v with
  | nan | infinite =>
    rw [jcsWrite] at h
    cases h
  | zero neg =>
    rw [jcsWrite] at h
    rw [← Except.ok.inj h]
    exact .num (grammar_of_literal (Decimal.literal_intText 0))
  | finite x =>
    have hliteral := (E.shortest x).literal_toText
    rw [jcsWrite] at h
    rw [← Except.ok.inj h, numberToString, encode_ascii (ascii_of_literal hliteral)]
    exact .num (grammar_of_literal hliteral)

theorem described_bigint (n : Int) : Described E (.bigint n) := by
  refine described_of_solid (.bigint n) fun u h => ?_
  have hliteral := Decimal.literal_intText n
  rw [jcsWrite] at h
  rw [jcsBigInt_ok h, encode_ascii (ascii_of_literal hliteral)]
  exact .num (grammar_of_literal hliteral)

theorem described_string (s : List UInt16) : Described E (.string s) := by
  refine described_of_solid (.string s) fun u h => ?_
  rw [jcsWrite] at h
  split_ifs at h with hlone
  obtain ⟨cs, rfl⟩ := exists_encode (Bool.eq_false_iff.mpr hlone)
  rw [← Except.ok.inj h, stringify_encode, encode_jcsString]
  exact .str (chars_escaped cs)

/-- What is written for a slot: a value, or something that is missing. -/
theorem slot_cases (ih : ∀ v, some v ∈ slots → Described E v) {o : Option (Value F)} (ho : o ∈ slots)
    (h : writeSlot E o = .ok u) : (∃ d, JsonGrammar.Value d u) ∨ Missing u := by
  cases o with
  | none => exact .inr (.inr (Except.ok.inj h).symm)
  | some v =>
    by_cases hv : Solid v
    · exact .inl ⟨_, (ih v ho u h).1 hv⟩
    · exact .inr (.inl ((ih v ho u h).2 hv))

theorem writeSlot_ne_nil (ih : ∀ v, some v ∈ slots → Described E v) {v : Value F} (hv : some v ∈ slots) :
    jcsWrite E v ≠ .ok [] := by
  intro h
  by_cases hsolid : Solid v
  · obtain ⟨_, _, h, -⟩ := value_head ((ih v hv [] h).1 hsolid)
    cases h
  · obtain ⟨_, _, h, -⟩ := ((ih v hv [] h).2 hsolid).head
    cases h

theorem described_array (ih : ∀ v, some v ∈ slots → Described E v) : Described E (.array slots) := by
  intro u h
  obtain ⟨ts, hts, rfl⟩ := written_array h
  refine ⟨fun hsolid => ?_, fun hnot => ?_⟩
  · cases hsolid with
    | hole =>
      obtain ⟨t, _, ht, hrest, rfl⟩ := forall₂_cons_left_iff.mp hts
      obtain rfl := forall₂_nil_left_iff.mp hrest
      obtain rfl := Except.ok.inj ht
      exact .emptyArr blanks_nil
    | array hnone hall =>
      obtain ⟨vs, rfl⟩ := exists_map_some hnone
      show JsonGrammar.Value (.arr (docSlots E (vs.map some))) _
      rw [docSlots_some]
      refine value_arr (forall₂_map_left_iff.mpr (forall₂_imp_mem (forall₂_map_left_iff.mp hts) fun v hv t ht => ?_))
      have hv := mem_map_of_mem (f := some) hv
      exact (ih v hv t ht).1 (hall v hv)
  · refine broken_arr (fun t ht => ?_) ?_ ?_
    · obtain ⟨o, ho, hwrite⟩ := exists_of_forall₂ hts ht
      exact slot_cases ih ho hwrite
    · -- a hole, or a value with a hole in it
      have hmissing : ∃ o ∈ slots, ∀ t, writeSlot E o = .ok t → Missing t := by
        by_contra hall
        push Not at hall
        refine hnot (.array (fun hnone => ?_) fun v hv => by_contra fun hsolid => ?_)
        · obtain ⟨t, ht, hmissing⟩ := hall none hnone
          exact hmissing (.inr (Except.ok.inj ht).symm)
        · obtain ⟨t, ht, hmissing⟩ := hall (some v) hv
          exact hmissing (.inl ((ih v hv t ht).2 hsolid))
      obtain ⟨o, ho, hmissing⟩ := hmissing
      obtain ⟨t, ht, hwrite⟩ := exists_of_forall₂ hts.flip ho
      exact ⟨t, ht, hmissing t hwrite⟩
    · rintro rfl
      obtain ⟨o, _, ho, hrest, rfl⟩ := forall₂_cons_right_iff.mp hts
      obtain rfl := forall₂_nil_right_iff.mp hrest
      cases o with
      | none => exact hnot .hole
      | some v => exact writeSlot_ne_nil ih mem_cons_self ho

theorem described_object {shape : Shape} {ms : List (List UInt16 × Value F)} (ih : ∀ m ∈ ms, Described E m.2) :
    Described E (.object shape ms) := by
  intro u h
  obtain ⟨ts, hts, rfl⟩ := written_object h
  have hsolid : ∀ {m t}, m ∈ ms → WrittenMember E m t → Solid m.2 → IsMember (m.1, docOf E m.2) t := by
    rintro m _ hm ⟨cs, w, hk, hw, rfl⟩ hsolid
    exact ⟨_, w, rfl, hk ▸ chars_escaped cs, (ih m hm w hw).1 hsolid⟩
  have hbroken : ∀ {m t}, m ∈ ms → WrittenMember E m t → ¬Solid m.2 → BrokenMember t := by
    rintro m _ hm ⟨cs, w, -, hw, rfl⟩ hnot
    exact ⟨_, encode cs, w, rfl, chars_escaped cs, (ih m hm w hw).2 hnot⟩
  refine ⟨fun h => ?_, fun hnot => ?_⟩
  · cases h with
    | object hall =>
      show JsonGrammar.Value (.obj (sortMembers (docMembers E ms))) _
      rw [docMembers_eq, sortMembers_map]
      refine value_obj (forall₂_map_left_iff.mpr (forall₂_imp_mem hts fun m hm t ht => ?_))
      have hm := mem_sortMembers.mp hm
      exact hsolid hm ht (hall m hm)
  · refine broken_obj (fun t ht => ?_) ?_
    · obtain ⟨m, hm, hwrite⟩ := exists_of_forall₂ hts ht
      have hm := mem_sortMembers.mp hm
      by_cases h : Solid m.2
      · exact .inl ⟨_, hsolid hm hwrite h⟩
      · exact .inr (hbroken hm hwrite h)
    · obtain ⟨m, hm, h⟩ : ∃ m ∈ ms, ¬Solid m.2 := by
        by_contra hall
        push Not at hall
        exact hnot (.object hall)
      obtain ⟨t, ht, hwrite⟩ := exists_of_forall₂ hts.flip (mem_sortMembers.mpr hm)
      exact ⟨t, ht, hbroken hm hwrite h⟩

/-- **The text of a solid value is that of its document, and no other text is JSON.** -/
theorem jcsWrite_derived (v : Value F) : Described E v := by
  induction v using Value.nested with
  | null =>
    refine described_of_solid .null fun u h => ?_
    rw [jcsWrite] at h
    rw [← Except.ok.inj h]
    exact .null
  | bool b =>
    refine described_of_solid (.bool b) fun u h => ?_
    rw [jcsWrite] at h
    rw [← Except.ok.inj h]
    cases b
    · exact .false
    · exact .true
  | number v => exact described_number v
  | bigint n => exact described_bigint n
  | string s => exact described_string s
  | array slots ih => exact described_array ih
  | object shape ms ih => exact described_object ih
  | other t =>
    intro u h
    rw [jcsWrite] at h
    cases h

end Written

end TypeScript

end SeamSdk
