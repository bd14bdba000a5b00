import SeamSdk.Sdk.JcsJson

/-!
# Which values share TypeScript's canonical text

An array of one hole has the text of the empty array. A `bigint` that is no double has the text of the double it is rounded
to, where that double is printed in full as the `bigint`. `Unshared` values have neither of the two in them, on either side.

- `twin` puts the other one for each of these. It keeps the text of a value whose text is JSON, and its meaning only if
  there is nothing to exchange (`twin_of_solid`).
- `meaning_of_docOf`: what has the document of an unshared value means the same.

`json_unaliased_iff` puts the two together.
-/

namespace SeamSdk

open ByteCodec Checked Comparison JsonGrammar Utf16 List

variable {F : Type}

namespace TypeScript

/-- The integer is a double. -/
def isDouble (D : Doubles F) (n : Int) : Bool := n = 0 || (D.ofInt n).any fun x => D.value x = n

/-- No array is empty or has a hole, every `bigint` is a double, and every double that is printed as an integer is that
integer. -/
inductive Unshared (D : Doubles F) : Value F → Prop
  | null : Unshared D .null
  | bool (b : Bool) : Unshared D (.bool b)
  | zero (neg : Bool) : Unshared D (.number (.zero neg))
  | finite (x : F) : (∀ n : Int, Decimal.intText n = numberToString D.toFloats x → D.value x = n) →
      Unshared D (.number (.finite x))
  | bigint (n : Int) : isDouble D n = true → Unshared D (.bigint n)
  | string (s : List UInt16) : Unshared D (.string s)
  | array {slots : List (Option (Value F))} : slots ≠ [] → none ∉ slots → (∀ v, some v ∈ slots → Unshared D v) →
      Unshared D (.array slots)
  | object {shape : Shape} {ms : List (List UInt16 × Value F)} : (∀ m ∈ ms, Unshared D m.2) → Unshared D (.object shape ms)

/-- The integer that a double is printed as, where it is another number. -/
def printedAs (D : Doubles F) (x : F) : Option Int :=
  let n := (D.shortest x).value.num
  if Decimal.intText n = numberToString D.toFloats x ∧ D.value x ≠ n then some n else none

mutual

/-- A value of the same text: the empty array and the array of one hole for each other, and a `bigint` and a double that
are printed alike without being one number for each other. -/
def twin (D : Doubles F) : Value F → Value F
  | .number (.finite x) =>
    match printedAs D x with
    | some n => .bigint n
    | none => .number (.finite x)
  | .bigint n =>
    if isDouble D n then .bigint n
    else match D.ofInt n with
      | some x => .number (.finite x)
      | none => .bigint n
  | .array [] => .array [none]
  | .array [none] => .array []
  | .array slots => .array (twinSlots D slots)
  | .object shape ms => .object shape (twinMembers D ms)
  | v => v

def twinSlots (D : Doubles F) : List (Option (Value F)) → List (Option (Value F))
  | [] => []
  | none :: slots => none :: twinSlots D slots
  | some v :: slots => some (twin D v) :: twinSlots D slots

def twinMembers (D : Doubles F) : List (List UInt16 × Value F) → List (List UInt16 × Value F)
  | [] => []
  | (k, v) :: ms => (k, twin D v) :: twinMembers D ms

end

theorem twinMembers_eq (D : Doubles F) (ms : List (List UInt16 × Value F)) :
    twinMembers D ms = ms.map fun m => (m.1, twin D m.2) := by
  induction ms with
  | nil => rfl
  | cons m ms ih => exact congrArg ((m.1, twin D m.2) :: ·) ih

theorem twinSlots_some (D : Doubles F) (vs : List (Value F)) :
    twinSlots D (vs.map some) = (vs.map (twin D)).map some := by
  induction vs with
  | nil => rfl
  | cons v vs ih => exact congrArg (some (twin D v) :: ·) ih

variable {D : Doubles F} {u : List UInt16} {n : Int} {x : F} {v : Value F}

/-! ## Numbers and their texts -/

theorem unshared_solid (h : Unshared D v) : Solid v := by
  induction h with
  | null => exact .null
  | bool b => exact .bool b
  | zero | finite => exact .number _
  | bigint n _ => exact .bigint n
  | string s => exact .string s
  | array _ hnone _ ih => exact .array hnone ih
  | object _ ih => exact .object ih

/-- A double that is printed as an integer has its digits. -/
theorem shortest_value (h : Decimal.intText n = numberToString D.toFloats x) : (D.shortest x).value = n := by
  have hliteral := Decimal.literal_intText n
  rw [h] at hliteral
  exact literal_unique (D.shortest x).literal_toText hliteral

/-- The integer is rounded to that double. -/
theorem ofInt_of_printed (h : Decimal.intText n = numberToString D.toFloats x) : D.ofInt n = some x := by
  rw [D.ofInt_eq, ← shortest_value h, D.round_shortest]

theorem isDouble_of_safe (h : n ≤ maxSafe ∧ -maxSafe ≤ n) : isDouble D n = true := by
  unfold isDouble
  by_cases hzero : n = 0
  · rw [decide_eq_true hzero, Bool.true_or]
  · obtain ⟨x, hx, hvalue⟩ := D.round_safe n hzero h.2 h.1
    rw [D.ofInt_eq, hx, Option.any_some, decide_eq_true hvalue, Bool.or_true]

/-- A double whose digits are those of an integer that is a double is that integer. -/
theorem value_of_isDouble (hn : isDouble D n = true) (h : Decimal.intText n = numberToString D.toFloats x) :
    D.value x = n := by
  rw [isDouble, Bool.or_eq_true, decide_eq_true_iff, Option.any_eq_true] at hn
  rcases hn with rfl | ⟨y, hy, hvalue⟩
  · exact absurd (shortest_value h) (by simpa using (D.shortest x).value_ne_zero)
  · rw [ofInt_of_printed h] at hy
    rw [Option.some.inj hy]
    exact of_decide_eq_true hvalue

/-! ## The value of the same text -/

/-- What `twin` gives for a value whose text is JSON. -/
structure Twinned (D : Doubles F) (v : Value F) : Prop where
  write : jcsWrite D.toFloats (twin D v) = jcsWrite D.toFloats v
  unshared : meaning D.value (twin D v) = meaning D.value v → Unshared D v

theorem twinned_self (hv : Unshared D v) (ht : twin D v = v) : Twinned D v := ⟨by rw [ht], fun _ => hv⟩

theorem twinned_finite (x : F) : Twinned D (.number (.finite x)) := by
  cases hp : printedAs D x with
  | none =>
    refine twinned_self (.finite x fun n hn => ?_) (by rw [twin, hp])
    -- the integer could only be the one that was looked at
    by_contra hother
    have hnum : (D.shortest x).value.num = n := by rw [shortest_value hn, Rat.num_intCast]
    rw [printedAs, hnum, if_pos ⟨hn, hother⟩] at hp
    cases hp
  | some n =>
    have htwin : twin D (.number (.finite x)) = .bigint n := by rw [twin, hp]
    unfold printedAs at hp
    dsimp only at hp
    split_ifs at hp with hother
    rw [Option.some.inj hp] at hother
    obtain ⟨htext, hother⟩ := hother
    refine ⟨?_, fun hmeaning => ?_⟩
    · rw [htwin, jcsWrite, jcsWrite, jcsBigInt, ofInt_of_printed htext, htext]
      simp
    · rw [htwin] at hmeaning
      exact absurd (Meaning.num.inj hmeaning).symm hother

theorem twinned_bigint (h : jcsWrite D.toFloats (.bigint n) = .ok u) : Twinned D (.bigint n) := by
  by_cases hn : isDouble D n = true
  · exact twinned_self (.bigint n hn) (by rw [twin, if_pos hn])
  have hunsafe : ¬(n ≤ maxSafe ∧ -maxSafe ≤ n) := fun hsafe => hn (isDouble_of_safe hsafe)
  have hwrite := h
  rw [jcsWrite, jcsBigInt, if_neg hunsafe] at h
  cases hx : D.ofInt n with
  | none =>
    rw [hx] at h
    cases h
  | some x =>
    have htwin : twin D (.bigint n) = .number (.finite x) := by
      rw [twin, if_neg hn, hx]
    rw [hx] at h
    dsimp only at h
    split_ifs at h
    refine ⟨by rw [htwin, hwrite, jcsWrite, h], fun hmeaning => ?_⟩
    rw [htwin] at hmeaning
    have hvalue : D.value x = n := Meaning.num.inj hmeaning
    refine absurd ?_ hn
    rw [isDouble, hx, Option.any_some, decide_eq_true hvalue, Bool.or_true]

theorem written_slots {slots : List (Option (Value F))} (h : jcsWrite D.toFloats (.array slots) = .ok u) :
    ∀ v, some v ∈ slots → ∃ u, jcsWrite D.toFloats v = .ok u := by
  intro v hv
  obtain ⟨ts, hts, -⟩ := written_array h
  obtain ⟨t, -, ht⟩ := exists_of_forall₂ hts.flip hv
  exact ⟨t, ht⟩

theorem written_members {shape : Shape} {ms : List (List UInt16 × Value F)}
    (h : jcsWrite D.toFloats (.object shape ms) = .ok u) : ∀ m ∈ ms, ∃ u, jcsWrite D.toFloats m.2 = .ok u := by
  intro m hm
  obtain ⟨ts, hts, -⟩ := written_object h
  obtain ⟨_, -, _, w, -, hw, -⟩ := exists_of_forall₂ hts.flip (mem_sortMembers.mpr hm)
  exact ⟨w, hw⟩

/-- The two arrays of one text. -/
theorem twinned_empty : Twinned D (.array []) ∧ Twinned D (.array [none]) := by
  have hwrite : jcsWrite D.toFloats (.array [none]) = jcsWrite D.toFloats (.array []) := by
    simp only [jcsWrite, jcsSlots]
    rfl
  refine ⟨⟨hwrite, fun hmeaning => ?_⟩, ⟨hwrite.symm, fun hmeaning => ?_⟩⟩
  · have hslots : [none] = ([] : List (Option Meaning)) := Meaning.arr.inj hmeaning
    cases hslots
  · have hslots : ([] : List (Option Meaning)) = [none] := Meaning.arr.inj hmeaning
    cases hslots

theorem mapM_eq_map_id {α β : Type} (f : α → Except String β) (l : List α) : l.mapM f = (l.map f).mapM id := by
  rw [List.mapM_map]
  rfl

theorem twinned_array {vs : List (Value F)} (hne : vs ≠ []) (h : ∀ v ∈ vs, Twinned D v) :
    Twinned D (.array (vs.map some)) := by
  have htwin : twin D (.array (vs.map some)) = .array ((vs.map (twin D)).map some) := by
    cases vs with
    | nil => exact absurd rfl hne
    | cons v vs => exact congrArg Value.array (twinSlots_some D (v :: vs))
  refine ⟨?_, fun hmeaning => .array (by simpa using hne) (by simp) fun v hv => ?_⟩
  · have hwrite : ((vs.map (twin D)).map some).map (writeSlot D.toFloats) = (vs.map some).map (writeSlot D.toFloats) := by
      rw [map_map, map_map, map_map]
      exact map_congr_left fun v hv => (h v hv).write
    rw [htwin, jcsWrite, jcsWrite, jcsSlots_eq, jcsSlots_eq, mapM_eq_map_id, hwrite, ← mapM_eq_map_id]
  · rw [htwin] at hmeaning
    have hslots : meaningSlots D.value _ = meaningSlots D.value _ := Meaning.arr.inj hmeaning
    rw [meaningSlots_eq, meaningSlots_eq, map_map, map_map, map_map, map_eq_map_iff] at hslots
    have hv : v ∈ vs := by simpa using hv
    exact (h v hv).unshared (Option.some.inj (hslots v hv))

theorem twinned_object {shape : Shape} {ms : List (List UInt16 × Value F)} (h : ∀ m ∈ ms, Twinned D m.2) :
    Twinned D (.object shape ms) := by
  have htwin : twin D (.object shape ms) = .object shape (ms.map fun m => (m.1, twin D m.2)) :=
    congrArg (Value.object shape) (twinMembers_eq D ms)
  refine ⟨?_, fun hmeaning => .object fun m hm => ?_⟩
  · have hwrite : jcsMembers D.toFloats (ms.map fun m => (m.1, twin D m.2)) = jcsMembers D.toFloats ms := by
      rw [jcsMembers_eq, jcsMembers_eq, map_map]
      exact map_congr_left fun m hm => congrArg (Prod.mk m.1) (h m hm).write
    rw [htwin, jcsWrite, jcsWrite, hwrite]
  · rw [htwin] at hmeaning
    have hmembers : sortMembers (meaningMembers D.value _) = sortMembers (meaningMembers D.value _) :=
      Meaning.obj.inj hmeaning
    rw [meaningMembers_eq, meaningMembers_eq, sortMembers_map, sortMembers_map, sortMembers_map, map_map,
      map_eq_map_iff] at hmembers
    exact (h m hm).unshared (Prod.mk.inj (hmembers m (mem_sortMembers.mpr hm))).2

/-- **A value whose text is JSON shares it with its twin**, of another meaning unless it is unshared. -/
theorem twin_of_solid (v : Value F) : ∀ u, jcsWrite D.toFloats v = .ok u → Solid v → Twinned D v := by
  induction v using Value.nested with
  | null => exact fun _ _ _ => twinned_self .null rfl
  | bool b => exact fun _ _ _ => twinned_self (.bool b) rfl
  | string s => exact fun _ _ _ => twinned_self (.string s) rfl
  | number v =>
    intro u h _
    cases v with
    | nan | infinite =>
      rw [jcsWrite] at h
      cases h
    | zero neg => exact twinned_self (.zero neg) rfl
    | finite x => exact twinned_finite x
  | bigint n => exact fun u h _ => twinned_bigint h
  | array slots ih =>
    intro u h hsolid
    cases hsolid with
    | hole => exact twinned_empty.2
    | array hnone hall =>
      obtain ⟨vs, rfl⟩ := exists_map_some hnone
      by_cases hne : vs = []
      · subst hne
        exact twinned_empty.1
      refine twinned_array hne fun v hv => ?_
      have hv := mem_map_of_mem (f := some) hv
      obtain ⟨w, hw⟩ := written_slots h v hv
      exact ih v hv w hw (hall v hv)
  | object shape ms ih =>
    intro u h hsolid
    cases hsolid with
    | object hall =>
      refine twinned_object fun m hm => ?_
      obtain ⟨w, hw⟩ := written_members h m hm
      exact ih m hm w hw (hall m hm)
  | other t =>
    intro u h
    rw [jcsWrite] at h
    cases h

/-! ## The meaning of a document -/

/-- What the text of a double writes: its shortest digits. -/
theorem literal_numberText (E : Floats F) (v : Double F) :
    Decimal.Literal (numberText E v) (numberValue (fun x => (E.shortest x).value) v) := by
  cases v with
  | nan | infinite | zero => exact Decimal.literal_intText 0
  | finite x => exact (E.shortest x).literal_toText

theorem numberText_ne_zero (x : F) : numberText D.toFloats (.finite x) ≠ ['0'] := by
  intro h
  have hliteral := literal_numberText D.toFloats (.finite x)
  rw [h] at hliteral
  exact (D.shortest x).value_ne_zero (literal_unique hliteral (Decimal.literal_intText 0) |>.trans Int.cast_zero)

/-- Texts of numbers are told apart by their units. -/
theorem literal_map_unit {s t : List Char} {p q : Rat} (hs : Decimal.Literal s p) (ht : Decimal.Literal t q)
    (h : s.map unit = t.map unit) : s = t := by
  rw [← encode_ascii (ascii_of_literal hs), ← encode_ascii (ascii_of_literal ht)] at h
  exact encode_injective h

/-- What has the document of a number is a number with the same text. -/
theorem number_of_docOf {t : List Char} {q : Rat} (ht : Decimal.Literal t q) {w : Value F}
    (h : docOf D.toFloats w = .num (t.map unit)) :
    (∃ v, w = .number v ∧ numberText D.toFloats v = t) ∨ ∃ n, w = .bigint n ∧ Decimal.intText n = t := by
  cases w with
  | number v => exact .inl ⟨v, rfl, literal_map_unit (literal_numberText D.toFloats v) ht (Doc.num.inj h)⟩
  | bigint n => exact .inr ⟨n, rfl, literal_map_unit (Decimal.literal_intText n) ht (Doc.num.inj h)⟩
  | null | bool | string | array | object | other => cases h

theorem meaning_of_zero {neg : Bool} {w : Value F}
    (h : docOf D.toFloats w = docOf D.toFloats (.number (.zero neg))) : meaning D.value w = .num 0 := by
  rcases number_of_docOf (Decimal.literal_intText 0) h with ⟨v, rfl, htext⟩ | ⟨n, rfl, htext⟩
  · cases v with
    | nan | infinite | zero => rfl
    | finite x => exact absurd htext (numberText_ne_zero x)
  · show Meaning.num n = _
    rw [literal_unique (Decimal.literal_intText n) (htext ▸ Decimal.literal_intText 0), Int.cast_zero]

theorem meaning_of_finite {w : Value F}
    (hx : ∀ n : Int, Decimal.intText n = numberToString D.toFloats x → D.value x = n)
    (h : docOf D.toFloats w = docOf D.toFloats (.number (.finite x))) : meaning D.value w = .num (D.value x) := by
  rcases number_of_docOf (literal_numberText D.toFloats (.finite x)) h with ⟨v, rfl, htext⟩ | ⟨n, rfl, htext⟩
  · cases v with
    | nan | infinite | zero => exact absurd htext.symm (numberText_ne_zero x)
    | finite y =>
      have hvalue := literal_unique (literal_numberText D.toFloats (.finite y))
        (htext ▸ literal_numberText D.toFloats (.finite x))
      have hround := D.round_shortest y
      rw [show (D.shortest y).value = (D.shortest x).value from hvalue, D.round_shortest] at hround
      rw [Option.some.inj hround]
      rfl
  · exact congrArg Meaning.num (hx n htext).symm

theorem meaning_of_bigint {w : Value F} (hn : isDouble D n = true)
    (h : docOf D.toFloats w = docOf D.toFloats (.bigint n)) : meaning D.value w = .num n := by
  rcases number_of_docOf (Decimal.literal_intText n) h with ⟨v, rfl, htext⟩ | ⟨m, rfl, htext⟩
  · cases v with
    | nan | infinite | zero =>
      have hzero := literal_unique (Decimal.literal_intText 0) (htext ▸ Decimal.literal_intText n)
      rw [← hzero, Int.cast_zero]
      rfl
    | finite y => exact congrArg Meaning.num (value_of_isDouble hn htext.symm)
  · exact congrArg Meaning.num (literal_unique (Decimal.literal_intText m) (htext ▸ Decimal.literal_intText n))

/-- Where one image tells items apart as another does. -/
theorem map_eq_of_map_eq {α β γ : Type} {f : α → β} {g : α → γ} {as bs : List α} (h : as.map f = bs.map f)
    (himp : ∀ a ∈ as, ∀ b ∈ bs, f a = f b → g a = g b) : as.map g = bs.map g := by
  have hall := forall₂_of_map_eq h
  induction hall with
  | nil => rfl
  | @cons a b as bs hab hrest ih =>
    rw [map_cons, map_cons, himp a mem_cons_self b mem_cons_self hab, ih (cons.inj h).2
      fun a ha b hb => himp a (mem_cons_of_mem _ ha) b (mem_cons_of_mem _ hb)]

/-- **What has the document of an unshared value means the same.** -/
theorem meaning_of_docOf (hv : Unshared D v) : ∀ {w : Value F}, Solid w → docOf D.toFloats w = docOf D.toFloats v →
    meaning D.value w = meaning D.value v := by
  induction hv with
  | null =>
    intro w _ h
    cases w with
    | null | other => simp only [meaning]
    | bool | number | bigint | string | array | object => simp [docOf] at h
  | bool b =>
    intro w _ h
    cases w with
    | bool c =>
      rw [docOf, docOf, Doc.bool.injEq] at h
      rw [h]
    | null | other | number | bigint | string | array | object => simp [docOf] at h
  | zero neg =>
    intro w _ h
    rw [meaning_of_zero h, meaning]
    rfl
  | finite x hx =>
    intro w _ h
    rw [meaning_of_finite hx h, meaning]
    rfl
  | bigint n hn =>
    intro w _ h
    rw [meaning_of_bigint hn h, meaning]
  | string s =>
    intro w _ h
    cases w with
    | string t =>
      rw [docOf, docOf, Doc.str.injEq] at h
      rw [h]
    | null | other | number | bigint | bool | array | object => simp [docOf] at h
  | @array slots hne hnone _ ih =>
    intro w hw h
    obtain ⟨vs, rfl⟩ := exists_map_some hnone
    cases hw with
    | array hnone' hsolid =>
      obtain ⟨ws, rfl⟩ := exists_map_some hnone'
      rw [docOf, docOf, docSlots_some, docSlots_some, Doc.arr.injEq] at h
      rw [meaning, meaning, meaningSlots_eq, meaningSlots_eq, map_map, map_map]
      refine congrArg Meaning.arr (map_eq_of_map_eq h fun w hw v hv heq => congrArg some ?_)
      exact ih v (mem_map_of_mem hv) (hsolid w (mem_map_of_mem hw)) heq
    | hole =>
      rw [docOf, docOf, docSlots_some, docSlots, docSlots, Doc.arr.injEq, eq_comm, map_eq_nil_iff] at h
      exact absurd (by rw [h]; rfl) hne
    | null | bool | number | bigint | string | object => simp [docOf] at h
  | @object shape ms _ ih =>
    intro w hw h
    cases hw with
    | @object shape' ns hsolid =>
      rw [docOf, docOf, docMembers_eq, docMembers_eq, sortMembers_map, sortMembers_map, Doc.obj.injEq] at h
      rw [meaning, meaning, meaningMembers_eq, meaningMembers_eq, sortMembers_map, sortMembers_map]
      refine congrArg Meaning.obj (map_eq_of_map_eq h fun n hn m hm heq => ?_)
      obtain ⟨hkey, hdoc⟩ := Prod.mk.inj heq
      rw [mem_sortMembers] at hn hm
      rw [hkey, ih m hm (hsolid n hn) hdoc]
    | null | bool | number | bigint | string | array | hole => simp [docOf] at h

/-! ## Texts of values -/

theorem jcsCanonicalize_ok {E : Floats F} {out : Bytes} (h : jcsCanonicalize E v = .ok out) :
    ∃ t, jcsWrite E v = .ok (encode t) ∧ out = utf8 (String.ofList t) := by
  obtain ⟨u, hu, hout⟩ := bind_ok.mp h
  obtain ⟨t, rfl⟩ := exists_encode_of_write v u hu
  exact ⟨t, hu, by rw [← pure_ok.mp hout, decodeLossy_encode]⟩

/-- **Main result.** The bytes of a value are JSON and not those of an accepted value of another meaning exactly when the
value is unshared. -/
theorem json_unaliased_iff (D : Doubles F) {v : Value F} {out : Bytes} (h : jcsCanonicalize D.toFloats v = .ok out) :
    ((∃ text d, out = utf8 (String.ofList text) ∧ Element d (encode text)) ∧
      ∀ w out', jcsCanonicalize D.toFloats w = .ok out' → meaning D.value w ≠ meaning D.value v → out' ≠ out) ↔
    Unshared D v := by
  obtain ⟨t, hwrite, rfl⟩ := jcsCanonicalize_ok h
  have hsame : ∀ {s}, utf8 (String.ofList s) = utf8 (String.ofList t) → s = t := fun hs =>
    String.ofList_injective (utf8_injective hs)
  constructor
  · rintro ⟨⟨text, d, htext, hd⟩, halias⟩
    obtain rfl := hsame htext.symm
    have hsolid : Solid v := by_contra fun hnot => ((jcsWrite_derived v _ hwrite).2 hnot).not_element hd
    have htwin := twin_of_solid v _ hwrite hsolid
    refine htwin.unshared (by_contra fun hother => ?_)
    refine halias (twin D v) _ ?_ hother rfl
    rw [← h, jcsCanonicalize, jcsCanonicalize, htwin.write]
  · intro hv
    have hd := element_of_value ((jcsWrite_derived v _ hwrite).1 (unshared_solid hv))
    refine ⟨⟨t, _, rfl, hd⟩, fun w out' hw hother heq => ?_⟩
    obtain ⟨s, hwrite', rfl⟩ := jcsCanonicalize_ok hw
    obtain rfl := hsame heq
    -- the text of the other value is JSON too, so it is derived for the same document
    have hsolid : Solid w := by_contra fun hnot => ((jcsWrite_derived w _ hwrite').2 hnot).not_element hd
    have hd' := element_of_value ((jcsWrite_derived w _ hwrite').1 hsolid)
    exact hother (meaning_of_docOf hv hsolid (element_unique hd' hd))

/-- A number with finitely many decimals. -/
abbrev Finite : Type := {q : Rat // ∃ d : Decimal, d.value = q}

open Classical in
noncomputable def roundFinite (q : Rat) : Option Finite :=
  if h : ∃ d : Decimal, d.value = q then some ⟨q, h⟩ else none

theorem roundFinite_of {q : Rat} (h : ∃ d : Decimal, d.value = q) : roundFinite q = some ⟨q, h⟩ := dif_pos h

/-- Every number with finitely many decimals, in place of the doubles. -/
noncomputable def finiteDecimals : Doubles Finite where
  shortest := fun x => x.2.choose
  ofInt := fun n => roundFinite n
  value := Subtype.val
  round := roundFinite
  round_shortest := fun x => (roundFinite_of ⟨_, rfl⟩).trans (congrArg some (Subtype.ext x.2.choose_spec))
  ofInt_eq := fun _ => rfl
  round_safe := fun _ hn _ _ => ⟨_, roundFinite_of (Decimal.exists_value_eq hn), rfl⟩

/-- `[1,null]` is JSON and not the text of `[1]`, and `[]` is also the text of an array of one hole. -/
theorem json_unaliased_one_null :
    (∃ text d, utf8 "[1,null]" = utf8 (String.ofList text) ∧ Element d (encode text)) ∧ utf8 "[1]" ≠ utf8 "[1,null]" ∧
    ∃ w : Value Finite, jcsCanonicalize finiteDecimals.toFloats w = .ok (utf8 "[]") ∧
      meaning finiteDecimals.value w ≠ meaning finiteDecimals.value (.array []) := by
  have hone : jcsCanonicalize finiteDecimals.toFloats (.array [some (.bigint 1), some .null]) =
      .ok (utf8 "[1,null]") := rfl
  have hshort : jcsCanonicalize finiteDecimals.toFloats (.array [some (.bigint 1)]) = .ok (utf8 "[1]") := rfl
  have hempty : jcsCanonicalize finiteDecimals.toFloats (.array []) = .ok (utf8 "[]") := rfl
  have hunshared : Unshared finiteDecimals (.array [some (.bigint 1), some .null]) := by
    refine .array (by simp) (by simp) fun v hv => ?_
    simp only [mem_cons, Option.some.injEq, not_mem_nil, or_false] at hv
    rcases hv with rfl | rfl
    · exact .bigint 1 (isDouble_of_safe (by decide))
    · exact .null
  have hboth := (json_unaliased_iff finiteDecimals hone).mpr hunshared
  refine ⟨hboth.1, hboth.2 _ _ hshort (by simp [meaning, meaningSlots]), ?_⟩
  by_contra hnone
  push Not at hnone
  have hjson : Element (.arr []) (encode "[]".toList) := element_of_value (.emptyArr blanks_nil)
  have hnot := (json_unaliased_iff finiteDecimals hempty).mp
    ⟨⟨"[]".toList, _, rfl, hjson⟩, fun w out' hw hother hout => hother (hnone w (hout ▸ hw))⟩
  cases hnot with
  | array hne => exact hne rfl

/-- One hole is written as no slot at all, and two holes are not JSON. -/
theorem holes_alias_and_break :
    (jcsCanonicalize decimals (.array [none]) = .ok (utf8 "[]") ∧ jcsCanonicalize decimals (.array []) = .ok (utf8 "[]") ∧
      meaning Decimal.value (.array [none]) ≠ meaning Decimal.value (.array [])) ∧
    jcsCanonicalize decimals (.array [none, none]) = .ok (utf8 "[,]") ∧ ∀ d, ¬Element d (encode "[,]".toList) := by
  refine ⟨⟨rfl, rfl, ?_⟩, rfl, fun d => ?_⟩
  · rw [meaning, meaning, meaningSlots, meaningSlots]
    intro h
    cases h
  · have hholes : Broken (unit '[' :: (List.intercalate [unit ','] [[], []] ++ [unit ']'])) :=
      broken_arr (by simp [Missing]) ⟨[], by simp [Missing]⟩ (by simp)
    exact hholes.not_element

end TypeScript

end SeamSdk
