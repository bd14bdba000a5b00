import SeamSdk.Lib.Checked
import SeamSdk.Sdk.JcsNumber

/-!
# Canonical texts in the JSON grammar

What `jcs_canonicalize` writes is derived in the grammar, for a document `docOf` that depends on the value alone: numbers as
they are printed, strings as their units, members in the order of their keys.

- `text_arr_ok`, `text_obj_ok`: a container is written if all that is in it is;
- `chars_escaped`: an escaped string stands for the string;
- `value_docOf`: the text of a value is derived for its document.
-/

namespace SeamSdk

open ByteCodec Checked JsonGrammar Utf16 Python List

variable {F : Type}

namespace JsonValue

/-! ## Documents -/

/-- The number a value is. -/
def numeric (E : Floats F) : JsonValue F → Option Rat
  | .int n => some n
  | .zero _ => some 0
  | .float x => some (E.shortest x).value
  | _ => none

/-- Induction on a value, through items and members. -/
@[elab_as_elim]
theorem nested {P : JsonValue F → Prop} (null : P .null) (bool : ∀ b, P (.bool b)) (str : ∀ s, P (.str s))
    (int : ∀ n, P (.int n)) (zero : ∀ neg, P (.zero neg)) (float : ∀ x, P (.float x))
    (arr : ∀ vs, (∀ v ∈ vs, P v) → P (.arr vs)) (obj : ∀ ms, (∀ m ∈ ms, P m.2) → P (.obj ms)) (v : JsonValue F) :
    P v := by
  refine @JsonValue.rec F P (fun vs => ∀ v ∈ vs, P v) (fun ms => ∀ m ∈ ms, P m.2) (fun m => P m.2) null bool str int zero
    float arr obj ?_ ?_ ?_ ?_ ?_ v
  · exact fun v h => absurd h not_mem_nil
  · exact fun v vs hv hvs => forall_mem_cons.mpr ⟨hv, hvs⟩
  · exact fun m h => absurd h not_mem_nil
  · exact fun m ms hm hms => forall_mem_cons.mpr ⟨hm, hms⟩
  · exact fun _ _ h => h

mutual

/-- The document of the canonical text. -/
def docOf (E : Floats F) : JsonValue F → Doc
  | .null => .null
  | .bool b => .bool b
  | .str s => .str (encode s)
  | .int n => .num ((Decimal.intText n).map unit)
  | .zero _ => .num (ascii "0")
  | .float x => .num ((E.shortest x).toText.map unit)
  | .arr vs => .arr (docItems E vs)
  | .obj ms => .obj ((sortMembers (docMembers E ms)).map fun m => (encode m.1, m.2))

def docItems (E : Floats F) : List (JsonValue F) → List Doc
  | [] => []
  | v :: vs => docOf E v :: docItems E vs

def docMembers (E : Floats F) : List (List Char × JsonValue F) → List (List Char × Doc)
  | [] => []
  | (k, v) :: ms => (k, docOf E v) :: docMembers E ms

end

section Images

variable (E : Floats F)

theorem docItems_eq (vs : List (JsonValue F)) : docItems E vs = vs.map (docOf E) := by
  induction vs with
  | nil => rw [docItems]; rfl
  | cons v vs ih => rw [docItems, ih]; rfl

theorem docMembers_eq (ms : List (List Char × JsonValue F)) :
    docMembers E ms = ms.map fun m => (m.1, docOf E m.2) := by
  induction ms with
  | nil => rw [docMembers]; rfl
  | cons m ms ih => rw [docMembers, ih]; rfl

end Images

end JsonValue

/-! ## Sorting -/

variable {t : List Char} {m : List Char × JsonValue F} {v : JsonValue F} {α : Type}

/-- Sorting looks at the keys alone. -/
theorem Python.sortMembers_map {β : Type} (f : α → β) (ms : List (List Char × α)) :
    sortMembers (ms.map fun m => (m.1, f m.2)) = (sortMembers ms).map fun m => (m.1, f m.2) := by
  unfold sortMembers Comparison.sortLess
  symm
  apply map_insertionSort
  intro a _ b _
  rfl

theorem Python.sortMembers_perm (ms : List (List Char × α)) : (sortMembers ms).Perm ms :=
  Comparison.sortLess_perm ms

theorem Python.mem_sortMembers {ms : List (List Char × α)} {m : List Char × α} :
    m ∈ sortMembers ms ↔ m ∈ ms := (sortMembers_perm ms).mem_iff

/-! ## Texts of containers -/

section Texts

open JsonValue

variable {E : Floats F}

theorem text_arr_ok {vs : List (JsonValue F)} : text E (.arr vs) = .ok t ↔
    ∃ ts, List.Forall₂ (fun v t => text E v = .ok t) vs ts ∧ t = '[' :: List.intercalate [','] ts ++ [']'] := by
  rw [text_arr]
  constructor
  · intro h
    cases hts : vs.mapM (text E) with
    | error e =>
      rw [hts] at h
      cases h
    | ok ts =>
      rw [hts] at h
      exact ⟨ts, mapM_ok.mp hts, (Except.ok.inj h).symm⟩
  · rintro ⟨ts, hts, rfl⟩
    rw [mapM_ok.mpr hts]
    rfl

/-- The text of a member. -/
def MemberText (E : Floats F) (m : List Char × JsonValue F) (t : List Char) : Prop :=
  ∃ u, text E m.2 = .ok u ∧ t = jcsString m.1 ++ ':' :: u

theorem jcsMember_ok : jcsMember (m.1, text E m.2) = .ok t ↔ MemberText E m t := by
  rw [jcsMember, bind_ok]
  exact exists_congr fun u => and_congr_right fun _ => pure_ok.trans eq_comm

theorem text_obj_ok {ms : List (List Char × JsonValue F)} : text E (.obj ms) = .ok t ↔
    ∃ ts, List.Forall₂ (MemberText E) (sortMembers ms) ts ∧ t = '{' :: List.intercalate [','] ts ++ ['}'] := by
  have hloop : ∀ ts, (sortMembers (texts E ms)).mapM jcsMember = .ok ts ↔
      List.Forall₂ (MemberText E) (sortMembers ms) ts := by
    intro ts
    rw [texts, sortMembers_map, mapM_ok, forall₂_map_left_iff]
    simp only [jcsMember_ok]
  rw [text_obj]
  constructor
  · intro h
    cases hts : (sortMembers (texts E ms)).mapM jcsMember with
    | error e =>
      rw [hts] at h
      cases h
    | ok ts =>
      rw [hts] at h
      exact ⟨ts, (hloop ts).mp hts, (Except.ok.inj h).symm⟩
  · rintro ⟨ts, hts, rfl⟩
    rw [(hloop ts).mpr hts]
    rfl

theorem exists_text_of_item {vs : List (JsonValue F)} (ht : text E (.arr vs) = .ok t) (hv : v ∈ vs) :
    ∃ u, text E v = .ok u := by
  obtain ⟨ts, hts, -⟩ := text_arr_ok.mp ht
  exact mapM_ok_mem (mapM_ok.mpr hts) hv

theorem exists_text_of_member {ms : List (List Char × JsonValue F)} (ht : text E (.obj ms) = .ok t) (hm : m ∈ ms) :
    ∃ u, text E m.2 = .ok u := by
  obtain ⟨ts, hts, -⟩ := text_obj_ok.mp ht
  obtain ⟨_, -, u, hu, -⟩ := exists_of_forall₂ hts.flip (mem_sortMembers.mpr hm)
  exact ⟨u, hu⟩

end Texts

/-! ## Well-formed texts -/

theorem hex4_control : ∀ n < 0x20, hex4 (unit '0') (unit '0') (unit (hexDigit (n / 16)))
    (unit (hexDigit n)) = some (UInt16.ofNat n) := by
  decide

theorem hexDigit_ascii (n : Nat) : (hexDigit n).toNat < 128 := by
  have h : ∀ m < 16, (Nat.digitChar m).toNat < 128 := by decide
  exact h (n % 16) (by omega)

/-- A character and what it is escaped to. -/
theorem chars_escapeChar (c : Char) : Chars (encode (escapeChar c)) (units c) := by
  have hshort : ∀ {e : Char} {n : Nat}, escaped (unit e) = some (UInt16.ofNat n) → e.toNat < 128 → c.toNat = n →
      n < 128 → Chars (encode ['\\', e]) (units c) := by
    intro e n he hascii hn hlt
    have hunits : units c = [UInt16.ofNat c.toNat] := if_pos (by omega)
    rw [encode_ascii (by simp [hascii]), hunits, hn]
    exact .short he .nil
  unfold escapeChar
  split
  iterate 7 next h => exact hshort rfl (by decide) h (by decide)
  next h1 h2 h3 h4 h5 hquote hslash =>
    split_ifs with hlow
    · have hunits : units c = [UInt16.ofNat c.toNat] := if_pos (by omega)
      rw [encode_ascii (by simp [hexDigit_ascii]), hunits]
      exact .hex (hex4_control _ hlow) .nil
    · rw [encode_cons, encode_nil, append_nil]
      refine chars_plain fun u hu => ?_
      have hu : 0x20 ≤ u.toNat ∧ u.toNat ≠ 0x22 ∧ u.toNat ≠ 0x5C := by
        by_cases hplane : c.toNat < 0x10000
        · rw [units, if_pos hplane, mem_singleton] at hu
          rw [hu, toNat_unit hplane]
          exact ⟨by omega, hquote, hslash⟩
        · obtain ⟨a, b, hab, ha, hb⟩ := units_of_le (c := c) (by omega)
          rw [hab] at hu
          simp only [mem_cons, not_mem_nil, or_false] at hu
          rcases hu with rfl | rfl <;> omega
      refine ⟨UInt16.le_iff_toNat_le.mpr hu.1, ?_, ?_⟩
      · rintro rfl
        exact hu.2.1 rfl
      · rintro rfl
        exact hu.2.2 rfl

theorem chars_escaped (s : List Char) : Chars (encode (s.flatMap escapeChar)) (encode s) := by
  induction s with
  | nil => exact .nil
  | cons c s ih =>
    rw [flatMap_cons, encode_append, encode_cons]
    exact (chars_escapeChar c).append ih

theorem encode_jcsString (s : List Char) :
    encode (jcsString s) = unit '"' :: (encode (s.flatMap Python.escapeChar) ++ [unit '"']) := by
  rw [jcsString, cons_append, encode_cons, encode_append]
  rfl

/-- Texts between a pair of ASCII characters, with commas. -/
theorem encode_between (o c : Char) (ho : o.toNat < 128) (hc : c.toNat < 128) (ts : List (List Char)) :
    encode (o :: List.intercalate [','] ts ++ [c]) =
      unit o :: (List.intercalate [unit ','] (ts.map encode) ++ [unit c]) := by
  rw [encode_enclosed, encode_ascii (by simpa using ho), encode_ascii (by simpa using hc)]
  rfl

section Derived

open JsonValue

variable {E : Floats F}

theorem isMember_of_memberText (h : MemberText E m t)
    (hvalue : ∀ u, text E m.2 = .ok u → Value (docOf E m.2) (encode u)) :
    IsMember (encode m.1, docOf E m.2) (encode t) := by
  obtain ⟨u, hu, rfl⟩ := h
  refine ⟨_, encode u, ?_, chars_escaped m.1, hvalue u hu⟩
  rw [encode_append, encode_jcsString, encode_cons, cons_append, append_assoc]
  rfl

theorem docOf_obj (ms : List (List Char × JsonValue F)) :
    docOf E (.obj ms) = .obj ((sortMembers ms).map fun m => (encode m.1, docOf E m.2)) := by
  rw [docOf, docMembers_eq, sortMembers_map, map_map]
  rfl

/-- The number of a value has the text of the value. -/
theorem printed_of_text {q : Rat} (hq : v.numeric E = some q) (ht : text E v = .ok t) :
    Python.Printed q t ∧ docOf E v = .num (t.map unit) := by
  cases v with
  | null | bool | str | arr | obj => cases hq
  | int n =>
    obtain rfl := Option.some.inj hq
    rw [text, toPython, jcsWrite] at ht
    refine ⟨printed_jcsInt ht, ?_⟩
    rw [docOf, (jcsInt_ok ht).1]
  | zero neg =>
    obtain rfl := Option.some.inj hq
    rw [text, toPython, jcsWrite] at ht
    obtain rfl := Except.ok.inj ht
    exact ⟨.inl ⟨rfl, rfl⟩, by rw [docOf]; rfl⟩
  | float x =>
    obtain rfl := Option.some.inj hq
    rw [text, toPython, jcsWrite, jcsNumber_finite] at ht
    obtain rfl := Except.ok.inj ht
    exact ⟨.inr ⟨_, rfl, rfl⟩, by rw [docOf]⟩

theorem value_of_numeric {q : Rat} (hq : v.numeric E = some q) (ht : text E v = .ok t) :
    Value (docOf E v) (encode t) := by
  obtain ⟨hprinted, hdoc⟩ := printed_of_text hq ht
  rw [hdoc, encode_ascii (ascii_of_literal (literal_printed hprinted))]
  exact .num (grammar_of_literal (literal_printed hprinted))

/-- **The text of a value is a text of the grammar.** -/
theorem value_docOf (v : JsonValue F) : ∀ {t : List Char}, text E v = .ok t → Value (docOf E v) (encode t) := by
  induction v using JsonValue.nested with
  | null =>
    intro t ht
    rw [text, toPython, jcsWrite] at ht
    obtain rfl := Except.ok.inj ht
    exact .null
  | bool b =>
    intro t ht
    rw [text, toPython, jcsWrite] at ht
    obtain rfl := Except.ok.inj ht
    cases b
    · exact .false
    · exact .true
  | str s =>
    intro t ht
    rw [text, toPython, jcsWrite] at ht
    obtain rfl := Except.ok.inj ht
    rw [encode_jcsString]
    exact .str (chars_escaped s)
  | int | zero | float => exact value_of_numeric rfl
  | arr vs ih =>
    intro t ht
    obtain ⟨ts, hts, rfl⟩ := text_arr_ok.mp ht
    rw [encode_between '[' ']' (by decide) (by decide), docOf, docItems_eq]
    refine value_arr (forall₂_map_left_iff.mpr (forall₂_map_right_iff.mpr ?_))
    exact forall₂_imp_mem hts fun v hv _ h => ih v hv h
  | obj ms ih =>
    intro t ht
    obtain ⟨ts, hts, rfl⟩ := text_obj_ok.mp ht
    rw [encode_between '{' '}' (by decide) (by decide), docOf_obj]
    refine value_obj (forall₂_map_left_iff.mpr (forall₂_map_right_iff.mpr ?_))
    exact forall₂_imp_mem hts fun m hm _ h => isMember_of_memberText h fun _ hu => ih m (mem_sortMembers.mp hm) hu

end Derived

end SeamSdk
