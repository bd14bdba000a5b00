import SeamSdk.Sdk.Jcs

/-!
# One canonical text in Python and TypeScript

- Numbers: `repr` and `Decimal` recover the digits of a double (`decimalTuple_floatRepr`), and Python's cascade over the
  place of the point is that of ECMA-262 (`jcsNumber_finite`). Integers follow (`jcsBigInt_eq`).
- Strings are escaped alike (`stringify_encode`), and the bytes Python sorts keys by are ordered as the units TypeScript
  sorts them by (`map_sortMembers`).
- By induction on a value, TypeScript writes the units of what Python writes (`jcsWrite_toTypeScript`), and the text does
  not depend on the order of the members (`text_eq_of_same`).
- `canonical_bytes_agree` puts these together.
-/

namespace SeamSdk

open ByteCodec Comparison Decimal Utf16 List

variable {F : Type}

/-! ## Numbers -/

/-- Digits before the point, digits behind it, and an exponent. -/
theorem decimalTuple_eq (int frac tail : List Char) (hint : int.all Char.isDigit = true)
    (hfrac : frac.all Char.isDigit = true) (htail : ∀ c ∈ tail.head?, c = 'e') :
    Python.decimalTuple (int ++ (if frac = [] then [] else '.' :: frac) ++ tail) =
      (Python.lstripZeros (int ++ frac), Python.exponentOf tail - frac.length) := by
  have htail' : ∀ c ∈ tail.head?, c.isDigit = false := by
    intro c hc
    rw [htail c hc]
    rfl
  have hpoint : tail.head? ≠ some '.' := by
    intro h
    exact absurd (htail '.' h) (by decide)
  unfold Python.decimalTuple
  by_cases hnil : frac = []
  · subst hnil
    obtain ⟨hhead, hrest⟩ := takeWhile_digits hint htail'
    simp [hhead, hrest, if_neg hpoint]
  · have hdot : ∀ c ∈ ('.' :: (frac ++ tail)).head?, c.isDigit = false := by
      simp
    obtain ⟨hhead, hrest⟩ := takeWhile_digits hint hdot
    obtain ⟨hhead', hrest'⟩ := takeWhile_digits hfrac htail'
    simp [if_neg hnil, hhead, hrest, List.head?_cons, hhead', hrest']

section Digits

variable (d : Decimal)

theorem lstripZeros_digits (z : Nat) (tail : List Char) :
    Python.lstripZeros (List.replicate z '0' ++ d.digits ++ tail) = d.digits ++ tail := by
  have hzeros : ∀ c ∈ List.replicate z '0', decide (c = '0') = true := fun c hc =>
    decide_eq_true (eq_of_mem_replicate hc)
  have hdrop : (List.replicate z '0' ++ d.digits ++ tail).dropWhile (· = '0') = d.digits ++ tail := by
    rw [append_assoc, dropWhile_append_of_pos hzeros]
    have hhead := d.head_ne
    cases hd : d.digits with
    | nil => exact absurd hd d.ne_nil
    | cons c ds =>
      rw [hd, List.head?_cons, ne_eq, Option.some.injEq] at hhead
      rw [cons_append, dropWhile_cons_of_neg (by simpa using hhead)]
  rw [Python.lstripZeros, hdrop, if_neg (by simp [d.ne_nil])]

theorem rstripZeros_digits (z : Nat) : Python.rstripZeros (d.digits ++ List.replicate z '0') = d.digits := by
  have hzeros : ∀ c ∈ List.replicate z '0', decide (c = '0') = true := fun c hc =>
    decide_eq_true (eq_of_mem_replicate hc)
  have hlast := d.last_ne
  rw [Python.rstripZeros, reverse_append, reverse_replicate, dropWhile_append_of_pos hzeros]
  cases hd : d.digits.reverse with
  | nil => exact absurd (reverse_eq_nil_iff.mp hd) d.ne_nil
  | cons c ds =>
    rw [List.getLast?_eq_head?_reverse, hd, List.head?_cons, ne_eq, Option.some.injEq] at hlast
    rw [dropWhile_cons_of_neg (by simpa using hlast), ← hd, reverse_reverse]

theorem natOf_twoDigits (e : List Char) : Decimal.natOf (Python.twoDigits e) = Decimal.natOf e := by
  unfold Python.twoDigits
  split
  · rfl
  · rfl

theorem exponentOf_repr (n : Int) :
    Python.exponentOf ('e' :: (if n < 0 then '-' else '+') :: Python.twoDigits (Decimal.natText n.natAbs)) = n := by
  have hnat := (natOf_twoDigits (Decimal.natText n.natAbs)).trans (natOf_natText n.natAbs)
  split
  · rw [Python.exponentOf, hnat]
    omega
  · rw [Python.exponentOf, hnat]
    omega

theorem lstripZeros_self : Python.lstripZeros d.digits = d.digits := by
  have h := lstripZeros_digits d 0 []
  rwa [replicate_zero, nil_append, append_nil] at h

/-! The four forms `repr` has. -/

theorem decimalTuple_small (m : Nat) : Python.decimalTuple ('0' :: '.' :: (List.replicate m '0' ++ d.digits)) =
    (d.digits, -((m + d.digits.length : Nat) : Int)) := by
  have hfrac : (List.replicate m '0' ++ d.digits).all Char.isDigit = true := by
    rw [all_append, all_replicate_zero, d.allDigits]
    rfl
  have h := decimalTuple_eq ['0'] (List.replicate m '0' ++ d.digits) [] rfl hfrac (by simp)
  have hzeros : ['0'] ++ (List.replicate m '0' ++ d.digits) = List.replicate (m + 1) '0' ++ d.digits ++ [] := by
    simp [replicate_succ]
  rw [if_neg (by simp [d.ne_nil]), append_nil, hzeros, lstripZeros_digits, append_nil] at h
  rw [singleton_append] at h
  rw [h]
  simp [Python.exponentOf]

theorem decimalTuple_whole (m : Nat) : Python.decimalTuple (d.digits ++ List.replicate m '0' ++ ['.', '0']) =
    (d.digits ++ List.replicate (m + 1) '0', -1) := by
  have hint : (d.digits ++ List.replicate m '0').all Char.isDigit = true := by
    rw [all_append, all_replicate_zero, d.allDigits]
    rfl
  have h := decimalTuple_eq (d.digits ++ List.replicate m '0') ['0'] [] hint rfl (by simp)
  have hzeros : d.digits ++ List.replicate m '0' ++ ['0'] =
      List.replicate 0 '0' ++ d.digits ++ List.replicate (m + 1) '0' := by
    simp [replicate_succ']
  rw [if_neg (by simp), append_nil, hzeros, lstripZeros_digits] at h
  exact h

theorem decimalTuple_mixed {i : Nat} (hi : i < d.digits.length) :
    Python.decimalTuple (d.digits.take i ++ '.' :: d.digits.drop i) =
      (d.digits, -((d.digits.length - i : Nat) : Int)) := by
  obtain ⟨hint, hfrac⟩ := all_take_drop d.allDigits i
  have h := decimalTuple_eq (d.digits.take i) (d.digits.drop i) [] hint hfrac (by simp)
  have hne : d.digits.drop i ≠ [] := by
    rw [ne_eq, drop_eq_nil_iff]
    omega
  rw [if_neg hne, append_nil, take_append_drop, lstripZeros_self] at h
  rw [h]
  simp [Python.exponentOf]

theorem decimalTuple_exponent (e : List Char) : Python.decimalTuple (Decimal.mantissa d.digits ++ 'e' :: e) =
    (d.digits, Python.exponentOf ('e' :: e) - ((d.digits.length - 1 : Nat) : Int)) := by
  obtain ⟨hint, hfrac⟩ := all_take_drop d.allDigits 1
  have h := decimalTuple_eq (d.digits.take 1) (d.digits.drop 1) ('e' :: e) hint hfrac (by simp)
  rwa [take_append_drop, lstripZeros_self, ← mantissa_eq, length_drop] at h

/-- `repr` and `Decimal` give the digits, perhaps with zeros behind them, and the exponent that goes with these. -/
theorem decimalTuple_floatRepr : ∃ z : Nat, Python.decimalTuple (Python.floatRepr d) =
    (d.digits ++ List.replicate z '0', d.point - d.digits.length - z) := by
  have hlen := length_pos_iff.mpr d.ne_nil
  unfold Python.floatRepr
  dsimp only
  by_cases hfixed : -4 < d.point ∧ d.point ≤ 16
  · rw [if_pos hfixed]
    split_ifs with hsmall hwhole
    · refine ⟨0, ?_⟩
      rw [cons_append, cons_append, decimalTuple_small, replicate_zero, append_nil, Prod.mk.injEq]
      exact ⟨rfl, by omega⟩
    · refine ⟨(d.point - d.digits.length).toNat + 1, ?_⟩
      rw [decimalTuple_whole, Prod.mk.injEq]
      exact ⟨rfl, by omega⟩
    · refine ⟨0, ?_⟩
      rw [decimalTuple_mixed d (by omega), replicate_zero, append_nil, Prod.mk.injEq]
      exact ⟨rfl, by omega⟩
  · refine ⟨0, ?_⟩
    rw [if_neg hfixed, decimalTuple_exponent, exponentOf_repr, replicate_zero, append_nil, Prod.mk.injEq]
    exact ⟨rfl, by omega⟩

/-- The digits are put into the form of ECMA-262, whatever zeros stand behind them. -/
theorem jcsNumberText_digits (z : Nat) :
    Python.jcsNumberText d.neg (d.digits ++ List.replicate z '0') (d.point - d.digits.length - z) = d.toText := by
  have hne := d.ne_nil
  have hn : ((d.digits.length : Int) + (d.point - d.digits.length - z +
      ((d.digits.length + z : Nat) - d.digits.length))) = d.point := by
    omega
  have hk : (1 < (d.digits.length : Int)) ↔ 1 < d.digits.length := by
    omega
  have hsign : (0 ≤ d.point - 1) ↔ 0 < d.point := by
    omega
  unfold Python.jcsNumberText Decimal.toText Decimal.mantissa
  simp only [rstripZeros_digits, if_neg hne, length_append, length_replicate, hn, hk, hsign]
  congr 1
  -- the conditions of the two cascades select the same branch
  split_ifs <;> first | rfl | omega

end Digits

/-- **Python writes a float as ECMA-262 does.** -/
theorem jcsNumber_finite (E : Floats F) (x : F) : Python.jcsNumber E (.finite x) = .ok (E.shortest x).toText := by
  obtain ⟨z, htuple⟩ := decimalTuple_floatRepr (E.shortest x)
  rw [Python.jcsNumber, htuple, jcsNumberText_digits]

/-- An integer is refused or printed alike. -/
theorem jcsBigInt_eq (E : Floats F) (n : Int) : TypeScript.jcsBigInt E n = (Python.jcsInt E n).map encode := by
  unfold TypeScript.jcsBigInt Python.jcsInt TypeScript.numberToString
  dsimp only
  by_cases hsafe : -maxSafe ≤ n ∧ n ≤ maxSafe
  · rw [if_pos hsafe, if_pos hsafe.symm]
    rfl
  · rw [if_neg hsafe, if_neg (mt And.symm hsafe)]
    cases E.ofInt n with
    | none => rfl
    | some x =>
      dsimp only
      rw [jcsNumber_finite]
      by_cases htext : (E.shortest x).toText ≠ Decimal.intText n
      · simp only [bind, Except.bind, if_pos htext]
        rfl
      · simp only [bind, Except.bind, if_neg htext]
        rfl

/-! ## Strings -/

/-- A control character is escaped by its two low digits. -/
theorem unicodeEscape_control {n : Nat} (h : n < 0x20) : TypeScript.unicodeEscape (UInt16.ofNat n) =
    encode ['\\', 'u', '0', '0', Python.hexDigit (n / 16), Python.hexDigit n] := by
  have hn : (UInt16.ofNat n).toNat = n := UInt16.toNat_ofNat_of_lt' (by show n < 65536; omega)
  have h3 : n / 4096 = 0 := by omega
  have h2 : n / 256 = 0 := by omega
  unfold TypeScript.unicodeEscape TypeScript.hexUnit TypeScript.ascii
  rw [hn, h3, h2]
  simp only [← encode_append]
  rfl

theorem quotePoint_scalar (c : Char) : TypeScript.quotePoint (.scalar c) = encode (Python.escapeChar c) := by
  unfold TypeScript.quotePoint Python.escapeChar
  dsimp only
  split_ifs with h1 h2 h3 h4 h5 h6 h7 h8
  · rw [h1]; rfl
  · rw [h2]; rfl
  · rw [h3]; rfl
  · rw [h4]; rfl
  · rw [h5]; rfl
  · rw [h6]; rfl
  · rw [h7]; rfl
  · split
    all_goals first | omega | rw [if_pos h8, unicodeEscape_control h8]
  · split
    all_goals first | omega | rw [if_neg h8, encode_cons, encode_nil, append_nil]

theorem stringify_encode (s : List Char) : TypeScript.stringify (encode s) = encode (Python.jcsString s) := by
  unfold TypeScript.stringify Python.jcsString
  have hbody : (s.map Utf16.Point.scalar).flatMap TypeScript.quotePoint =
      encode (s.flatMap Python.escapeChar) := by
    induction s with
    | nil => rfl
    | cons c s ih =>
      rw [map_cons, flatMap_cons, flatMap_cons, encode_append, ih, quotePoint_scalar]
  rw [points_encode, hbody, cons_append, encode_cons, encode_append]
  rfl

/-! ## Values of both languages -/

/-- A JSON value, with integers apart from doubles and the members of an object in the order they were inserted. -/
inductive JsonValue (F : Type)
  | null
  | bool (b : Bool)
  | str (s : List Char)
  | int (n : Int)
  | zero (neg : Bool)
  | float (x : F)
  | arr (items : List (JsonValue F))
  | obj (members : List (List Char × JsonValue F))

namespace JsonValue

mutual

def toPython : JsonValue F → Python.Value F
  | .null => .none
  | .bool b => .bool b
  | .str s => .str s
  | .int n => .int n
  | .zero neg => .float (.zero neg)
  | .float x => .float (.finite x)
  | .arr items => .list (toPythonItems items)
  | .obj members => .dict (toPythonMembers members)

def toPythonItems : List (JsonValue F) → List (Python.Value F)
  | [] => []
  | v :: vs => toPython v :: toPythonItems vs

def toPythonMembers : List (List Char × JsonValue F) → List (Python.Key × Python.Value F)
  | [] => []
  | (k, v) :: ms => (.str k, toPython v) :: toPythonMembers ms

end

/-- An object literal. -/
def plain : TypeScript.Shape := ⟨1, "Object", "Object"⟩

mutual

def toTypeScript : JsonValue F → TypeScript.Value F
  | .null => .null
  | .bool b => .bool b
  | .str s => .string (encode s)
  | .int n => .bigint n
  | .zero neg => .number (.zero neg)
  | .float x => .number (.finite x)
  | .arr items => .array (toTypeScriptItems items)
  | .obj members => .object plain (toTypeScriptMembers members)

def toTypeScriptItems : List (JsonValue F) → List (Option (TypeScript.Value F))
  | [] => []
  | v :: vs => some (toTypeScript v) :: toTypeScriptItems vs

def toTypeScriptMembers : List (List Char × JsonValue F) → List (List UInt16 × TypeScript.Value F)
  | [] => []
  | (k, v) :: ms => (encode k, toTypeScript v) :: toTypeScriptMembers ms

end

/-- The text of a value, as Python writes it. -/
def text (E : Floats F) (v : JsonValue F) : Except String (List Char) := Python.jcsWrite E v.toPython

/-- The members with the texts of their values. -/
def texts (E : Floats F) (ms : List (List Char × JsonValue F)) : List (List Char × Except String (List Char)) :=
  ms.map fun m => (m.1, text E m.2)

end JsonValue

/-! ## The members of an object -/

theorem map_sortMembers {α β : Type} (f : α → β) (ms : List (List Char × α)) :
    (Python.sortMembers ms).map (fun m => (encode m.1, f m.2)) =
      TypeScript.sortMembers (ms.map fun m => (encode m.1, f m.2)) := by
  unfold Python.sortMembers TypeScript.sortMembers sortLess
  apply map_insertionSort
  intro a _ b _
  rw [decide_eq_false_iff_not, decide_eq_false_iff_not, Python.utf16be, Python.utf16be, beBytes_lt]

theorem encode_intercalate (ts : List (List Char)) : encode (List.intercalate [','] ts) =
    List.intercalate (TypeScript.ascii ",") (ts.map encode) := by
  match ts with
  | [] => rfl
  | [t] => simp
  | t :: u :: ts =>
    have ih := encode_intercalate (u :: ts)
    rw [map_cons, map_cons, intercalate_cons_cons, intercalate_cons_cons, encode_append,
      encode_append, ih, map_cons]
    rfl

theorem encode_enclosed (o c : Char) (ts : List (List Char)) : encode (o :: List.intercalate [','] ts ++ [c]) =
      encode [o] ++ List.intercalate (TypeScript.ascii ",") (ts.map encode) ++ encode [c] := by
  simp [encode_append, encode_cons, encode_intercalate, encode_nil]

/-- A loop over images, where each step gives the image of what it gives for the item itself. -/
theorem mapM_map {α β γ δ ε : Type} {f : α → Except ε γ} {f' : β → Except ε δ} {g : α → β} {h : γ → δ}
    (hstep : ∀ a, f' (g a) = (f a).map h) (l : List α) : (l.map g).mapM f' = (l.mapM f).map (List.map h) := by
  induction l with
  | nil => rfl
  | cons a l ih =>
    rw [map_cons, mapM_cons, mapM_cons, hstep, ih]
    cases f a with
    | error e => rfl
    | ok c =>
      cases l.mapM f with
      | error e => rfl
      | ok cs => rfl

section Agree

open JsonValue

variable (E : Floats F)

theorem jcsItems_toPython (vs : List (JsonValue F)) : Python.jcsItems E (toPythonItems vs) = vs.mapM (text E) := by
  induction vs with
  | nil => simp [toPythonItems, Python.jcsItems, pure, Except.pure]
  | cons v vs ih =>
    rw [toPythonItems, Python.jcsItems, ih, mapM_cons]
    rfl

theorem jcsMembers_toPython (ms : List (List Char × JsonValue F)) :
    Python.jcsMembers E (toPythonMembers ms) = .ok (texts E ms) := by
  induction ms with
  | nil => simp [toPythonMembers, Python.jcsMembers, texts]
  | cons m ms ih =>
    obtain ⟨k, v⟩ := m
    rw [toPythonMembers, Python.jcsMembers, ih]
    rfl

theorem text_arr (vs : List (JsonValue F)) : text E (.arr vs) = (vs.mapM (text E)).map fun ts =>
    '[' :: List.intercalate [','] ts ++ [']'] := by
  rw [text, toPython, Python.jcsWrite, jcsItems_toPython]
  cases vs.mapM (text E) <;> rfl

theorem text_obj (ms : List (List Char × JsonValue F)) :
    text E (.obj ms) = ((Python.sortMembers (texts E ms)).mapM Python.jcsMember).map fun ts =>
      '{' :: List.intercalate [','] ts ++ ['}'] := by
  rw [text, toPython, Python.jcsWrite, jcsMembers_toPython]
  show (((Python.sortMembers (texts E ms)).mapM Python.jcsMember) >>= _) = _
  cases (Python.sortMembers (texts E ms)).mapM Python.jcsMember <;> rfl

theorem jcsMember_encode (m : List Char × Except String (List Char)) :
    TypeScript.jcsMember (encode m.1, m.2.map encode) = (Python.jcsMember m).map encode := by
  rw [TypeScript.jcsMember, hasLone_encode, if_neg Bool.false_ne_true, stringify_encode, Python.jcsMember]
  cases m.2 with
  | error e => rfl
  | ok t =>
    show Except.ok _ = Except.ok _
    rw [encode_append, encode_cons, append_assoc]
    rfl

mutual

/-- **TypeScript writes the units of what Python writes.** -/
theorem jcsWrite_toTypeScript : ∀ v : JsonValue F,
    TypeScript.jcsWrite E v.toTypeScript = (text E v).map encode
  | .null | .zero _ => by rw [toTypeScript, TypeScript.jcsWrite, text, toPython, Python.jcsWrite]; rfl
  | .bool b => by cases b <;> rw [toTypeScript, TypeScript.jcsWrite, text, toPython, Python.jcsWrite] <;> rfl
  | .str s => by
    rw [toTypeScript, TypeScript.jcsWrite, hasLone_encode, if_neg Bool.false_ne_true, stringify_encode, text,
      toPython, Python.jcsWrite]
    rfl
  | .int n => by rw [toTypeScript, TypeScript.jcsWrite, jcsBigInt_eq, text, toPython, Python.jcsWrite]
  | .float x => by
    rw [toTypeScript, TypeScript.jcsWrite, text, toPython, Python.jcsWrite, jcsNumber_finite]
    rfl
  | .arr vs => by
    rw [toTypeScript, TypeScript.jcsWrite, jcsSlots_toTypeScript vs, text_arr]
    cases vs.mapM (text E) with
    | error e => rfl
    | ok ts => exact congrArg Except.ok (encode_enclosed '[' ']' ts).symm
  | .obj ms => by
    have hplain : TypeScript.isPlainObject plain = true := rfl
    rw [toTypeScript, TypeScript.jcsWrite, if_pos hplain, jcsMembers_toTypeScript ms, ← map_sortMembers,
      mapM_map jcsMember_encode, text_obj]
    cases (Python.sortMembers (texts E ms)).mapM Python.jcsMember with
    | error e => rfl
    | ok ts => exact congrArg Except.ok (encode_enclosed '{' '}' ts).symm

theorem jcsSlots_toTypeScript : ∀ vs : List (JsonValue F),
    TypeScript.jcsSlots E (toTypeScriptItems vs) = (vs.mapM (text E)).map (List.map encode)
  | [] => by rw [toTypeScriptItems, TypeScript.jcsSlots]; rfl
  | v :: vs => by
    rw [toTypeScriptItems, TypeScript.jcsSlots, jcsWrite_toTypeScript v, jcsSlots_toTypeScript vs, mapM_cons]
    cases text E v with
    | error e => rfl
    | ok t => cases vs.mapM (text E) <;> rfl

theorem jcsMembers_toTypeScript : ∀ ms : List (List Char × JsonValue F),
    TypeScript.jcsMembers E (toTypeScriptMembers ms) =
      (texts E ms).map fun m => (encode m.1, m.2.map encode)
  | [] => by rw [toTypeScriptMembers, TypeScript.jcsMembers]; rfl
  | (k, v) :: ms => by
    rw [toTypeScriptMembers, TypeScript.jcsMembers, jcsWrite_toTypeScript v, jcsMembers_toTypeScript ms]
    rfl

end

theorem jcsCanonicalize_toTypeScript (v : JsonValue F) :
    TypeScript.jcsCanonicalize E v.toTypeScript = Python.jcsCanonicalize E v.toPython := by
  rw [TypeScript.jcsCanonicalize, jcsWrite_toTypeScript, Python.jcsCanonicalize]
  show ((text E v).map encode >>= _) = (text E v >>= _)
  cases text E v with
  | error e => rfl
  | ok t =>
    show Except.ok _ = Except.ok _
    rw [decodeLossy_encode]

end Agree

/-! ## The order of the members -/

namespace JsonValue

mutual

/-- The same value, with the members of its objects in any order. -/
def Same : JsonValue F → JsonValue F → Prop
  | .arr vs, w => ∃ ws, w = .arr ws ∧ SameItems vs ws
  | .obj ms, w => ∃ ns ns', w = .obj ns ∧ ns'.Perm ns ∧ SameMembers ms ns'
  | .null, w => w = .null
  | .bool b, w => w = .bool b
  | .str s, w => w = .str s
  | .int n, w => w = .int n
  | .zero neg, w => w = .zero neg
  | .float x, w => w = .float x

def SameItems : List (JsonValue F) → List (JsonValue F) → Prop
  | [], ws => ws = []
  | v :: vs, ws => ∃ w ws', ws = w :: ws' ∧ Same v w ∧ SameItems vs ws'

def SameMembers : List (List Char × JsonValue F) → List (List Char × JsonValue F) → Prop
  | [], ns => ns = []
  | (k, v) :: ms, ns => ∃ w ns', ns = (k, w) :: ns' ∧ Same v w ∧ SameMembers ms ns'

end

mutual

/-- No object has two members of one key. -/
def Distinct : JsonValue F → Prop
  | .arr vs => DistinctItems vs
  | .obj ms => (ms.map Prod.fst).Nodup ∧ DistinctMembers ms
  | _ => True

def DistinctItems : List (JsonValue F) → Prop
  | [] => True
  | v :: vs => Distinct v ∧ DistinctItems vs

def DistinctMembers : List (List Char × JsonValue F) → Prop
  | [] => True
  | (_, v) :: ms => Distinct v ∧ DistinctMembers ms

end

end JsonValue

section Order

open JsonValue

variable (E : Floats F)

theorem utf16be_injective : Function.Injective Python.utf16be := by
  intro k l h
  have hnot : ∀ a b : List Char, Python.utf16be a = Python.utf16be b → ¬encode a < encode b := by
    intro a b hab hlt
    have hbytes : Python.utf16be a < Python.utf16be b := beBytes_lt.mpr hlt
    rw [hab] at hbytes
    exact List.lt_irrefl _ hbytes
  apply encode_injective
  exact List.le_antisymm (List.not_lt.mp (hnot l k h.symm)) (List.not_lt.mp (hnot k l h))

/-- Members with distinct keys are sorted alike from any order. -/
theorem sortMembers_eq_of_perm {α : Type} {ms ns : List (List Char × α)} (hkeys : (ms.map Prod.fst).Nodup)
    (hp : ms.Perm ns) : Python.sortMembers ms = Python.sortMembers ns := by
  refine (compareBytes_lawful.comap utf16be_injective).sortLess_key_eq_of_perm ?_ hkeys hp
  intro a b
  rw [decide_eq_true_iff, compareBytes_neg_iff]

theorem map_fst_texts (ms : List (List Char × JsonValue F)) : (texts E ms).map Prod.fst = ms.map Prod.fst := by
  rw [texts, map_map]
  rfl

mutual

theorem text_eq_of_same : ∀ {v w : JsonValue F}, v.Distinct → v.Same w → text E v = text E w
  | .arr vs, w, hd, h => by
    rw [Same] at h
    obtain ⟨ws, rfl, hsame⟩ := h
    rw [Distinct] at hd
    rw [text_arr, text_arr, mapM_eq_of_same hd hsame]
  | .obj ms, w, hd, h => by
    rw [Same] at h
    obtain ⟨ns, ns', rfl, hp, hsame⟩ := h
    rw [Distinct] at hd
    have htexts := texts_eq_of_same hd.2 hsame
    have hkeys : ((texts E ns').map Prod.fst).Nodup := by
      rw [← htexts, map_fst_texts]
      exact hd.1
    rw [text_obj, text_obj, htexts, sortMembers_eq_of_perm hkeys (hp.map _)]
    rfl
  | .null, w, _, h | .bool _, w, _, h | .str _, w, _, h | .int _, w, _, h | .zero _, w, _, h | .float _, w, _, h => by
    rw [Same] at h
    rw [h]

theorem mapM_eq_of_same : ∀ {vs ws : List (JsonValue F)}, DistinctItems vs → SameItems vs ws →
    vs.mapM (text E) = ws.mapM (text E)
  | [], ws, _, h => by rw [SameItems] at h; rw [h]
  | v :: vs, ws, hd, h => by
    rw [SameItems] at h
    obtain ⟨w, ws', rfl, hv, hvs⟩ := h
    rw [DistinctItems] at hd
    rw [mapM_cons, mapM_cons, text_eq_of_same hd.1 hv, mapM_eq_of_same hd.2 hvs]

theorem texts_eq_of_same : ∀ {ms ns : List (List Char × JsonValue F)}, DistinctMembers ms → SameMembers ms ns →
    texts E ms = texts E ns
  | [], ns, _, h => by rw [SameMembers] at h; rw [h]
  | (k, v) :: ms, ns, hd, h => by
    rw [SameMembers] at h
    obtain ⟨w, ns', rfl, hv, hms⟩ := h
    rw [DistinctMembers] at hd
    have hrest := texts_eq_of_same hd.2 hms
    rw [texts, texts, map_cons, map_cons, ← texts, ← texts, hrest, text_eq_of_same hd.1 hv]

end

end Order

/-- **Main result.** Python and TypeScript refuse a value with the same message or give the same bytes for it, and these
do not depend on the order its members were inserted in. -/
theorem canonical_bytes_agree (E : Floats F) (v : JsonValue F) :
    TypeScript.jcsCanonicalize E v.toTypeScript = Python.jcsCanonicalize E v.toPython ∧
    ∀ w, v.Distinct → v.Same w →
      Python.jcsCanonicalize E w.toPython = Python.jcsCanonicalize E v.toPython ∧
      TypeScript.jcsCanonicalize E w.toTypeScript = TypeScript.jcsCanonicalize E v.toTypeScript := by
  refine ⟨jcsCanonicalize_toTypeScript E v, fun w hd hsame => ?_⟩
  have hpython : Python.jcsCanonicalize E w.toPython = Python.jcsCanonicalize E v.toPython := by
    rw [Python.jcsCanonicalize, Python.jcsCanonicalize]
    show (JsonValue.text E w >>= _) = (JsonValue.text E v >>= _)
    rw [text_eq_of_same E hd hsame]
  rw [jcsCanonicalize_toTypeScript, jcsCanonicalize_toTypeScript]
  exact ⟨hpython, hpython⟩

/-- Doubles given by their digits, none of which is an integer past the safe ones. -/
def decimals : Floats Decimal := ⟨id, fun _ => none⟩

def half : Decimal := ⟨false, ['5'], 0, rfl, by decide, by decide, by decide⟩

theorem canonical_bytes_agree_swapped :
    Python.jcsCanonicalize decimals (JsonValue.obj [(['b'], .int 1), (['a'], .float half)]).toPython =
      .ok (utf8 "\x7b\"a\":0.5,\"b\":1\x7d") ∧
    TypeScript.jcsCanonicalize decimals (JsonValue.obj [(['a'], .float half), (['b'], .int 1)]).toTypeScript =
      TypeScript.jcsCanonicalize decimals (JsonValue.obj [(['b'], .int 1), (['a'], .float half)]).toTypeScript := by
  have hd : (JsonValue.obj [(['b'], .int 1), (['a'], .float half)] : JsonValue Decimal).Distinct := by
    simp [JsonValue.Distinct, JsonValue.DistinctMembers]
  have hsame : (JsonValue.obj [(['b'], .int 1), (['a'], .float half)]).Same
      (.obj [(['a'], .float half), (['b'], .int 1)]) := by
    rw [JsonValue.Same]
    refine ⟨_, [(['b'], .int 1), (['a'], .float half)], rfl, List.Perm.swap _ _ _, ?_⟩
    simp [JsonValue.SameMembers, JsonValue.Same]
  exact ⟨rfl, ((canonical_bytes_agree decimals _).2 _ hd hsame).2⟩

end SeamSdk
