import SeamSdk.Lib.Utf16
import Mathlib.Data.List.Nodup

/-!
# The grammar of JSON texts

The grammar of RFC 8259 over UTF-16 units, where a text is not read but derived: `Value d t` says that the text `t` is
derived as a value, and that it stands for the document `d`. Blanks may stand around every value, every key and every
structural character. A string stands for its units after unescaping (`Chars`), and `readString` finds them again
(`readString_chars`).

`Doc.Repeats` says that some object of a document has a key twice, at any depth; `Doc.repeats` decides it
(`repeats_iff`).
-/

namespace JsonGrammar

open List

/-- The unit of an ASCII character. -/
def unit (c : Char) : UInt16 := UInt16.ofNat c.toNat

def ascii (s : String) : List UInt16 := s.toList.map unit

theorem unit_eq_iff {c q : Char} (hc : c.toNat < 0x10000) (hq : q.toNat < 0x10000) : unit c = unit q ↔ c = q := by
  constructor
  · intro h
    have hnat := congrArg UInt16.toNat h
    rw [unit, unit, Utf16.toNat_unit hc, Utf16.toNat_unit hq] at hnat
    exact Char.toNat_inj.mp hnat
  · intro h
    rw [h]

theorem encode_ascii {t : List Char} (h : ∀ c ∈ t, c.toNat < 128) : Utf16.encode t = t.map unit := by
  induction t with
  | nil => rfl
  | cons c t ih =>
    have hc := h c mem_cons_self
    have hunits : Utf16.units c = [unit c] := if_pos (by omega)
    rw [Utf16.encode_cons, ih fun c hc => h c (mem_cons_of_mem _ hc), hunits]
    rfl

theorem unit_mem_map {t : List Char} (ht : ∀ c ∈ t, c.toNat < 128) {c : Char} (hc : c.toNat < 128) :
    unit c ∈ t.map unit ↔ c ∈ t := by
  refine ⟨fun h => ?_, mem_map_of_mem⟩
  obtain ⟨e, he, heq⟩ := mem_map.mp h
  have hlt := ht e he
  rwa [← (unit_eq_iff (by omega) (by omega)).mp heq]

/-! ## Documents -/

/-- What a text stands for. A number is kept as it is written. -/
inductive Doc
  | null
  | bool (b : Bool)
  | num (text : List UInt16)
  | str (us : List UInt16)
  | arr (items : List Doc)
  | obj (members : List (List UInt16 × Doc))

namespace Doc

/-- Some object of the document has a key twice. -/
inductive Repeats : Doc → Prop
  | here {ms : List (List UInt16 × Doc)} : ¬(ms.map Prod.fst).Nodup → Repeats (.obj ms)
  | item {d : Doc} {ds : List Doc} : d ∈ ds → Repeats d → Repeats (.arr ds)
  | member {m : List UInt16 × Doc} {ms : List (List UInt16 × Doc)} : m ∈ ms → Repeats m.2 → Repeats (.obj ms)

mutual

def repeats : Doc → Bool
  | .arr ds => repeatsItems ds
  | .obj ms => repeatsMembers [] ms
  | _ => false

def repeatsItems : List Doc → Bool
  | [] => false
  | d :: ds => repeats d || repeatsItems ds

/-- Whether a key is among those seen before, or a member repeats one. -/
def repeatsMembers (seen : List (List UInt16)) : List (List UInt16 × Doc) → Bool
  | [] => false
  | (k, d) :: ms => decide (k ∈ seen) || (repeats d || repeatsMembers (k :: seen) ms)

end

theorem not_nodup_cons_iff {α : Type} (seen : List α) (k : α) (ks : List α) :
    (¬(k :: ks).Nodup ∨ ∃ k' ∈ k :: ks, k' ∈ seen) ↔ k ∈ seen ∨ ¬ks.Nodup ∨ ∃ k' ∈ ks, k' ∈ k :: seen := by
  simp only [nodup_cons, mem_cons, exists_eq_or_imp, not_and_or, not_not]
  constructor
  · rintro ((hk | hks) | hk | ⟨k', hk', hseen⟩)
    · exact .inr (.inr ⟨k, hk, .inl rfl⟩)
    · exact .inr (.inl hks)
    · exact .inl hk
    · exact .inr (.inr ⟨k', hk', .inr hseen⟩)
  · rintro (hk | hks | ⟨k', hk', rfl | hseen⟩)
    · exact .inr (.inl hk)
    · exact .inl (.inr hks)
    · exact .inl (.inl hk')
    · exact .inr (.inr ⟨k', hk', hseen⟩)

mutual

/-- **The decision is exact.** -/
theorem repeats_iff : ∀ d : Doc, d.repeats = true ↔ d.Repeats
  | .null | .bool _ | .num _ | .str _ => by
    constructor
    · intro h
      simp [repeats] at h
    · intro h
      cases h
  | .arr ds => by
    rw [repeats, repeatsItems_iff]
    constructor
    · rintro ⟨d, hd, h⟩
      exact .item hd h
    · intro h
      cases h with
      | item hd h => exact ⟨_, hd, h⟩
  | .obj ms => by
    rw [repeats, repeatsMembers_iff]
    constructor
    · rintro (h | ⟨k, -, hk⟩ | ⟨m, hm, h⟩)
      · exact .here h
      · cases hk
      · exact .member hm h
    · intro h
      cases h with
      | here h => exact .inl h
      | member hm h => exact .inr (.inr ⟨_, hm, h⟩)

theorem repeatsItems_iff : ∀ ds : List Doc, repeatsItems ds = true ↔ ∃ d ∈ ds, d.Repeats
  | [] => by simp [repeatsItems]
  | d :: ds => by simp [repeatsItems, repeats_iff d, repeatsItems_iff ds]

theorem repeatsMembers_iff (seen : List (List UInt16)) : ∀ ms : List (List UInt16 × Doc),
    repeatsMembers seen ms = true ↔
      ¬(ms.map Prod.fst).Nodup ∨ (∃ k ∈ ms.map Prod.fst, k ∈ seen) ∨ ∃ m ∈ ms, m.2.Repeats
  | [] => by simp [repeatsMembers]
  | (k, d) :: ms => by
    have hfresh := not_nodup_cons_iff seen k (ms.map Prod.fst)
    have hmember : (∃ m ∈ (k, d) :: ms, m.2.Repeats) ↔ d.Repeats ∨ ∃ m ∈ ms, m.2.Repeats := by
      simp [exists_eq_or_imp]
    rw [repeatsMembers, Bool.or_eq_true, Bool.or_eq_true, decide_eq_true_iff, repeats_iff d,
      repeatsMembers_iff (k :: seen) ms, map_cons, hmember]
    refine Iff.trans ?_ or_assoc
    rw [hfresh]
    simp only [or_assoc, or_left_comm]

end

end Doc

/-! ## Blanks and numbers -/

def isBlank (u : UInt16) : Bool := u = unit ' ' || u = unit '\t' || u = unit '\n' || u = unit '\r'

def Blanks (w : List UInt16) : Prop := ∀ u ∈ w, isBlank u = true

def isDigit (u : UInt16) : Bool := unit '0' ≤ u && u ≤ unit '9'

def Digits (ds : List UInt16) : Prop := ds ≠ [] ∧ ∀ u ∈ ds, isDigit u = true

/-- The digits before a point: a zero stands alone. -/
def Whole (ds : List UInt16) : Prop := ds = ascii "0" ∨ Digits ds ∧ ds.head? ≠ some (unit '0')

def Fraction (t : List UInt16) : Prop := t = [] ∨ ∃ ds, Digits ds ∧ t = unit '.' :: ds

def Exponent (t : List UInt16) : Prop :=
  t = [] ∨ ∃ e sign ds, (e = unit 'e' ∨ e = unit 'E') ∧ (sign = [] ∨ sign = ascii "+" ∨ sign = ascii "-") ∧
    Digits ds ∧ t = e :: (sign ++ ds)

def Number (t : List UInt16) : Prop :=
  ∃ sign int frac exp, (sign = [] ∨ sign = ascii "-") ∧ Whole int ∧ Fraction frac ∧ Exponent exp ∧
    t = sign ++ (int ++ (frac ++ exp))

variable {t us : List UInt16}

/-- What holds of digits and of the marks between them holds along a number. -/
theorem all_number {p : UInt16 → Bool} (hdigit : ∀ u, isDigit u = true → p u = true)
    (hmark : [unit '-', unit '+', unit '.', unit 'e', unit 'E'].all p = true) (h : Number t) : t.all p = true := by
  obtain ⟨sign, int, frac, exp, hsign, hint, hfrac, hexp, rfl⟩ := h
  simp only [all_cons, all_nil, Bool.and_true, Bool.and_eq_true] at hmark
  obtain ⟨hminus, hplus, hpoint, he, hE⟩ := hmark
  have hdigits : ∀ {ds}, Digits ds → ds.all p = true := fun hds => all_eq_true.mpr fun u hu => hdigit u (hds.2 u hu)
  have hsigns : ∀ {s : List UInt16}, s = [] ∨ s = ascii "+" ∨ s = ascii "-" → s.all p = true := by
    rintro s (rfl | rfl | rfl)
    · rfl
    · exact (Bool.and_true _).trans hplus
    · exact (Bool.and_true _).trans hminus
  have hint : int.all p = true := by
    rcases hint with rfl | ⟨hds, -⟩
    · exact (Bool.and_true _).trans (hdigit _ (by decide))
    · exact hdigits hds
  have hfrac : frac.all p = true := by
    rcases hfrac with rfl | ⟨ds, hds, rfl⟩
    · rfl
    · rw [all_cons, hpoint, hdigits hds]
      rfl
  have hexp : exp.all p = true := by
    rcases hexp with rfl | ⟨e, s, ds, rfl | rfl, hs, hds, rfl⟩
    · rfl
    · rw [all_cons, all_append, he, hsigns hs, hdigits hds]
      rfl
    · rw [all_cons, all_append, hE, hsigns hs, hdigits hds]
      rfl
  have hsign : sign.all p = true := hsigns (hsign.imp_right .inr)
  simp [hsign, hint, hfrac, hexp]

/-! ## Strings -/

def hexValue (u : UInt16) : Option Nat := ByteCodec.hexDigitValue u.toNat

def hex4 (a b c d : UInt16) : Option UInt16 := do
  return UInt16.ofNat (4096 * (← hexValue a) + 256 * (← hexValue b) + 16 * (← hexValue c) + (← hexValue d))

/-- The character behind a backslash, and the unit both stand for. -/
def escapes : List (UInt16 × UInt16) :=
  [(unit '"', 0x22), (unit '\\', 0x5C), (unit '/', 0x2F), (unit 'b', 0x08), (unit 'f', 0x0C), (unit 'n', 0x0A),
    (unit 'r', 0x0D), (unit 't', 0x09)]

def escaped (u : UInt16) : Option UInt16 := escapes.lookup u

/-- What stands between the quotes of a string, and the units it stands for. -/
inductive Chars : List UInt16 → List UInt16 → Prop
  | nil : Chars [] []
  | plain {u : UInt16} {t us : List UInt16} : 0x20 ≤ u → u ≠ unit '"' → u ≠ unit '\\' → Chars t us →
      Chars (u :: t) (u :: us)
  | short {c u : UInt16} {t us : List UInt16} : escaped c = some u → Chars t us → Chars (unit '\\' :: c :: t) (u :: us)
  | hex {a b c d u : UInt16} {t us : List UInt16} : hex4 a b c d = some u → Chars t us →
      Chars (unit '\\' :: unit 'u' :: a :: b :: c :: d :: t) (u :: us)

/-- The units of a string up to its closing quote. -/
def readString : List UInt16 → Option (List UInt16 × List UInt16)
  | [] => none
  | u :: s =>
    if u = unit '"' then some ([], s)
    else if u = unit '\\' then
      match s with
      | [] => none
      | c :: s =>
        if c = unit 'u' then
          match s with
          | a :: b :: c :: d :: s => do
            let u ← hex4 a b c d
            let (us, s) ← readString s
            return (u :: us, s)
          | _ => none
        else do
          let u ← escaped c
          let (us, s) ← readString s
          return (u :: us, s)
    else if u < 0x20 then none
    else do
      let (us, s) ← readString s
      return (u :: us, s)

/-- **The units of a string are found again.** -/
theorem readString_chars (h : Chars t us) (r : List UInt16) : readString (t ++ unit '"' :: r) = some (us, r) := by
  induction h with
  | nil =>
    rw [nil_append, readString.eq_def]
    exact if_pos rfl
  | @plain u t us hlow hquote hslash _ ih =>
    rw [cons_append, readString.eq_def]
    dsimp only
    rw [if_neg hquote, if_neg hslash, if_neg (UInt16.not_lt.mpr hlow), ih]
    rfl
  | @short c u t us hescape _ ih =>
    have hu : c ≠ unit 'u' := by
      rintro rfl
      cases hescape
    rw [cons_append, cons_append, readString.eq_def]
    dsimp only
    rw [if_neg (by decide), if_pos rfl, if_neg hu, hescape, ih]
    rfl
  | @hex a b c d u t us hhex _ ih =>
    simp only [cons_append]
    rw [readString.eq_def]
    dsimp only
    rw [if_neg (by decide), if_pos rfl, if_pos rfl, hhex, ih]
    rfl

/-! ## Values -/

mutual

/-- A value without the blanks around it. -/
inductive Value : Doc → List UInt16 → Prop
  | null : Value .null (ascii "null")
  | true : Value (.bool .true) (ascii "true")
  | false : Value (.bool .false) (ascii "false")
  | num {t : List UInt16} : Number t → Value (.num t) t
  | str {t us : List UInt16} : Chars t us → Value (.str us) (unit '"' :: (t ++ [unit '"']))
  | emptyArr {w : List UInt16} : Blanks w → Value (.arr []) (unit '[' :: (w ++ [unit ']']))
  | arr {ds : List Doc} {t : List UInt16} : Elements ds t → Value (.arr ds) (unit '[' :: (t ++ [unit ']']))
  | emptyObj {w : List UInt16} : Blanks w → Value (.obj []) (unit '{' :: (w ++ [unit '}']))
  | obj {ms : List (List UInt16 × Doc)} {t : List UInt16} : Members ms t →
      Value (.obj ms) (unit '{' :: (t ++ [unit '}']))

/-- A value with the blanks around it. -/
inductive Element : Doc → List UInt16 → Prop
  | mk {w v : List UInt16} {d : Doc} {t : List UInt16} : Blanks w → Value d t → Blanks v → Element d (w ++ (t ++ v))

/-- Elements with commas between them. -/
inductive Elements : List Doc → List UInt16 → Prop
  | one {d : Doc} {t : List UInt16} : Element d t → Elements [d] t
  | cons {d : Doc} {ds : List Doc} {t ts : List UInt16} : Element d t → Elements ds ts →
      Elements (d :: ds) (t ++ unit ',' :: ts)

/-- A key, a colon and an element. -/
inductive Member : List UInt16 → Doc → List UInt16 → Prop
  | mk {w k us v : List UInt16} {d : Doc} {t : List UInt16} : Blanks w → Chars k us → Blanks v → Element d t →
      Member us d (w ++ unit '"' :: (k ++ unit '"' :: (v ++ unit ':' :: t)))

/-- Members with commas between them. -/
inductive Members : List (List UInt16 × Doc) → List UInt16 → Prop
  | one {k : List UInt16} {d : Doc} {t : List UInt16} : Member k d t → Members [(k, d)] t
  | cons {k : List UInt16} {d : Doc} {ms : List (List UInt16 × Doc)} {t ts : List UInt16} : Member k d t →
      Members ms ts → Members ((k, d) :: ms) (t ++ unit ',' :: ts)

end

/-! ## Texts without blanks -/

theorem blanks_nil : Blanks [] := fun _ h => nomatch h

theorem Chars.append {t' us' : List UInt16} (h : Chars t us) (h' : Chars t' us') : Chars (t ++ t') (us ++ us') := by
  induction h with
  | nil => exact h'
  | plain hlow hquote hslash _ ih => exact .plain hlow hquote hslash ih
  | short hescape _ ih => exact .short hescape ih
  | hex hhex _ ih => exact .hex hhex ih

/-- Units that stand for themselves. -/
theorem chars_plain (h : ∀ u ∈ us, 0x20 ≤ u ∧ u ≠ unit '"' ∧ u ≠ unit '\\') : Chars us us := by
  induction us with
  | nil => exact .nil
  | cons u us ih =>
    obtain ⟨hlow, hquote, hslash⟩ := h u mem_cons_self
    exact .plain hlow hquote hslash (ih fun v hv => h v (mem_cons_of_mem u hv))

theorem element_of_value {d : Doc} (h : Value d t) : Element d t := by
  have := Element.mk blanks_nil h blanks_nil
  rwa [nil_append, append_nil] at this

/-- The text of a member, with its key between quotes. -/
def IsMember (m : List UInt16 × Doc) (t : List UInt16) : Prop :=
  ∃ k v, t = unit '"' :: (k ++ unit '"' :: unit ':' :: v) ∧ Chars k m.1 ∧ Value m.2 v

theorem member_of_isMember {m : List UInt16 × Doc} (h : IsMember m t) : Member m.1 m.2 t := by
  obtain ⟨k, v, rfl, hk, hv⟩ := h
  exact Member.mk blanks_nil hk blanks_nil (element_of_value hv)

theorem elements_intercalate : ∀ {d : Doc} {t : List UInt16} {ds : List Doc} {ts : List (List UInt16)}, Value d t →
    List.Forall₂ Value ds ts → Elements (d :: ds) (List.intercalate [unit ','] (t :: ts))
  | _, _, _, _, h, .nil => by
    rw [intercalate_singleton]
    exact .one (element_of_value h)
  | _, _, _, _, h, .cons h' hs => by
    rw [intercalate_cons_cons, append_assoc, singleton_append]
    exact .cons (element_of_value h) (elements_intercalate h' hs)

/-- Values with commas between them, in brackets. -/
theorem value_arr {ds : List Doc} {ts : List (List UInt16)} (h : List.Forall₂ Value ds ts) :
    Value (.arr ds) (unit '[' :: (List.intercalate [unit ','] ts ++ [unit ']'])) := by
  cases h with
  | nil => exact .emptyArr blanks_nil
  | cons h hs => exact .arr (elements_intercalate h hs)

theorem members_intercalate : ∀ {m : List UInt16 × Doc} {t : List UInt16} {ms : List (List UInt16 × Doc)}
    {ts : List (List UInt16)}, IsMember m t → List.Forall₂ IsMember ms ts →
    Members (m :: ms) (List.intercalate [unit ','] (t :: ts))
  | _, _, _, _, h, .nil => by
    rw [intercalate_singleton]
    exact .one (member_of_isMember h)
  | _, _, _, _, h, .cons h' hs => by
    rw [intercalate_cons_cons, append_assoc, singleton_append]
    exact .cons (member_of_isMember h) (members_intercalate h' hs)

/-- Members with commas between them, in braces. -/
theorem value_obj {ms : List (List UInt16 × Doc)} {ts : List (List UInt16)} (h : List.Forall₂ IsMember ms ts) :
    Value (.obj ms) (unit '{' :: (List.intercalate [unit ','] ts ++ [unit '}'])) := by
  cases h with
  | nil => exact .emptyObj blanks_nil
  | cons h hs => exact .obj (members_intercalate h hs)

end JsonGrammar
