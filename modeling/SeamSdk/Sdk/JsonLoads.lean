import SeamSdk.Lib.JsonNumber
import SeamSdk.Sdk.Jcs

/-!
# `json.loads`

What Python's JSON decoder gives for a text. It reads the grammar and three words besides. A literal without a fraction
and an exponent is an `int`, any other a `float`. An `int` of more digits than the interpreter converts raises a
`ValueError`, which is no `JSONDecodeError`, and an array or object inside of too many others raises a `RecursionError` where
it opens; all three are failures of the reader (`JsonGrammar.Failure`). Of members of one key the last one stays, at the
place of the first.

The text is read in UTF-16 units. A string is the code points of its units, so that two escapes which make up a surrogate
pair are one code point and any other surrogate stays alone, as `py_scanstring` has it.
-/

namespace SeamSdk.Python

open JsonGrammar Utf16 List

variable {F : Type}

/-- A value that `json.loads` gives. -/
inductive Loaded (F : Type)
  | none
  | bool (b : Bool)
  | int (n : Int)
  | float (v : Double F)
  | str (s : List CodePoint)
  | list (items : List (Loaded F))
  | dict (members : List (List CodePoint × Loaded F))

/-- How the interpreter reads a text: `float` of a number that is not zero, `sys.get_int_max_str_digits()` where there is
such a limit, and how many arrays and objects can be open at once, where the recursion limit leaves room for so many. -/
structure Literals (F : Type) where
  float : Rat → Double F
  maxStrDigits : Option Nat
  maxNesting : Option Nat

/-- A literal that is given to `int`. -/
def isIntegral (t : List UInt16) : Bool := !(t.contains (unit '.') || t.contains (unit 'e') || t.contains (unit 'E'))

variable (L : Literals F)

def dialect : Dialect where
  words := [ascii "NaN", ascii "Infinity", ascii "-Infinity"]
  fits t :=
    match L.maxStrDigits with
    | some n => !isIntegral t || (t.filter isDigit).length ≤ n
    | .none => true
  nests depth :=
    match L.maxNesting with
    | some n => depth < n
    | .none => true

def parseLiteral (t : List UInt16) : Loaded F :=
  if t = ascii "NaN" then .float .nan
  else if t = ascii "Infinity" then .float (.infinite false)
  else if t = ascii "-Infinity" then .float (.infinite true)
  else if isIntegral t then .int (literalValue t).num
  else if literalValue t = 0 then .float (.zero (t.head? = some (unit '-')))
  else .float (L.float (literalValue t))

/-- `d[k] = v`. -/
def setKey {α : Type} (d : List (List CodePoint × α)) (m : List CodePoint × α) : List (List CodePoint × α) :=
  if d.any fun p => p.1 == m.1 then d.map fun p => if p.1 == m.1 then m else p else d ++ [m]

/-- `dict(pairs)`. -/
def dictOf {α : Type} (pairs : List (List CodePoint × α)) : List (List CodePoint × α) := pairs.foldl setKey []

mutual

def ofDoc : Doc → Loaded F
  | .null => .none
  | .bool b => .bool b
  | .num t => parseLiteral L t
  | .str us => .str (codePoints us)
  | .arr ds => .list (ofDocs ds)
  | .obj ms => .dict (dictOf (ofDocMembers ms))

def ofDocs : List Doc → List (Loaded F)
  | [] => []
  | d :: ds => ofDoc d :: ofDocs ds

def ofDocMembers : List (List UInt16 × Doc) → List (List CodePoint × Loaded F)
  | [] => []
  | (k, d) :: ms => (codePoints k, ofDoc d) :: ofDocMembers ms

end

/-- `json.loads`, of a text without surrogates. -/
def jsonLoad (text : List Char) : Except Failure (Loaded F) := (decode (dialect L) (encode text)).map (ofDoc L)

/-! ## Documents -/

theorem ofDocs_eq (ds : List Doc) : ofDocs L ds = ds.map (ofDoc L) := by
  induction ds with
  | nil => rw [ofDocs]; rfl
  | cons d ds ih => rw [ofDocs, ih]; rfl

theorem ofDocMembers_eq (ms : List (List UInt16 × Doc)) :
    ofDocMembers L ms = ms.map fun m => (codePoints m.1, ofDoc L m.2) := by
  induction ms with
  | nil => rw [ofDocMembers]; rfl
  | cons m ms ih => rw [ofDocMembers, ih]; rfl

theorem foldl_setKey {α : Type} : ∀ (ms d : List (List CodePoint × α)), ((d ++ ms).map Prod.fst).Nodup →
    ms.foldl setKey d = d ++ ms
  | [], d, _ => (append_nil d).symm
  | m :: ms, d, h => by
    have hnew : (d.any fun p => p.1 == m.1) ≠ true := by
      rw [map_append, map_cons, nodup_append] at h
      simp only [ne_eq, any_eq_true, beq_iff_eq, not_exists, not_and]
      exact fun p hp hk => h.2.2 p.1 (mem_map_of_mem hp) m.1 mem_cons_self hk
    rw [foldl_cons, setKey, if_neg hnew, foldl_setKey ms _ (by rwa [append_assoc, singleton_append]),
      append_assoc, singleton_append]

/-- Pairs of distinct keys make up a `dict` in their order. -/
theorem dictOf_nodup {α : Type} {ms : List (List CodePoint × α)} (h : (ms.map Prod.fst).Nodup) : dictOf ms = ms :=
  foldl_setKey ms [] h

/-- **A text of the grammar is loaded** as the value of its document, if its integers are short enough and it does not
nest too deep. -/
theorem jsonLoad_derived {d : Doc} {text : List Char} (h : Element d (encode text)) (htakes : Takes (dialect L) 0 d) :
    jsonLoad L text = .ok (ofDoc L d) := by
  rw [jsonLoad, decode_derived h htakes]
  rfl

/-! ## Literals -/

theorem isIntegral_iff {t : List UInt16} : isIntegral t = true ↔ unit '.' ∉ t ∧ unit 'e' ∉ t ∧ unit 'E' ∉ t := by
  simp [isIntegral, and_assoc]

theorem isIntegral_unit_iff {t : List Char} (ht : ∀ c ∈ t, c.toNat < 128) :
    isIntegral (t.map unit) = true ↔ '.' ∉ t ∧ 'e' ∉ t ∧ 'E' ∉ t := by
  rw [isIntegral_iff, unit_mem_map ht (by decide), unit_mem_map ht (by decide), unit_mem_map ht (by decide)]

theorem isIntegral_intText (n : Int) : isIntegral ((Decimal.intText n).map unit) = true := by
  rw [isIntegral_unit_iff (ascii_of_literal (Decimal.literal_intText n))]
  refine ⟨fun h => ?_, fun h => ?_, fun h => ?_⟩
  all_goals exact absurd (mem_intText h) (by decide)

/-- A number without a point and an exponent is an integer below `10 ^ 21`. -/
theorem isIntegral_toText_iff (d : Decimal) :
    isIntegral (d.toText.map unit) = true ↔ d.Fixed ∧ ∃ n : Int, d.value = n := by
  constructor
  · intro h
    obtain ⟨hpoint, hexp, -⟩ := (isIntegral_unit_iff (ascii_of_literal d.literal_toText)).mp h
    have hfixed : d.Fixed := by
      by_contra hfixed
      obtain ⟨neg, c, frac, sign, es, htext, -⟩ := d.toText_exponential hfixed
      rw [htext] at hexp
      simp at hexp
    exact ⟨hfixed, d.exists_int_of_not_mem hfixed hpoint⟩
  · rintro ⟨hfixed, n, hn⟩
    rw [d.toText_eq_intText hfixed hn]
    exact isIntegral_intText n

/-- A number is none of the words. -/
theorem parseLiteral_number {t : List UInt16} (h : Number t) : parseLiteral L t =
    if isIntegral t then .int (literalValue t).num
    else if literalValue t = 0 then .float (.zero (t.head? = some (unit '-')))
    else .float (L.float (literalValue t)) := by
  have hall := all_number (p := isNumeric) (fun u hu => by rw [isNumeric, hu]; rfl) (by decide) h
  have hword : ∀ w : List UInt16, w.all isNumeric = false → t ≠ w := by
    rintro w hw rfl
    rw [hall] at hw
    cases hw
  rw [parseLiteral, if_neg (hword _ (by decide)), if_neg (hword _ (by decide)), if_neg (hword _ (by decide))]

end SeamSdk.Python
