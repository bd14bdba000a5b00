import SeamSdk.Lib.Comparison
import SeamSdk.Lib.Decimal
import SeamSdk.Lib.Utf16

/-!
# Canonical JSON

The digest of a tool input is taken over its canonical JSON text. Python and TypeScript each write that text for values
of their own language. Python holds a text as its characters, TypeScript as UTF-16 units.

Both print doubles and round integers to them. `Floats` gives what that rests on: the shortest digits a double that is
not zero is read back from, and the double an integer is rounded to, unless that overflows.

- Python: `Python.jcsWrite`, `Python.jcsCanonicalize`. A float is printed by `repr`, read by `Decimal` and put into the
  form of ECMA-262 (`Python.jcsNumber`).
- TypeScript: `TypeScript.jcsWrite`, `TypeScript.jcsCanonicalize`. A slot of an array may be a hole, which `map` skips and
  `join` writes as nothing.

The members of an object are written one by one in the order of their keys. The model writes every member first and
puts the results in order, so that the first failure in that order is the failure of the object.
-/

namespace SeamSdk

open ByteCodec Comparison

/-- The doubles that are neither zero nor infinite, as far as both languages print and round to them. -/
structure Floats (F : Type) where
  shortest : F → Decimal
  ofInt : Int → Option F

/-- A double. -/
inductive Double (F : Type)
  | nan
  | infinite (neg : Bool)
  | zero (neg : Bool)
  | finite (x : F)

variable {F : Type}

/-! ## Python -/

namespace Python

/-- A key of a `dict`. -/
inductive Key
  | str (s : List Char)
  | other (typeName : String)

inductive Value (F : Type)
  | none
  | bool (b : Bool)
  | str (s : List Char)
  | int (n : Int)
  | float (v : Double F)
  | list (items : List (Value F))
  | dict (members : List (Key × Value F))
  | other (typeName : String)

def hexDigit (n : Nat) : Char := Nat.digitChar (n % 16)

/-- `_JCS_ESCAPES`, then the control characters that have no short form. -/
def escapeChar (c : Char) : List Char :=
  match c.toNat with
  | 0x08 => ['\\', 'b']
  | 0x09 => ['\\', 't']
  | 0x0A => ['\\', 'n']
  | 0x0C => ['\\', 'f']
  | 0x0D => ['\\', 'r']
  | 0x22 => ['\\', '"']
  | 0x5C => ['\\', '\\']
  | cp => if cp < 0x20 then ['\\', 'u', '0', '0', hexDigit (cp / 16), hexDigit cp] else [c]

def jcsString (s : List Char) : List Char := '"' :: s.flatMap escapeChar ++ ['"']

/-- An exponent has two digits at least. -/
def twoDigits (e : List Char) : List Char := if e.length < 2 then '0' :: e else e

/-- `repr` of a positive float: an exponent of at least two digits from `1e16` on and below `0.0001`. -/
def floatRepr (d : Decimal) : List Char :=
  let k : Int := d.digits.length
  let n := d.point
  if -4 < n ∧ n ≤ 16 then
    if n ≤ 0 then '0' :: '.' :: List.replicate (-n).toNat '0' ++ d.digits
    else if k ≤ n then d.digits ++ List.replicate (n - k).toNat '0' ++ ['.', '0']
    else d.digits.take n.toNat ++ '.' :: d.digits.drop n.toNat
  else
    Decimal.mantissa d.digits ++ 'e' :: (if n - 1 < 0 then '-' else '+') :: twoDigits (Decimal.natText (n - 1).natAbs)

/-- The exponent behind the digits of a number, if there is one. -/
def exponentOf : List Char → Int
  | 'e' :: '-' :: e => -Decimal.natOf e
  | 'e' :: '+' :: e => Decimal.natOf e
  | _ => 0

/-- Digits from the first that is not zero. -/
def lstripZeros (ds : List Char) : List Char :=
  if ds.dropWhile (· = '0') = [] then ['0'] else ds.dropWhile (· = '0')

/-- The digits and the exponent of `Decimal(text).as_tuple()`. -/
def decimalTuple (text : List Char) : List Char × Int :=
  let intPart := text.takeWhile Char.isDigit
  let rest := text.dropWhile Char.isDigit
  let fracPart := if rest.head? = some '.' then (rest.drop 1).takeWhile Char.isDigit else []
  let rest := if rest.head? = some '.' then (rest.drop 1).dropWhile Char.isDigit else rest
  (lstripZeros (intPart ++ fracPart), exponentOf rest - fracPart.length)

/-- `s.rstrip("0")`. -/
def rstripZeros (s : List Char) : List Char := (s.reverse.dropWhile (· = '0')).reverse

/-- The text that `_jcs_number` builds, from the sign, the joined digits of the tuple and its exponent on. -/
def jcsNumberText (neg : Bool) (raw : List Char) (dexp : Int) : List Char :=
  let sign := if neg then ['-'] else []
  let digits := if rstripZeros raw = [] then ['0'] else rstripZeros raw
  let dexp := dexp + (raw.length - digits.length)
  let n := digits.length + dexp
  let k : Int := digits.length
  let body :=
    if k ≤ n ∧ n ≤ 21 then digits ++ List.replicate (n - k).toNat '0'
    else if 0 < n ∧ n ≤ 21 then digits.take n.toNat ++ '.' :: digits.drop n.toNat
    else if -6 < n ∧ n ≤ 0 then '0' :: '.' :: List.replicate (-n).toNat '0' ++ digits
    else
      let mant := digits.take 1 ++ (if 1 < k then '.' :: digits.drop 1 else [])
      let e := n - 1
      mant ++ 'e' :: (if 0 ≤ e then '+' else '-') :: Decimal.natText e.natAbs
  sign ++ body

def jcsNumber (E : Floats F) (v : Double F) : Except String (List Char) :=
  match v with
  | .nan => .error "NaN and Infinity cannot be canonicalized (RFC 8785)"
  | .infinite _ => .error "NaN and Infinity cannot be canonicalized (RFC 8785)"
  | .zero _ => .ok ['0']
  | .finite x =>
    let v := E.shortest x
    let tuple := decimalTuple (floatRepr v)
    .ok (jcsNumberText v.neg tuple.1 tuple.2)

end Python

/-- `2 ** 53`. -/
def maxSafe : Int := 2 ^ 53

def tooLarge (text : List Char) : String :=
  "integer " ++ String.ofList text ++ " is too large to represent as an IEEE double, so JCS cannot render it"

def notItself (text rendered : List Char) : String :=
  "integer " ++ String.ofList text ++ " is not JCS-renderable as itself: canonicalizing it would emit " ++
    String.ofList rendered ++ ", a different value. JSON numbers are IEEE doubles; this integer is not one a double " ++
    "prints back unchanged, so digesting it would sign a value nobody supplied."

namespace Python

def jcsInt (E : Floats F) (v : Int) : Except String (List Char) :=
  let text := Decimal.intText v
  if -maxSafe ≤ v ∧ v ≤ maxSafe then .ok text
  else
    match E.ofInt v with
    | none => .error (tooLarge text)
    | some x => do
      let rendered ← jcsNumber E (.finite x)
      if rendered ≠ text then .error (notItself text rendered) else .ok rendered

/-- `k.encode("utf-16-be")`. -/
def utf16be (k : List Char) : Bytes := Utf16.beBytes (Utf16.encode k)

/-- The members with their texts, in the order of the keys. -/
def sortMembers {α : Type} (members : List (List Char × α)) : List (List Char × α) :=
  sortLess (fun a b => decide (utf16be a.1 < utf16be b.1)) members

def jcsMember (m : List Char × Except String (List Char)) : Except String (List Char) := do
  return jcsString m.1 ++ ':' :: (← m.2)

mutual

def jcsWrite (E : Floats F) : Value F → Except String (List Char)
  | .none => .ok "null".toList
  | .bool b => .ok (if b then "true".toList else "false".toList)
  | .str s => .ok (jcsString s)
  | .int n => jcsInt E n
  | .float v => jcsNumber E v
  | .list items => do
    let texts ← jcsItems E items
    return '[' :: List.intercalate [','] texts ++ [']']
  | .dict members => do
    let members ← jcsMembers E members
    let texts ← (sortMembers members).mapM jcsMember
    return '{' :: List.intercalate [','] texts ++ ['}']
  | .other typeName => .error (typeName ++ " is not JSON-serializable")

def jcsItems (E : Floats F) : List (Value F) → Except String (List (List Char))
  | [] => .ok []
  | v :: vs => do
    let text ← jcsWrite E v
    return text :: (← jcsItems E vs)

/-- The keys are checked before any value is written. -/
def jcsMembers (E : Floats F) : List (Key × Value F) → Except String (List (List Char × Except String (List Char)))
  | [] => .ok []
  | (.str key, v) :: members => do
    return (key, jcsWrite E v) :: (← jcsMembers E members)
  | (.other typeName, _) :: _ => .error ("JSON object keys must be strings, got " ++ typeName)

end

def jcsCanonicalize (E : Floats F) (obj : Value F) : Except String Bytes := do
  return utf8 (String.ofList (← jcsWrite E obj))

end Python

/-! ## TypeScript -/

namespace TypeScript

/-- What `isPlainObject` and its refusal look at: the length of the prototype chain, the tag that
`Object.prototype.toString` prints and the name of the constructor. -/
structure Shape where
  prototypes : Nat
  tag : String
  ctor : String

inductive Value (F : Type)
  | null
  | bool (b : Bool)
  | number (v : Double F)
  | bigint (n : Int)
  | string (s : List UInt16)
  | array (slots : List (Option (Value F)))
  | object (shape : Shape) (members : List (List UInt16 × Value F))
  | other (typeof : String)

def ascii (s : String) : List UInt16 := Utf16.encode s.toList

def hexUnit (n : Nat) : List UInt16 := Utf16.encode [Nat.digitChar (n % 16)]

/-- The escape sequence of a unit. -/
def unicodeEscape (u : UInt16) : List UInt16 :=
  ascii "\\u" ++ hexUnit (u.toNat / 4096) ++ hexUnit (u.toNat / 256) ++ hexUnit (u.toNat / 16) ++ hexUnit u.toNat

/-- A character of a quoted JSON string. -/
def quotePoint : Utf16.Point → List UInt16
  | .lone u => unicodeEscape u
  | .scalar c =>
    if c.toNat = 0x08 then ascii "\\b"
    else if c.toNat = 0x09 then ascii "\\t"
    else if c.toNat = 0x0A then ascii "\\n"
    else if c.toNat = 0x0C then ascii "\\f"
    else if c.toNat = 0x0D then ascii "\\r"
    else if c.toNat = 0x22 then ascii "\\\""
    else if c.toNat = 0x5C then ascii "\\\\"
    else if c.toNat < 0x20 then unicodeEscape (UInt16.ofNat c.toNat)
    else Utf16.units c

/-- `JSON.stringify` on a string. -/
def stringify (s : List UInt16) : List UInt16 := ascii "\"" ++ (Utf16.points s).flatMap quotePoint ++ ascii "\""

/-- `String` on a number that is not zero. -/
def numberToString (E : Floats F) (x : F) : List Char := (E.shortest x).toText

def jcsBigInt (E : Floats F) (v : Int) : Except String (List UInt16) :=
  let text := Decimal.intText v
  if v ≤ maxSafe ∧ -maxSafe ≤ v then .ok (Utf16.encode text)
  else
    match E.ofInt v with
    | none => .error (tooLarge text)
    | some asNumber =>
      let rendered := numberToString E asNumber
      if rendered ≠ text then .error (notItself text rendered) else .ok (Utf16.encode rendered)

def isPlainObject (s : Shape) : Bool := s.prototypes = 0 || s.prototypes = 1

def notPlainObjectMessage (s : Shape) : String :=
  let (what, fix) :=
    if s.tag = "Object" then
      (if s.ctor ≠ "" ∧ s.ctor ≠ "Object" then "an instance of " ++ s.ctor else "an object with a non-root prototype",
        "spread it: `\x7b ...value \x7d`")
    else
      ("a " ++ (if s.ctor ≠ "" then s.ctor else s.tag),
        match s.tag with
        | "Date" => "pass `date.toISOString()`"
        | "Map" => "pass `Object.fromEntries(map)`"
        | "Set" => "pass `[...set]`"
        | "RegExp" => "pass `regexp.source`"
        | _ => "convert it to plain JSON data first")
  what ++ " is not JSON-serializable: JCS canonicalizes plain objects, arrays, strings, numbers, booleans and null, " ++
    "and nothing else. Canonicalizing this would emit only its own enumerable properties — for most such types, none " ++
    "at all — so the digest would not bind its contents. To digest it, " ++ fix ++ "."

/-- The members with their texts, in the order of the keys. -/
def sortMembers {α : Type} (members : List (List UInt16 × α)) : List (List UInt16 × α) :=
  sortLess (fun a b => decide (a.1 < b.1)) members

def jcsMember (m : List UInt16 × Except String (List UInt16)) : Except String (List UInt16) :=
  if Utf16.hasLone m.1 then
    .error ("lone surrogate in object key " ++ String.ofList (Utf16.decodeLossy (stringify m.1)) ++
      " cannot be canonicalized (not valid Unicode)")
  else do
    return stringify m.1 ++ ascii ":" ++ (← m.2)

mutual

def jcsWrite (E : Floats F) : Value F → Except String (List UInt16)
  | .null => .ok (ascii "null")
  | .bool b => .ok (if b then ascii "true" else ascii "false")
  | .number .nan => .error "NaN and Infinity cannot be canonicalized (RFC 8785)"
  | .number (.infinite _) => .error "NaN and Infinity cannot be canonicalized (RFC 8785)"
  | .number (.zero _) => .ok (ascii "0")
  | .number (.finite x) => .ok (Utf16.encode (numberToString E x))
  | .bigint n => jcsBigInt E n
  | .string s =>
    if Utf16.hasLone s then .error "lone surrogate in string cannot be canonicalized (not valid Unicode)"
    else .ok (stringify s)
  | .array slots => do
    let texts ← jcsSlots E slots
    return ascii "[" ++ List.intercalate (ascii ",") texts ++ ascii "]"
  | .object shape members =>
    if isPlainObject shape then do
      let texts ← (sortMembers (jcsMembers E members)).mapM jcsMember
      return ascii "\x7b" ++ List.intercalate (ascii ",") texts ++ ascii "\x7d"
    else .error (notPlainObjectMessage shape)
  | .other typeof => .error (typeof ++ " is not JSON-serializable")

def jcsSlots (E : Floats F) : List (Option (Value F)) → Except String (List (List UInt16))
  | [] => .ok []
  | none :: slots => do
    return [] :: (← jcsSlots E slots)
  | some v :: slots => do
    let text ← jcsWrite E v
    return text :: (← jcsSlots E slots)

def jcsMembers (E : Floats F) : List (List UInt16 × Value F) → List (List UInt16 × Except String (List UInt16))
  | [] => []
  | (key, v) :: members => (key, jcsWrite E v) :: jcsMembers E members

end

def jcsCanonicalize (E : Floats F) (obj : Value F) : Except String Bytes := do
  return utf8 (String.ofList (Utf16.decodeLossy (← jcsWrite E obj)))

end TypeScript

end SeamSdk
