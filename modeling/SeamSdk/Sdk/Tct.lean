import SeamSdk.Lib.JsonGrammar
import SeamSdk.Sdk.Digest

/-!
# The token, as each SDK checks it

A token passes when its signature verifies under the key of the issuer's AID, its two documents repeat no key, and its
claims are those of a commitment self-attestation. The SDKs share the claims (`accepts`). Each has its own way to read
a token (`readToken`): how segments are split and decoded, which bytes are signed, how repeated keys are found; and its
own reading of `exp` (`expOk`). Any exception inside a check is a refusal.

- `scanForDuplicate_eq_false_iff`: the recursive scan of Go and Java finds a repeated key exactly when there is one;
- `Go.selfIssued_iff`: reading a missing claim as an empty one makes no difference for an issuer that is named;
- `accepts_of_checksOut`: with everything else in order, `exp` alone decides.
-/

namespace SeamSdk

open ByteCodec Checked

/-! ## Claims -/

def headerOk (header : Json) : Bool :=
  claim header "alg" == some "EdDSA" && claim header "typ" == some "aitp-tct+jwt"

/-- The issuer speaks about itself, to itself. -/
def selfIssued (issuerAid : String) (payload : Json) : Bool :=
  claim payload "iss" == some issuerAid && claim payload "sub" == some issuerAid &&
    claim payload "aud" == some issuerAid

def grantsOk (payload : Json) : Bool := (payload.get? "grants").bind Json.strList? == some [attestationGrant]

/-- The digest `ext` binds: it has one member, and that is a commitment statement of two members. -/
def boundDigest (payload : Json) : Option String := do
  let ext ← (payload.get? "ext").filter Json.isObj
  guard (ext.size = 1)
  let stmt ← (ext.get? extNamespace).filter Json.isObj
  guard (stmt.size = 2 ∧ claim stmt "type" = some extType)
  claim stmt "commitment_digest"

/-- The checks on a token that has been read. -/
def accepts (issued : Json → Bool) (expOk : Option Json → Bool) (digest : Except String String) :
    Option (Json × Json) → Bool
  | none => false
  | some (header, payload) =>
    headerOk header && issued payload && expOk (payload.get? "exp") && grantsOk payload &&
      digest.toOption.any fun d => boundDigest payload == some d

/-! ## Shared readings -/

/-- The key an AID embeds, under one of its two prefixes. -/
def aidToPubkey (decode : String → Option Bytes) (aid : String) : Option Bytes :=
  ((stripPrefix "aid:pubkey:ed25519:" aid).or (stripPrefix "aid:pubkey:" aid)).bind decode

/-- A number as JavaScript, Go and Gson read it: an integer becomes the nearest double. -/
def Sdk.number (x : Sdk) : JsonNumber → Binary64.Value
  | .int neg n => .finite (Binary64.roundInt (JsonNumber.signed neg n))
  | n => x.decimal n

/-- A double within the range of a 64-bit signed integer, in whole seconds. -/
def boundedSeconds : Binary64.Value → Option Int
  | .finite q => if 2 ^ 63 ≤ q ∨ q < -2 ^ 63 then none else some (Binary64.trunc q)
  | .infinite _ => none

mutual

/-- Whether some object repeats a key, found on the way through the document. -/
def scanForDuplicate : Json → Bool
  | .obj members => scanMembers [] members
  | .arr items => scanItems items
  | _ => false

def scanMembers (seen : List String) : List (String × Json) → Bool
  | [] => false
  | (k, v) :: ms => seen.contains k || scanForDuplicate v || scanMembers (k :: seen) ms

def scanItems : List Json → Bool
  | [] => false
  | j :: js => scanForDuplicate j || scanItems js

end

/-! ## Python -/

namespace Python

variable (x : Python)

def b64urlDecode (s : String) : Option Bytes :=
  x.urlsafeB64decode (s ++ String.ofList (List.replicate (Base64.padding s.length) '='))

/-- `json.loads` with a hook that refuses an object with a repeated key. -/
def loads (b : Bytes) : Option Json := (x.jsonLoads b).filter Json.distinctKeys

/-- `str.encode("ascii")`. -/
def encodeAscii (s : String) : Option Bytes := if RustText.isAscii s then some (utf8 s) else none

def readToken (issuerAid tctJws : String) : Option (Json × Json) := do
  let (h, p, s) ← jwsSegments tctJws
  let key ← aidToPubkey (b64urlDecode x) issuerAid
  let sig ← b64urlDecode x s
  let message ← encodeAscii (h ++ "." ++ p)
  guard (x.ed25519Verify key message sig)
  let header ← (b64urlDecode x h).bind (loads x)
  let payload ← (b64urlDecode x p).bind (loads x)
  return (header, payload)

/-- Integers are exact here; a number with a fraction or an exponent is a double. -/
def expOk (now : Int) : Option Json → Bool
  | some (.num (.int neg n)) =>
    let exp := JsonNumber.signed neg n
    decide (-2 ^ 63 ≤ exp ∧ exp < 2 ^ 63) && decide (now < exp)
  | some (.num n) => (boundedSeconds (x.decimal n)).any fun exp => now < exp
  | _ => false

def verifyTct (issuerAid tctJws : String) (c : SdkCommitment) (nowS : Option Int) : Bool :=
  accepts (selfIssued issuerAid) (expOk x (nowS.getD x.time)) (seamCommitmentDigest x c)
    (readToken x issuerAid tctJws)

end Python

/-! ## TypeScript -/

namespace TypeScript

section Scan

open JsonGrammar (unit)

/-- The scanner for repeated keys, over the units of a text. On `stack` each open object has the keys seen in it, and each
open array `none`. `literal` is the string being skipped, in reverse, with whether its next unit is escaped. -/
def scan (parse : List UInt16 → Option (List UInt16)) :
    Option (List UInt16 × Bool) → List (Option (List (List UInt16))) → Bool → List UInt16 → Option Bool
  | none, _, _, [] => some false
  | some _, _, _, [] => none -- an unterminated string throws
  | some (lit, true), stack, expectKey, u :: us => scan parse (some (u :: lit, false)) stack expectKey us
  | some (lit, false), stack, expectKey, u :: us =>
    if u = unit '"' then
      match expectKey, stack with
      | true, some seen :: outer =>
        match parse (unit '"' :: lit).reverse with
        | none => none
        | some key => if key ∈ seen then some true else scan parse none (some (key :: seen) :: outer) false us
      | _, _ => scan parse none stack expectKey us
    else scan parse (some (u :: lit, u == unit '\\')) stack expectKey us
  | none, stack, expectKey, u :: us =>
    if u = unit '"' then scan parse (some ([unit '"'], false)) stack expectKey us
    else if u = unit '{' then scan parse none (some [] :: stack) true us
    else if u = unit '[' then scan parse none (none :: stack) false us
    else if u = unit '}' ∨ u = unit ']' then scan parse none stack.tail false us
    else if u = unit ',' then scan parse none stack (stack.head?.join.isSome) us
    else if u = unit ':' then scan parse none stack false us
    else scan parse none stack expectKey us

end Scan

variable (x : TypeScript)

/-- Whether a key is repeated; `none` where it throws. -/
def jsonHasDuplicateKey (text : String) : Option Bool := scan x.jsonParseString none [] false (Utf16.encode text.toList)

def parseJsonNoDuplicates (text : String) : Option Json := do
  let value ← x.jsonParse text
  let dup ← jsonHasDuplicateKey x text
  guard (dup = false)
  return value

def readToken (issuerAid tctJws : String) : Option (Json × Json) := do
  let (h, p, s) ← jwsSegments tctJws
  let key ← aidToPubkey (fun t => some (x.bufferFrom t)) issuerAid
  guard (x.ed25519Verify key (utf8 (h ++ "." ++ p)) (x.bufferFrom s))
  let header ← parseJsonNoDuplicates x (x.bufferToString (x.bufferFrom h))
  let payload ← parseJsonNoDuplicates x (x.bufferToString (x.bufferFrom p))
  guard (header.isObj ∧ payload.isObj)
  return (header, payload)

/-- The clock is a JavaScript number as well. -/
def expOk (now : Rat) : Option Json → Bool
  | some (.num n) => (boundedSeconds (x.number n)).any fun exp => now < exp
  | _ => false

def verifyTct (issuerAid tctJws : String) (c : SdkCommitment) (nowS : Option Rat) : Bool :=
  accepts (selfIssued issuerAid) (expOk x (nowS.getD x.time)) (seamCommitmentDigest x c)
    (readToken x issuerAid tctJws)

end TypeScript

/-! ## Go -/

namespace Go

variable (x : Go)

def b64urlDecode (s : String) : Option Bytes :=
  x.decodeString (String.ofList (s.toList.reverse.dropWhile (· == '=')).reverse)

/-- What is not exactly one value counts as having a duplicate. -/
def hasDuplicateKey (raw : Bytes) : Bool :=
  match x.tokens raw with
  | none => true
  | some j => scanForDuplicate j

def readToken (issuerAid tctJws : String) : Option (Json × Json) := do
  let (h, p, s) ← jwsSegments tctJws
  let key ← aidToPubkey (b64urlDecode x) issuerAid
  guard (key.length = 32)
  let sig ← b64urlDecode x s
  guard (x.ed25519Verify key (utf8 (h ++ "." ++ p)) sig)
  let headerBytes ← b64urlDecode x h
  let payloadBytes ← b64urlDecode x p
  guard (hasDuplicateKey x headerBytes = false ∧ hasDuplicateKey x payloadBytes = false)
  let header ← x.unmarshal headerBytes
  let payload ← x.unmarshal payloadBytes
  return (header, payload)

/-- A claim that is no string is read as the empty one. -/
def selfIssued (issuerAid : String) (payload : Json) : Bool :=
  let iss := (claim payload "iss").getD ""
  let sub := (claim payload "sub").getD ""
  let aud := (claim payload "aud").getD ""
  iss == sub && sub == aud && aud == issuerAid

def expOk (now : Int) : Option Json → Bool
  | some (.num n) => (boundedSeconds (x.number n)).any fun exp => now < exp
  | _ => false

def verifyTCT (issuerAid tctJws : String) (c : SdkCommitment) (nowS : Int) : Bool :=
  accepts (selfIssued issuerAid) (expOk x nowS) (seamCommitmentDigest x c) (readToken x issuerAid tctJws)

end Go

/-! ## Java -/

namespace Java

variable (x : Java)

/-- `String.split("\\.")`: trailing empty pieces are dropped, unless there was nothing to split. -/
def splitDots (s : String) : List String :=
  match RustText.split '.' s with
  | [piece] => [piece]
  | pieces => (pieces.reverse.dropWhile (· == "")).reverse

/-- `String.length`, in UTF-16 code units. -/
def length (s : String) : Nat := (s.toList.map fun c => if c.toNat < 0x10000 then 1 else 2).sum

def b64urlDecode (s : String) : Option Bytes :=
  x.urlDecode (s ++ String.ofList (List.replicate (Base64.padding (length s)) '='))

/-- `getBytes(US_ASCII)`: any other character becomes a question mark. -/
def asciiBytes (s : String) : Bytes := s.toList.map fun c => if c.toNat < 128 then UInt8.ofNat c.toNat else 63

def hasDuplicateKey (json : String) : Bool :=
  match x.strictReader json with
  | none => true
  | some j => scanForDuplicate j

/-- What Java and Kotlin do with three segments. -/
def readSegments (issuerAid : String) : String × String × String → Option (Json × Json)
  | (h, p, s) => do
    let key ← aidToPubkey (b64urlDecode x) issuerAid
    guard (key.length = 32)
    let sig ← b64urlDecode x s
    guard (x.ed25519Verify key (asciiBytes (h ++ "." ++ p)) sig)
    let headerJson := x.newString (← b64urlDecode x h)
    let payloadJson := x.newString (← b64urlDecode x p)
    guard (hasDuplicateKey x headerJson = false ∧ hasDuplicateKey x payloadJson = false)
    let header ← x.fromJson headerJson
    let payload ← x.fromJson payloadJson
    return (header, payload)

def readToken (issuerAid tctJws : String) : Option (Json × Json) :=
  match splitDots tctJws with
  | [h, p, s] => readSegments x issuerAid (h, p, s)
  | _ => none

/-- The double is converted with saturation, and not bounded before. -/
def expOk (now : Int) : Option Json → Bool
  | some (.num n) => decide (now < (x.number n).toInt64)
  | _ => false

def verifyTct (issuerAid tctJws : String) (c : SdkCommitment) (nowS : Int) : Bool :=
  accepts (selfIssued issuerAid) (expOk x nowS) (seamCommitmentDigest x c) (readToken x issuerAid tctJws)

end Java

/-! ## Repeated keys -/

/-- A first key that is new, and then keys that are new after it. -/
theorem nodup_cons_fresh {k : String} {ks seen : List String} :
    ((k :: ks).Nodup ∧ ∀ k' ∈ k :: ks, k' ∉ seen) ↔ k ∉ seen ∧ ks.Nodup ∧ ∀ k' ∈ ks, k' ∉ k :: seen := by
  simpa only [not_or, not_not, not_exists, not_and] using not_congr (JsonGrammar.Doc.not_nodup_cons_iff seen k ks)

mutual

/-- **The recursive scan is exact.** -/
theorem scanForDuplicate_eq_false_iff : ∀ j : Json, scanForDuplicate j = false ↔ j.distinctKeys = true
  | .null | .bool _ | .num _ | .str _ => by simp [scanForDuplicate, Json.distinctKeys]
  | .arr items => by rw [scanForDuplicate, scanItems_eq_false_iff, Json.distinctKeys]
  | .obj members => by
    rw [scanForDuplicate, scanMembers_eq_false_iff, Json.distinctKeys, Bool.and_eq_true, decide_eq_true_iff]
    simp

/-- The keys seen before and those to come are all different. -/
theorem scanMembers_eq_false_iff (seen : List String) : ∀ ms : List (String × Json), scanMembers seen ms = false ↔
    ((ms.map Prod.fst).Nodup ∧ ∀ k ∈ ms.map Prod.fst, k ∉ seen) ∧ Json.distinctKeysMembers ms = true
  | [] => by simp [scanMembers, Json.distinctKeysMembers]
  | (k, v) :: ms => by
    rw [List.map_cons, nodup_cons_fresh, scanMembers, Json.distinctKeysMembers]
    simp only [Bool.or_eq_false_iff, scanForDuplicate_eq_false_iff v, scanMembers_eq_false_iff (k :: seen) ms,
      Bool.and_eq_true, List.contains_eq_mem, decide_eq_false_iff_not]
    tauto

theorem scanItems_eq_false_iff : ∀ js : List Json, scanItems js = false ↔ Json.distinctKeysItems js = true
  | [] => by simp [scanItems, Json.distinctKeysItems]
  | j :: js => by
    rw [scanItems, Json.distinctKeysItems, Bool.or_eq_false_iff, Bool.and_eq_true, scanForDuplicate_eq_false_iff j,
      scanItems_eq_false_iff js]

end

/-! ## Claims -/

/-- Go reads a missing claim as the empty string; an issuer with a name is not taken in by that. -/
theorem Go.selfIssued_iff {issuerAid : String} (h : issuerAid ≠ "") {payload : Json} :
    Go.selfIssued issuerAid payload = SeamSdk.selfIssued issuerAid payload := by
  have hget : ∀ {o : Option String}, o.getD "" = issuerAid ↔ o = some issuerAid := by
    intro o
    cases o with
    | none => simp [Ne.symm h]
    | some s => simp
  rw [Bool.eq_iff_iff]
  simp only [Go.selfIssued, SeamSdk.selfIssued, Bool.and_eq_true, beq_iff_eq, ← hget]
  constructor
  · intro hx
    rcases hx with ⟨⟨h1, h2⟩, h3⟩
    exact ⟨⟨h1.trans (h2.trans h3), h2.trans h3⟩, h3⟩
  · intro hx
    rcases hx with ⟨⟨h1, h2⟩, h3⟩
    exact ⟨⟨h1.trans h2.symm, h2.trans h3.symm⟩, h3⟩

/-- A token that is in order but for its expiry, which is the integer `n`. -/
structure ChecksOut (issued : Json → Bool) (digest : Except String String) (token : Option (Json × Json)) (n : Int) :
    Prop where
  intro ::
  reads : ∃ header payload d neg k, token = some (header, payload) ∧ headerOk header = true ∧
    issued payload = true ∧ grantsOk payload = true ∧ digest = .ok d ∧ boundDigest payload = some d ∧
    payload.get? "exp" = some (.num (.int neg k)) ∧ JsonNumber.signed neg k = n

/-- **Expiry alone decides** about a token that is in order otherwise. -/
theorem accepts_of_checksOut {issued : Json → Bool} {expOk : Option Json → Bool} {digest : Except String String}
    {token : Option (Json × Json)} {n : Int} {b : Bool} (h : ChecksOut issued digest token n)
    (hexp : ∀ neg k, JsonNumber.signed neg k = n → expOk (some (.num (.int neg k))) = b) :
    accepts issued expOk digest token = b := by
  obtain ⟨header, payload, d, neg, k, rfl, hheader, hissued, hgrants, rfl, hbound, hget, hn⟩ := h
  simp [accepts, hheader, hissued, hgrants, hbound, hget, hexp neg k hn, Except.toOption]

end SeamSdk
