import SeamSdk.Lib.Base64
import SeamSdk.Lib.Raise

/-!
# Reading the details of a refused call

A refusal carries a `google.rpc.Status` in the trailer `grpc-status-details-bin`. Python and TypeScript read it with a
decoder of their own for the few messages concerned: `Any`, `ErrorInfo` and `RetryInfo`.

The two decoders refuse the same fields. But Python's is a generator and TypeScript's an array: `_decode_retry_delay`
returns at the first `retry_delay` and never sees what stands behind it, while `decodeRetryDelay` has read all of it before
it looks for one. A number, once read, goes through the same operations on doubles in both, of which only the rounding
matters here.

What Python raises is told apart, since a handler catches only what it names; TypeScript catches everything.
-/

namespace SeamSdk

open ByteCodec Checked Raise

/-- What the value of a field is read as; the bytes of a fixed-width number are skipped. -/
inductive WireValue
  | varint (n : Nat)
  | bytes (b : Bytes)
  | fixed
  deriving DecidableEq

structure WireField where
  num : Nat
  value : WireValue
  deriving DecidableEq

/-- What both languages take from their platform: a partial function from bytes to text, and the double nearest to a
number. -/
structure StatusPlatform where
  decodeUtf8 : Bytes → Option String
  round : Rat → Rat

/-- An entry of a dictionary set. -/
def setItem (m : List (String × String)) (k v : String) : List (String × String) :=
  if m.any fun p => p.1 == k then m.map fun p => if p.1 == k then (k, v) else p else m ++ [(k, v)]

def getItem (m : List (String × String)) (k : String) : Option String := (m.find? fun p => p.1 == k).map Prod.snd

def seamErrorDomain : String := "seam.zer07labs.com"

def protocolReason : String := "PROTOCOL"

def statusDetailsKey : String := "grpc-status-details-bin"

/-- `reason`, `domain` and `metadata` of an `ErrorInfo`. -/
structure ErrorInfo where
  reason : String
  domain : String
  metadata : List (String × String)

/-! ## Python -/

namespace Python

def varint (shift out : Nat) : Bytes → Option (Nat × Bytes)
  | [] => none
  | b :: buf =>
    if 63 < shift then none
    else
      let out := out ||| (b.toNat &&& 0x7F) <<< shift
      if b.toNat &&& 0x80 = 0 then some (out, buf) else varint (shift + 7) out buf

/-- One turn of `_fields`. -/
def nextField (buf : Bytes) : Option (WireField × Bytes) := do
  let (key, buf) ← varint 0 0 buf
  let num := key >>> 3
  let wt := key &&& 7
  if wt = 0 then do
    let (v, buf) ← varint 0 0 buf
    return (⟨num, .varint v⟩, buf)
  else if wt = 2 then do
    let (n, buf) ← varint 0 0 buf
    if buf.length < n then none else return (⟨num, .bytes (buf.take n)⟩, buf.drop n)
  else if wt = 1 then if buf.length < 8 then none else return (⟨num, .fixed⟩, buf.drop 8)
  else if wt = 5 then if buf.length < 4 then none else return (⟨num, .fixed⟩, buf.drop 4)
  else none

def fields (buf : Bytes) : Generator WireField := .items nextField buf.length buf

/-- What the code behind the accessors can raise. -/
inductive Raised
  | truncated
  | unicodeDecodeError
  | overflowError
  deriving DecidableEq

/-- `_Truncated` and `UnicodeDecodeError` are subclasses of `ValueError`; `OverflowError` is an `ArithmeticError`. -/
def Raised.isValueError : Raised → Bool
  | .truncated => true
  | .unicodeDecodeError => true
  | .overflowError => false

variable (x : StatusPlatform)

/-- `bytes.decode("utf-8")`. -/
def decode (b : Bytes) : Except Raised String := demand (x.decodeUtf8 b) .unicodeDecodeError

/-- An integer as an operand of float arithmetic. From halfway between the largest double and the next power of two on,
it has no double. -/
def toFloat (n : Int) : Except Raised Rat :=
  if n.natAbs < 2 ^ 1024 - 2 ^ 970 then .ok (x.round n) else .error .overflowError

/-- The loop over the fields of an `Any`. -/
def anyField (any : String × Bytes) : WireField → Except Raised (String × Bytes)
  | ⟨1, .bytes av⟩ => do
    return (← decode x av, any.2)
  | ⟨2, .bytes av⟩ => .ok (any.1, av)
  | _ => .ok any

/-- The loop over the fields of a `Status`. -/
def statusField (out : List (String × Bytes)) : WireField → Except Raised (List (String × Bytes))
  | ⟨3, .bytes v⟩ => do
    let any ← (fields v).foldM .truncated (anyField x) ("", [])
    return out ++ [any]
  | _ => .ok out

inductive MetadataValue
  | text (s : String)
  | bytes (b : Bytes)

def statusDetails (trailing : List (String × MetadataValue)) : Except Raised (List (String × Bytes)) :=
  let raw : Option MetadataValue :=
    trailing.foldl (fun raw kv => if kv.1.toLower = statusDetailsKey then some kv.2 else raw) none
  match raw with
  | some (.bytes raw) => handle Raised.isValueError [] ((fields raw).foldM .truncated (statusField x) [])
  | _ => .ok []

/-- The loop over a metadata entry. -/
def entryField (entry : String × String) : WireField → Except Raised (String × String)
  | ⟨1, .bytes ev⟩ => do
    return (← decode x ev, entry.2)
  | ⟨2, .bytes ev⟩ => do
    return (entry.1, ← decode x ev)
  | _ => .ok entry

/-- The loop over the fields of an `ErrorInfo`. -/
def errorInfoField (info : ErrorInfo) : WireField → Except Raised ErrorInfo
  | ⟨1, .bytes v⟩ => do
    return { info with reason := ← decode x v }
  | ⟨2, .bytes v⟩ => do
    return { info with domain := ← decode x v }
  | ⟨3, .bytes v⟩ => do
    let entry ← (fields v).foldM .truncated (entryField x) ("", "")
    return { info with metadata := setItem info.metadata entry.1 entry.2 }
  | _ => .ok info

def decodeErrorInfo (value : Bytes) : Except Raised ErrorInfo :=
  (fields value).foldM .truncated (errorInfoField x) ⟨"", "", []⟩

def signed (dv : Nat) : Int := if 2 ^ 63 ≤ dv then (dv : Int) - 2 ^ 64 else dv

/-- The loop over the fields of a `Duration`. -/
def durationField (d : Int × Int) : WireField → Except Raised (Int × Int)
  | ⟨1, .varint dv⟩ => .ok (signed dv, d.2)
  | ⟨2, .varint dv⟩ => .ok (d.1, signed dv)
  | _ => .ok d

def retryDelay? : WireField → Option Bytes
  | ⟨1, .bytes v⟩ => some v
  | _ => none

/-- `seconds + nanos / 1e9`, where each integer is rounded to a double first. -/
def delay (seconds nanos : Int) : Except Raised Rat := do
  let nanos ← toFloat x nanos
  let seconds ← toFloat x seconds
  return x.round (seconds + x.round (nanos / 10 ^ 9))

def decodeRetryDelay (value : Bytes) : Except Raised (Option Rat) := do
  match ← demand ((fields value).search retryDelay?) .truncated with
  | none => return none
  | some v =>
    let (seconds, nanos) ← (fields v).foldM .truncated durationField (0, 0)
    return some (← delay x seconds nanos)

def errorInfoType : String := "type.googleapis.com/google.rpc.ErrorInfo"

def retryInfoType : String := "type.googleapis.com/google.rpc.RetryInfo"

def seamErrorInfo : List (String × Bytes) → Except Raised (Option ErrorInfo)
  | [] => .ok none
  | (typeUrl, value) :: details =>
    if typeUrl ≠ errorInfoType then seamErrorInfo details
    else do
      match ← handle Raised.isValueError none ((decodeErrorInfo x value).map some) with
      | none => return none
      | some info => if info.domain = seamErrorDomain then return some info else seamErrorInfo details

def reason (trailing : List (String × MetadataValue)) : Except Raised (Option String) := do
  let info ← seamErrorInfo x (← statusDetails x trailing)
  return info.map ErrorInfo.reason

def errorMetadata (trailing : List (String × MetadataValue)) : Except Raised (Option (List (String × String))) := do
  let info ← seamErrorInfo x (← statusDetails x trailing)
  return info.map ErrorInfo.metadata

def macpCode (trailing : List (String × MetadataValue)) : Except Raised (Option String) := do
  match ← seamErrorInfo x (← statusDetails x trailing) with
  | none => return none
  | some info => if info.reason ≠ protocolReason then return none else return getItem info.metadata "macp_code"

def retryAfter (trailing : List (String × MetadataValue)) : Except Raised (Option Rat) := do
  match (← statusDetails x trailing).find? fun d => d.1 == retryInfoType with
  | none => return none
  | some d => handle Raised.isValueError none (decodeRetryDelay x d.2)

end Python

/-! ## TypeScript -/

namespace TypeScript

def varint (shift out : Nat) : Bytes → Except String (Nat × Bytes)
  | [] => .error "truncated varint"
  | b :: buf =>
    if 63 < shift then .error "truncated varint"
    else
      let out := out ||| (b.toNat &&& 0x7F) <<< shift
      if b.toNat &&& 0x80 = 0 then .ok (out, buf) else varint (shift + 7) out buf

/-- One turn of `fields`. The number of a field becomes a double, which changes no comparison with a small one. -/
def nextField (buf : Bytes) : Except String (WireField × Bytes) := do
  let (key, buf) ← varint 0 0 buf
  let num := key >>> 3
  let wt := key &&& 7
  if wt = 0 then do
    let (v, buf) ← varint 0 0 buf
    return (⟨num, .varint v⟩, buf)
  else if wt = 2 then do
    let (n, buf) ← varint 0 0 buf
    if buf.length < n then throw "truncated field" else return (⟨num, .bytes (buf.take n)⟩, buf.drop n)
  else if wt = 1 then
    if buf.length < 8 then throw "truncated field" else return (⟨num, .fixed⟩, buf.drop 8)
  else if wt = 5 then
    if buf.length < 4 then throw "truncated field" else return (⟨num, .fixed⟩, buf.drop 4)
  else throw s!"unsupported wire type {wt}"

def fieldsGo : Nat → Bytes → Except String (List WireField)
  | _, [] => .ok []
  | 0, _ :: _ => .error "truncated field"
  | fuel + 1, b :: buf => do
    let (f, rest) ← nextField (b :: buf)
    return f :: (← fieldsGo fuel rest)

def fields (buf : Bytes) : Except String (List WireField) := fieldsGo buf.length buf

variable (x : StatusPlatform)

/-- `utf8.decode`, which is fatal. -/
def decode (b : Bytes) : Except String String :=
  match x.decodeUtf8 b with
  | some s => .ok s
  | none => .error "The encoded data was not valid for encoding utf-8"

def anyField (any : String × Bytes) : WireField → Except String (String × Bytes)
  | ⟨1, .bytes av⟩ => do
    return (← decode x av, any.2)
  | ⟨2, .bytes av⟩ => .ok (any.1, av)
  | _ => .ok any

/-- `t.substring(t.lastIndexOf("/") + 1)`. -/
def afterSlash (t : String) : String := String.ofList (t.toList.reverse.takeWhile (· ≠ '/')).reverse

def statusField (out : List (String × Bytes)) : WireField → Except String (List (String × Bytes))
  | ⟨3, .bytes v⟩ => do
    let any ← (← fields v).foldlM (anyField x) ("", [])
    return out ++ [(afterSlash any.1, any.2)]
  | _ => .ok out

/-- What the transport has parsed is taken as it is, the trailer otherwise. -/
def statusDetails (bufferFrom : String → Bytes) (details : List (String × Bytes)) (raw : Option String) :
    List (String × Bytes) :=
  let parsed := details.map fun d => (afterSlash d.1, d.2)
  if parsed ≠ [] then parsed
  else
    match raw with
    | none => []
    | some raw =>
      if raw = "" then []
      else
        match (fields (bufferFrom raw)).bind fun fs => fs.foldlM (statusField x) [] with
        | .ok out => out
        | .error _ => []

def entryField (entry : String × String) : WireField → Except String (String × String)
  | ⟨1, .bytes ev⟩ => do
    return (← decode x ev, entry.2)
  | ⟨2, .bytes ev⟩ => do
    return (entry.1, ← decode x ev)
  | _ => .ok entry

def errorInfoField (info : ErrorInfo) : WireField → Except String ErrorInfo
  | ⟨1, .bytes v⟩ => do
    return { info with reason := ← decode x v }
  | ⟨2, .bytes v⟩ => do
    return { info with domain := ← decode x v }
  | ⟨3, .bytes v⟩ => do
    let entry ← (← fields v).foldlM (entryField x) ("", "")
    return { info with metadata := setItem info.metadata entry.1 entry.2 }
  | _ => .ok info

def decodeErrorInfo (value : Bytes) : Except String ErrorInfo := do
  (← fields value).foldlM (errorInfoField x) ⟨"", "", []⟩

def errorInfoType : String := "google.rpc.ErrorInfo"

def retryInfoType : String := "google.rpc.RetryInfo"

def seamErrorInfo : List (String × Bytes) → Option ErrorInfo
  | [] => none
  | (type, value) :: details =>
    if type ≠ errorInfoType then seamErrorInfo details
    else
      match decodeErrorInfo x value with
      | .error _ => none
      | .ok info => if info.domain = seamErrorDomain then some info else seamErrorInfo details

def signed64 (v : Nat) : Int := if 2 ^ 63 ≤ v then (v : Int) - 2 ^ 64 else v

def durationField (d : Int × Int) : WireField → Except String (Int × Int)
  | ⟨1, .varint v⟩ => .ok (signed64 v, d.2)
  | ⟨2, .varint v⟩ => .ok (d.1, signed64 v)
  | _ => .ok d

def retryDelay? : WireField → Option Bytes
  | ⟨1, .bytes v⟩ => some v
  | _ => none

def decodeRetryDelay (value : Bytes) : Except String (Option Rat) := do
  match (← fields value).findSome? retryDelay? with
  | none => return none
  | some v =>
    let (seconds, nanos) ← (← fields v).foldlM durationField (0, 0)
    return some (x.round (x.round seconds + x.round (x.round nanos / 10 ^ 9)))

section Error

variable (bufferFrom : String → Bytes) (details : List (String × Bytes)) (raw : Option String)

def reason : Option String := (seamErrorInfo x (statusDetails x bufferFrom details raw)).map ErrorInfo.reason

def macpCode : Option String :=
  match seamErrorInfo x (statusDetails x bufferFrom details raw) with
  | none => none
  | some info => if info.reason ≠ protocolReason then none else getItem info.metadata "macp_code"

def retryAfter : Option Rat :=
  match (statusDetails x bufferFrom details raw).find? fun d => d.1 == retryInfoType with
  | none => none
  | some d => ((decodeRetryDelay x d.2).toOption).join

end Error

end TypeScript

end SeamSdk
