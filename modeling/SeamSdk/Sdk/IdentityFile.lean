import SeamSdk.Lib.CodePoints
import SeamSdk.Sdk.AgentKey
import SeamSdk.Sdk.DecisionId
import SeamSdk.Sdk.JsonLoads

/-!
# The bootstrap file of an agent

`load_identity_file` and `load_identity_facts` read a JSON file and check its fields with one validator. A text of Python
is a list of code points here, which may be surrogates. What the interpreter does with values that the loaders only print
is given by `Interpreter`.

`_identity_file_body` writes such a file with `json.dumps`, which escapes everything that is not printable ASCII.
-/

namespace SeamSdk.Python

open ByteCodec Checked JsonGrammar Pattern Utf16

variable {F : Type}

/-- What the loaders use of the interpreter besides reading texts: the text of a `JSONDecodeError` for a document, `repr`,
and `str` of a value that is no string. The last two are total here: they write no integer with more digits and go no deeper
than `json.load` did for the value. -/
structure Interpreter (F : Type) extends Floats F, Literals F where
  decodeMessage : List Char → String
  repr : Loaded F → String
  str : Loaded F → List CodePoint

/-- What loading can raise. An `IdentityFileError` is a `ValueError`, but not the other way round. -/
inductive IdentityRaised
  | identityFile (message : String)
  | unicodeDecodeError
  | valueError
  | recursionError
  | osError
  deriving DecidableEq

/-- Why a file is not opened. -/
inductive OpenFailure
  | notFound
  | other

/-! ## Agents -/

structure Agent where
  seed : Bytes
  length_seed : seed.length = 32

def Agent.ofSeed (seed : Bytes) : Except IdentityRaised Agent :=
  if h : seed.length = 32 then .ok ⟨seed, h⟩ else .error .valueError

section Keys

variable (k : Signer)

/-- The AID of a seed. -/
def deriveAid (seed : Bytes) : Except IdentityRaised String := do
  let pub ← demand (k.publicKey seed) .valueError
  return aidFromPubkey pub

def Agent.aid (agent : Agent) : Except IdentityRaised String := deriveAid k agent.seed

end Keys

/-! ## Values -/

/-- A text of the source. -/
def codes (s : String) : List CodePoint := s.toList.map CodePoint.ofChar

abbrev Dict (F : Type) := List (List CodePoint × Loaded F)

namespace Dict

/-- `data.get(k, default)`. -/
def get (data : Dict F) (k : String) (default : Loaded F) : Loaded F :=
  ((data.find? fun m => m.1 == codes k).map Prod.snd).getD default

/-- `k in data`. -/
def hasKey (data : Dict F) (k : String) : Bool := data.any fun m => m.1 == codes k

end Dict

namespace Loaded

def asStr? : Loaded F → Option (List CodePoint)
  | .str s => some s
  | _ => Option.none

/-- `bool(v)`. -/
def truthy : Loaded F → Bool
  | .none => false
  | .bool b => b
  | .int n => n ≠ 0
  | .float (.zero _) => false
  | .float _ => true
  | .str s => s ≠ []
  | .list items => !items.isEmpty
  | .dict members => !members.isEmpty

end Loaded

section Interpreter

variable (x : Interpreter F)

/-- `v == 1`, which holds of `True` and of `1.0` too. -/
def isOne : Loaded F → Bool
  | .bool b => b
  | .int n => n = 1
  | .float (.finite v) => (x.shortest v).value = 1
  | _ => false

/-- `str(v)`. -/
def strOf : Loaded F → List CodePoint
  | .str s => s
  | v => x.str v

end Interpreter

/-! ## Validation -/

def envPointer : String := "SEAM_BOOTSTRAP_FILE"

def schemaVersion : String := "1"

def seedLenMessage : String := "seed_hex must be exactly 64 hex chars (a 32-byte Ed25519 seed)"

def seedHexRe : List Nat → Bool := repeated hexChar 64 (some 64)

def aidRe : List Nat → Bool := sequenceOf ("aid:pubkey:ed25519:".toList.map char ++ List.replicate 43 tokenChar)

/-- `open` in text mode ends every line with a line feed. -/
def universalNewlines : List Char → List Char
  | [] => []
  | '\r' :: '\n' :: s => '\n' :: universalNewlines s
  | '\r' :: s => '\n' :: universalNewlines s
  | c :: s => c :: universalNewlines s

def requiredFields : List String := ["agent_id", "tenant", "endpoint"]

section Loading

variable (x : Interpreter F) (files : String → Except OpenFailure Bytes) (env : Option String)

/-- `json.load` of the file, with its handlers. -/
def readJson (resolved : String) : Except IdentityRaised (Loaded F) :=
  match files resolved with
  | .error .notFound => .error (.identityFile s!"bootstrap file not found: {resolved}")
  | .error .other => .error .osError
  | .ok raw =>
    match ofUtf8? raw with
    | none => .error .unicodeDecodeError
    | some text =>
      match jsonLoad x.toLiterals (universalNewlines text.toList) with
      | .ok data => .ok data
      | .error .malformed => .error (.identityFile
          s!"bootstrap file is not valid JSON: {resolved}: {x.decodeMessage (universalNewlines text.toList)}")
      | .error .literal => .error .valueError
      | .error .nesting => .error .recursionError

/-- The checks of the fields. -/
def validate (data : Dict F) : Except IdentityRaised Unit := do
  let version := data.get "version" .none
  refuse (isOne x version = false) (.identityFile
    s!"bootstrap schema version {x.repr version} unsupported (want {schemaVersion})")
  let seedHex ← demand ((data.get "seed_hex" (.str [])).asStr?.filter fun s => s.length = 64)
    (.identityFile seedLenMessage)
  refuse (seedHexRe (seedHex.map Fin.val) = false) (.identityFile "seed_hex is not valid hex")
  let missing := requiredFields.filter fun k => !(data.get k .none).truthy
  refuse (missing ≠ []) (.identityFile
    ("bootstrap file missing required field(s): " ++ ", ".intercalate missing))
  refuse (data.hasKey "aid" = true ∧ (data.get "aid" .none).asStr?.any (fun s => aidRe (s.map Fin.val)) = false)
    (.identityFile "aid is malformed")

def resolvedPath (path : Option String) : String := path.getD (env.getD "")

def readAndValidate (path : Option String) : Except IdentityRaised (Dict F) := do
  let resolved := resolvedPath env path
  refuse (resolved = "") (.identityFile
    s!"no bootstrap file: pass a path or set ${envPointer} (one JSON + env pointer is the custody contract)")
  let data ← readJson x files resolved
  match data with
  | .dict members =>
    validate x members
    return members
  | _ => .error (.identityFile s!"bootstrap file is not a JSON object: {resolved}")

/-! ## Loaders -/

/-- `bytes.fromhex`, which skips ASCII whitespace between bytes. -/
def fromHex : List Nat → Option Bytes
  | [] => some []
  | n :: s =>
    if n = 32 ∨ 9 ≤ n ∧ n ≤ 13 then fromHex s
    else
      match s with
      | [] => none
      | m :: s => do
        let high ← hexDigitValue n
        let low ← hexDigitValue m
        let rest ← fromHex s
        return UInt8.ofNat (16 * high + low) :: rest

/-- `_decode_seed(data["seed_hex"])`. -/
def decodeSeed (data : Dict F) : Except IdentityRaised Bytes :=
  demand ((data.get "seed_hex" .none).asStr?.bind fun s => fromHex (s.map Fin.val)) .valueError

structure LoadedIdentity where
  agent : Agent
  agentId : List CodePoint
  tenant : List CodePoint
  endpoint : List CodePoint

structure IdentityFacts where
  agentId : List CodePoint
  tenant : List CodePoint
  endpoint : List CodePoint
  aid : List CodePoint

variable (k : Signer)

def loadIdentityFile (path : Option String) : Except IdentityRaised LoadedIdentity := do
  let data ← readAndValidate x files env path
  let agent ← Agent.ofSeed (← decodeSeed data)
  if data.hasKey "aid" then
    let aid ← agent.aid k
    refuse ((data.get "aid" .none).asStr? ≠ some (codes aid)) (.identityFile "recorded aid does not match seed_hex")
  return {
    agent
    agentId := strOf x (data.get "agent_id" .none)
    tenant := strOf x (data.get "tenant" .none)
    endpoint := strOf x (data.get "endpoint" .none) }

def loadIdentityFacts (path : Option String) : Except IdentityRaised IdentityFacts := do
  let data ← readAndValidate x files env path
  let aid ← if data.hasKey "aid" then .ok (strOf x (data.get "aid" .none))
    else (do return codes (← deriveAid k (← decodeSeed data)))
  return {
    agentId := strOf x (data.get "agent_id" .none)
    tenant := strOf x (data.get "tenant" .none)
    endpoint := strOf x (data.get "endpoint" .none)
    aid }

end Loading

/-! ## The body of a file -/

/-- `\uXXXX`. -/
def unicodeEscape (n : Nat) : List Char :=
  ['\\', 'u', hexDigit (n / 4096), hexDigit (n / 256), hexDigit (n / 16), hexDigit n]

/-- A code point in `py_encode_basestring_ascii`. -/
def escapeAscii (p : CodePoint) : List Char :=
  match p.val with
  | 0x08 => ['\\', 'b']
  | 0x09 => ['\\', 't']
  | 0x0A => ['\\', 'n']
  | 0x0C => ['\\', 'f']
  | 0x0D => ['\\', 'r']
  | 0x22 => ['\\', '"']
  | 0x5C => ['\\', '\\']
  | n =>
    if 0x20 ≤ n ∧ n ≤ 0x7E then [Char.ofNat n]
    else if n < 0x10000 then unicodeEscape n
    else unicodeEscape (0xD800 + (n - 0x10000) / 0x400) ++ unicodeEscape (0xDC00 + (n - 0x10000) % 0x400)

def dumpsString (s : List CodePoint) : List Char := '"' :: s.flatMap escapeAscii ++ ['"']

/-- A member on a line of its own. -/
def dumpsMember (m : String × List Char) : List Char :=
  "\n  ".toList ++ dumpsString (codes m.1) ++ [':', ' '] ++ m.2

/-- `json.dumps(members, indent=2)`, for members whose values are on one line. -/
def dumpsIndented (members : List (String × List Char)) : List Char :=
  '{' :: List.intercalate [','] (members.map dumpsMember) ++ ['\n', '}']

def hexText (b : Bytes) : String := RustText.hex b

def identityMembers (agent : Agent) (aid : String) (agentId tenant endpoint : List CodePoint) :
    List (String × List Char) :=
  [("version", schemaVersion.toList), ("seed_hex", dumpsString (codes (hexText agent.seed))),
    ("agent_id", dumpsString agentId), ("tenant", dumpsString tenant), ("endpoint", dumpsString endpoint),
    ("aid", dumpsString (codes aid))]

def identityFileBody (k : Signer) (agent : Agent) (agentId tenant endpoint : List CodePoint) :
    Except IdentityRaised Bytes := do
  let aid ← agent.aid k
  return utf8 (String.ofList (dumpsIndented (identityMembers agent aid agentId tenant endpoint))) ++ utf8 "\n"

end SeamSdk.Python
