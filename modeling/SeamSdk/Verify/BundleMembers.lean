import SeamSdk.Verify.Commitment
import SeamSdk.Verify.Entry

/-!
# The members of an evidence bundle

A bundle is a flat directory. Its manifest lists the other members; `commitment.json`, `binding.json` and
`context.json` are read here, each with the texts of its refusals. Digests are written in hexadecimal, which is read
back (`hexDecode_hex`).
-/

namespace SeamSdk

open ByteCodec Checked RustText

/-- The directory as the tool sees it: how it is displayed, and what reading a member gives. -/
structure BundleDir where
  path : String
  read : String → Except String Bytes

/-- Not a bundle at all, or a bundle refused at one of the six steps. -/
inductive BundleError
  | usage (message : String)
  | failed (step : Nat) (message : String)
  deriving DecidableEq, Repr

def BundleError.exitCode : BundleError → Nat
  | .usage _ => 1
  | .failed _ _ => 2

section Read

variable (x : Readers) (dir : BundleDir)

def readMember (name : String) (step : Nat) : Except BundleError Bytes :=
  (dir.read name).mapError fun e => .failed step s!"{name}: the manifest lists it, but it cannot be read: {e}"

def parseJson (b : Bytes) (name : String) (step : Nat) : Except BundleError Json :=
  (x.jsonValue b).mapError fun e => .failed step s!"{name} is not valid JSON: {e}"

def strField (v : Json) (key file : String) (step : Nat) : Except BundleError String :=
  demand ((v.get? key).bind Json.asStr?) (.failed step s!"{file}: missing string field '{key}'")

end Read

def b64Std (s : String) : Option Bytes := Base64.decodePadded Base64.standard s

/-- Two characters a byte. -/
def hexPairs : List Char → Option Bytes
  | [] => some []
  | [_] => none
  | c :: d :: cs => do
    let b ← u8FromHex [c, d]
    let bs ← hexPairs cs
    return b :: bs

/-- Pairs of digits; whatever `from_str_radix` takes for a byte counts as one. -/
def hexDecode (s : String) : Option Bytes :=
  if isAscii s = false ∨ s.toList.length % 2 ≠ 0 then none else hexPairs s.toList

theorem hexPairs_hex (b : Bytes) :
    hexPairs (b.flatMap fun n => [hexDigit (n.toNat / 16), hexDigit (n.toNat % 16)]) = some b := by
  have hbyte : ∀ n < 256, u8FromHex [hexDigit (n / 16), hexDigit (n % 16)] =
      some (UInt8.ofNat n) := by decide +kernel
  induction b with
  | nil => rfl
  | cons n b ih =>
    have hn := hbyte n.toNat n.toNat_lt
    rw [UInt8.ofNat_toNat] at hn
    simp [hexPairs, hn, ih]

/-- Hexadecimal text is read back. -/
theorem hexDecode_hex (b : Bytes) : hexDecode (hex b) = some b := by
  have hdigit : ∀ n < 16, (hexDigit n).toNat < 128 := by decide +kernel
  have hascii : isAscii (hex b) = true := by
    simp only [isAscii, hex, String.toList_ofList, List.all_eq_true, List.mem_flatMap,
      List.mem_cons, List.not_mem_nil, or_false, decide_eq_true_eq]
    rintro c ⟨n, -, rfl | rfl⟩
    · exact hdigit _ (Nat.div_lt_of_lt_mul n.toNat_lt)
    · exact hdigit _ (Nat.mod_lt _ (by decide))
  have heven : (hex b).toList.length % 2 = 0 := by
    simp [hex, List.length_flatMap]
  rw [hexDecode, if_neg (by simp [hascii, heven]), hex, String.toList_ofList]
  exact hexPairs_hex b

/-! ## `binding.json` -/

/-- The parts of an evidence binding. -/
def evidenceBindingParts (decisionId tenant : String) (recordChecksum commitmentDigest : Bytes) (boundAt : UInt64)
    (issuerAid : String) : List Bytes :=
  [utf8 "seam.evidence-binding.v1", utf8 decisionId, utf8 tenant, recordChecksum, commitmentDigest, u64le boundAt,
    utf8 issuerAid]

/-- The digest the issuer signs to tie a Commitment to a link. -/
def evidenceBindingDigest (x : Externs) (decisionId tenant : String) (recordChecksum commitmentDigest : Bytes)
    (boundAt : UInt64) (issuerAid : String) : Bytes :=
  framed x (evidenceBindingParts decisionId tenant recordChecksum commitmentDigest boundAt issuerAid)

/-! ## `context.json` -/

def receiptKeyStatuses : List String := ["Current", "Historical"]

/-- A required string of a binding. -/
def contextStr (b : Json) (k : String) : Except String String :=
  demand ((b.get? k).bind Json.asStr?) s!"context.json: missing string field '{k}'"

/-- An optional string of a binding; `null` is absent. -/
def contextOpt (b : Json) (k : String) : Except String (Option String) :=
  match b.get? k with
  | none | some .null => return none
  | some (.str v) => return some v
  | some _ => throw s!"context.json: '{k}' is not a string or null"

section Context

variable (x : Readers)

/-- The receipt slots are paired, and the status of the key is one of two words. -/
def checkReceipt (i : Nat) (b : Json) : Except String Unit := do
  let receipt ← contextOpt b "receipt_hash"
  let rks ← contextOpt b "receipt_key_status"
  refuse (receipt.isSome ≠ rks.isSome)
    (s!"context.json: binding {i}: receipt_key_status must be present exactly when " ++
      "receipt_hash is (unpaired receipt slots)")
  refuseSome (rks.filter fun v => !receiptKeyStatuses.contains v) fun v =>
    s!"context.json: binding {i}: receipt_key_status {x.debugStr v} is not one of " ++ "Current | Historical"

def checkReceipts : Nat → List Json → Except String Unit
  | _, [] => return ()
  | i, b :: bs => do
    checkReceipt x i b
    checkReceipts (i + 1) bs

/-- An entry of `derived_from`. -/
def derivedEntry (d : Json) : Except String String :=
  demand d.asStr? "context.json: 'derived_from' entries must be strings"

def contextVersion (b : Json) : Except String UInt32 :=
  demand ((b.get? "version").bind Serde.u32) "context.json: 'version' must be a u32"

/-- The parts of one binding, in the order they are hashed. -/
def contextParts (b : Json) : Except String (List Part) := do
  let ctxRef ← contextStr b "ctx_ref"
  let fidelity ← contextStr b "fidelity"
  let classification ← contextStr b "classification"
  let lineageId ← contextOpt b "lineage_id"
  let version ← contextVersion b
  let derived ← demand ((b.get? "derived_from").bind Json.asArr?) "context.json: missing array 'derived_from'"
  let derivedFrom ← derived.mapM derivedEntry
  let options ← ["content_hash", "receipt_hash", "key_status", "resolved_status", "receipt_key_status"].mapM
    (contextOpt b)
  return [.frame (utf8 ctxRef), .frame (utf8 fidelity), .frame (utf8 classification), .opt (lineageId.map utf8),
    .frame (u32le version), .raw (u32le (UInt32.ofNat derived.length))] ++ frames (derivedFrom.map utf8) ++
    options.map fun o => .opt (o.map utf8)

/-- The digest `seam.audit.context-provenance.v4` of the bindings, in the order given. -/
def contextDigest (ctx : Json) : Except String Bytes := do
  let bindings ← demand ((ctx.get? "bindings").bind Json.asArr?) "context.json: missing array 'bindings'"
  checkReceipts x 0 bindings
  let parts ← bindings.mapM contextParts
  return x.sha256 (layout (.frame (utf8 "seam.audit.context-provenance.v4") ::
    .raw (u32le (UInt32.ofNat bindings.length)) :: parts.flatten))

end Context

/-! ## `commitment.json` -/

section Commitment

variable (x : Readers)

def entryMessage (i : Nat) (m : String) : String := s!"commitment.json: explanation[{i}]: {m}"

/-- A text of an entry; a missing one is empty. -/
def entryText (i : Nat) (e : Json) (k : String) : Except String String :=
  match e.get? k with
  | none | some .null => return ""
  | some (.str s) => return s
  | some _ => throw (entryMessage i s!"'{k}' is not a string")

def entryConfidence (i : Nat) (e : Json) : Except String (Option UInt64) :=
  match e.get? "confidence" with
  | none | some .null => return none
  | some (.num n) => return some (x.f64OfNumber n)
  | some _ => throw (entryMessage i "'confidence' is not a number")

def entryRationaleRef (i : Nat) (e : Json) : Except String (Option String) :=
  match e.get? "rationale_ref" with
  | none | some .null => return none
  | some (.str s) => return some s
  | some _ => throw (entryMessage i "'rationale_ref' is not a string")

def parseEntry (i : Nat) (e : Json) : Except String ExplanationEntry := do
  let kind ← demand ((e.get? "kind").bind Json.asStr?) (entryMessage i "'kind' is not a string")
  let confidence ← entryConfidence x i e
  let rationaleRef ← entryRationaleRef i e
  let participant ← entryText i e "participant"
  let proposalId ← entryText i e "proposal_id"
  let value ← entryText i e "value"
  let reason ← entryText i e "reason"
  return ⟨kind, participant, proposalId, value, reason, confidence, rationaleRef⟩

def parseEntries : Nat → List Json → Except String (List ExplanationEntry)
  | _, [] => return []
  | i, e :: es => do
    let entry ← parseEntry x i e
    let entries ← parseEntries (i + 1) es
    return entry :: entries

/-- A required string of the Commitment. -/
def commitmentStr (c : Json) (k : String) : Except String String :=
  demand ((c.get? k).bind Json.asStr?) s!"commitment.json: missing string field '{k}'"

def commitmentSupersedes (c : Json) : Except String (Option String) :=
  match c.get? "supersedes" with
  | none | some .null => return none
  | some (.str s) => return some s
  | some _ => throw "commitment.json: 'supersedes' is not a string or null"

def parseCommitment (c : Json) : Except String Commitment := do
  let supersedes ← commitmentSupersedes c
  let entries ← demand ((c.get? "explanation").bind Json.asArr?) "commitment.json: missing array field 'explanation'"
  let explanation ← parseEntries x 0 entries
  return {
    id := ← commitmentStr c "id"
    action := ← commitmentStr c "action"
    authority := ← commitmentStr c "authority"
    supersedes
    authMethod := ← commitmentStr c "auth_method"
    trustBasis := ← commitmentStr c "trust_basis"
    committer := ← commitmentStr c "committer"
    explanation
    signedArtifact := ← commitmentStr c "signed_artifact" }

end Commitment

end SeamSdk
