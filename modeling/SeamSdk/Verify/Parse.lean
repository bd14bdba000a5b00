import SeamSdk.Lib.Json
import SeamSdk.Verify.Externs
import SeamSdk.Verify.Identity

/-!
# Reading events and anchors

A line is the JSON projection of an event or its protobuf encoding in base64, and the verdict must not depend on
which. `Event.parse` reads either; `Attestation.parseDocument` reads an anchor, bare or as a whole event.

- `Event.parse_hasIdentity`: an event that was read carries its own identity.
-/

namespace SeamSdk

open ByteCodec Checked Event

/-- The documents that are read as a type of their own. -/
inductive JsonType
  | seamEvent
  | chainHeadAttestation
  deriving DecidableEq, Repr

/-- What reading takes from elsewhere: the JSON and protobuf decoders. -/
structure Readers extends Externs where
  /-- The document `serde_json` reads a typed value from, if the text is one. -/
  jsonDocument : String → Option Json
  /-- `serde_json::from_slice::<Value>`. -/
  jsonValue : Bytes → Except String Json
  /-- What `serde_json::Error` displays when the text is not a document of the type named. -/
  serdeError : JsonType → String → String
  /-- `SeamEventPb::decode`. -/
  decodePb : Bytes → Except String SeamEventPb
  /-- What `serde_json::Error` displays when the bytes are no document without repeated keys. -/
  strictError : Bytes → String
  /-- `Number::as_f64`, as the word of the double. -/
  f64OfNumber : JsonNumber → UInt64
  /-- A double under the format `{:?}`. -/
  debugF64 : UInt64 → String

/-! ## The JSON projection -/

/-- The projection of a `DECISION_SEALED` payload: digests are base64, and a missing one is an empty one. -/
structure DecisionSealedJson where
  decisionId : String
  tenant : String
  nameSpace : String
  mode : Option String
  policyVersion : Option String
  outcome : String
  supersedes : Option String
  sealedAt : UInt64
  schemaVersion : UInt32
  ciphertextDigest : Option String
  contextDigest : Option String
  participationDigest : Option String
  policyRulesDigest : Option String
  classification : Option String
  participantsDigest : Option String
  trustBasisCommitment : Option String
  authMethod : Option String

/-- The projection of an `ERASURE_CERTIFICATE` payload; every field is required. -/
structure ErasureCertificateJson where
  subject : String
  erased : List String
  held : List String
  erasedAt : UInt64
  chainHead : String
  issuerAid : String
  signature : String

/-- The projection of a `CHAIN_HEAD_ATTESTATION` payload; every field but the tenant is required. -/
structure ChainHeadAttestationJson where
  attestedLen : UInt64
  attestedHead : String
  attestedAt : UInt64
  issuerAid : String
  digestSchema : UInt32
  signature : String
  tenant : String

/-- The projection of an event; every field has a default. -/
structure SeamEventJson where
  schemaVersion : String
  eventId : String
  seq : UInt64
  occurredAt : UInt64
  tenant : String
  nameSpace : String
  classification : String
  kind : String
  sessionId : Option String
  prevChecksum : String
  digest : Option String
  checksum : Option String
  payload : Option DecisionSealedJson
  auditEntry : Option AuditEntry
  erasureCertificate : Option ErasureCertificateJson
  chainHeadAttestation : Option ChainHeadAttestationJson
  authorizeEvaluated : Option AuthorizeEvaluated
  policyDenied : Option PolicyDenied
  tenantSeq : Option UInt64
  streamId : String
  learningDecision : Option Unit
  learningOutcome : Option Unit
  budgetBreach : Option Unit
  sessionLifecycle : Option Unit
  eventRedriven : Option Unit

open Serde in
def DecisionSealedJson.ofJson (j : Json) : Option DecisionSealedJson := do
  let s ← source 17 j
  return {
    decisionId := ← s.text 0 "decision_id"
    tenant := ← s.text 1 "tenant"
    nameSpace := ← s.text 2 "namespace"
    mode := ← s.optional 3 "mode" string
    policyVersion := ← s.optional 4 "policy_version" string
    outcome := ← s.text 5 "outcome"
    supersedes := ← s.optional 6 "supersedes" string
    sealedAt := ← s.field 7 "sealed_at" u64 (some 0)
    schemaVersion := ← s.field 8 "schema_version" u32 (some 0)
    ciphertextDigest := ← s.optional 9 "ciphertext_digest" string
    contextDigest := ← s.optional 10 "context_digest" string
    participationDigest := ← s.optional 11 "participation_digest" string
    policyRulesDigest := ← s.optional 12 "policy_rules_digest" string
    classification := ← s.optional 13 "classification" string
    participantsDigest := ← s.optional 14 "participants_digest" string
    trustBasisCommitment := ← s.optional 15 "trust_basis_commitment" string
    authMethod := ← s.optional 16 "auth_method" string }

open Serde in
def ErasureCertificateJson.ofJson (j : Json) : Option ErasureCertificateJson := do
  let s ← source 7 j
  return {
    subject := ← s.field 0 "subject" string none
    erased := ← s.field 1 "erased" (list string) none
    held := ← s.field 2 "held" (list string) none
    erasedAt := ← s.field 3 "erased_at" u64 none
    chainHead := ← s.field 4 "chain_head" string none
    issuerAid := ← s.field 5 "issuer_aid" string none
    signature := ← s.field 6 "signature" string none }

open Serde in
def ChainHeadAttestationJson.ofJson (j : Json) : Option ChainHeadAttestationJson := do
  let s ← source 7 j
  return {
    attestedLen := ← s.field 0 "attested_len" u64 none
    attestedHead := ← s.field 1 "attested_head" string none
    attestedAt := ← s.field 2 "attested_at" u64 none
    issuerAid := ← s.field 3 "issuer_aid" string none
    digestSchema := ← s.field 4 "digest_schema" u32 none
    signature := ← s.field 5 "signature" string none
    tenant := ← s.text 6 "tenant" }

open Serde in
def AuditEntry.ofJson (j : Json) : Option AuditEntry := do
  let s ← source 4 j
  return {
    action := ← s.text 0 "action"
    subject := ← s.text 1 "subject"
    reason := ← s.text 2 "reason"
    actor := ← s.optional 3 "actor" string }

open Serde in
def PolicyDenied.ofJson (j : Json) : Option PolicyDenied := do
  let s ← source 3 j
  return {
    policyVersion := ← s.text 0 "policy_version"
    mode := ← s.text 1 "mode"
    reason := ← s.text 2 "reason" }

open Serde in
def AuthorizeEvaluated.ofJson (j : Json) : Option AuthorizeEvaluated := do
  let s ← source 11 j
  return {
    authorizeId := ← s.text 0 "authorize_id"
    clientRequestId := ← s.optional 1 "client_request_id" string
    agentAid := ← s.text 2 "agent_aid"
    agentId := ← s.text 3 "agent_id"
    toolName := ← s.text 4 "tool_name"
    toolInputDigest := ← s.text 5 "tool_input_digest"
    verdict := ← s.text 6 "verdict"
    reason := ← s.text 7 "reason"
    policyVersion := ← s.text 8 "policy_version"
    subjectDigest := ← s.optional 9 "subject_digest" string
    subjectDigests := ← s.field 10 "subject_digests" (list string) (some []) }

open Serde in
def SeamEventJson.ofJson (j : Json) : Option SeamEventJson := do
  let s ← source 25 j
  return {
    schemaVersion := ← s.text 0 "schema_version"
    eventId := ← s.text 1 "event_id"
    seq := ← s.field 2 "seq" u64 (some 0)
    occurredAt := ← s.field 3 "occurred_at" u64 (some 0)
    tenant := ← s.text 4 "tenant"
    nameSpace := ← s.text 5 "namespace"
    classification := ← s.text 6 "classification"
    kind := ← s.text 7 "kind"
    sessionId := ← s.optional 8 "session_id" string
    prevChecksum := ← s.text 9 "prev_checksum"
    digest := ← s.optional 10 "digest" string
    checksum := ← s.optional 11 "checksum" string
    payload := ← s.optional 12 "payload" DecisionSealedJson.ofJson
    auditEntry := ← s.optional 13 "audit_entry" AuditEntry.ofJson
    erasureCertificate := ← s.optional 14 "erasure_certificate" ErasureCertificateJson.ofJson
    chainHeadAttestation := ← s.optional 15 "chain_head_attestation" ChainHeadAttestationJson.ofJson
    authorizeEvaluated := ← s.optional 16 "authorize_evaluated" AuthorizeEvaluated.ofJson
    policyDenied := ← s.optional 17 "policy_denied" PolicyDenied.ofJson
    tenantSeq := ← s.optional 18 "tenant_seq" u64
    streamId := ← s.text 19 "stream_id"
    learningDecision := ← s.optional 20 "learning_decision" anyObject
    learningOutcome := ← s.optional 21 "learning_outcome" anyObject
    budgetBreach := ← s.optional 22 "budget_breach" anyObject
    sessionLifecycle := ← s.optional 23 "session_lifecycle" anyObject
    eventRedriven := ← s.optional 24 "event_redriven" anyObject }

/-! ## Events -/

section Columns

variable (x : Externs)

/-- A base64 column; a missing one is empty. -/
def b64Column (o : Option String) : Except String Bytes := do
  let b ← o.mapM (b64 x)
  return b.getD []

def ErasureCertificateJson.cert (c : ErasureCertificateJson) : Except String Cert := do
  let chainHead ← b64 x c.chainHead
  let signature ← b64 x c.signature
  return ⟨c.subject, c.erased, c.held, c.erasedAt, chainHead, c.issuerAid, signature⟩

def ChainHeadAttestationJson.attestation (a : ChainHeadAttestationJson) : Except String Attestation := do
  let attestedHead ← b64 x a.attestedHead
  let signature ← b64 x a.signature
  return ⟨a.attestedLen, attestedHead, a.attestedAt, a.issuerAid, a.digestSchema, signature, a.tenant⟩

def DecisionSealedJson.decision (p : DecisionSealedJson) : Except String Decision := do
  let ciphertextDigest ← b64Column x p.ciphertextDigest
  let contextDigest ← b64Column x p.contextDigest
  let participationDigest ← b64Column x p.participationDigest
  let policyRulesDigest ← b64Column x p.policyRulesDigest
  let participantsDigest ← b64Column x p.participantsDigest
  return {
    decisionId := p.decisionId, tenant := p.tenant, nameSpace := p.nameSpace, mode := p.mode
    policyVersion := p.policyVersion, outcome := p.outcome, supersedes := p.supersedes, sealedAt := p.sealedAt
    schemaVersion := p.schemaVersion
    ciphertextDigest, contextDigest, participationDigest, policyRulesDigest
    classification := p.classification.getD ""
    participantsDigest
    trustBasisCommitment := p.trustBasisCommitment.getD ""
    authMethod := p.authMethod.getD "" }

/-- The event of a projection. The columns are decoded in this order, and the first that is not base64 is named. -/
def SeamEventJson.event (j : SeamEventJson) : Except String Event := do
  let prevChecksum ← b64 x j.prevChecksum
  let digest ← j.digest.mapM (b64 x)
  let checksum ← j.checksum.mapM (b64 x)
  let cert ← j.erasureCertificate.mapM (ErasureCertificateJson.cert x)
  let attestation ← j.chainHeadAttestation.mapM (ChainHeadAttestationJson.attestation x)
  let decision ← j.payload.mapM (DecisionSealedJson.decision x)
  return withIdentity {
    eventId := j.eventId, seq := j.seq, occurredAt := j.occurredAt, tenant := j.tenant, nameSpace := j.nameSpace
    classification := j.classification, kind := j.kind, sessionId := j.sessionId
    prevChecksum, digest, checksum
    audit := j.auditEntry, authorize := j.authorizeEvaluated, denial := j.policyDenied
    tenantSeq := j.tenantSeq, streamId := j.streamId
    cert, attestation, decision
    presence := ⟨j.learningDecision.isSome, j.learningOutcome.isSome, j.budgetBreach.isSome,
      j.sessionLifecycle.isSome, j.eventRedriven.isSome⟩
    bytes := [] }

end Columns

/-- The event of a decoded message. -/
def SeamEventPb.event (pb : SeamEventPb) (raw : Bytes) : Event :=
  withIdentity {
    eventId := pb.eventId, seq := pb.seq, occurredAt := pb.occurredAt, tenant := pb.tenant
    nameSpace := pb.nameSpace, classification := pb.classification, kind := pb.kind, sessionId := pb.sessionId
    prevChecksum := pb.prevChecksum, digest := pb.digest, checksum := pb.checksum
    audit := pb.auditEntry, authorize := pb.authorizeEvaluated, denial := pb.policyDenied
    tenantSeq := pb.tenantSeq, streamId := pb.streamId
    cert := pb.erasureCertificate, attestation := pb.chainHeadAttestation, decision := pb.payload
    presence := ⟨pb.learningDecision.isSome, pb.learningOutcome.isSome, pb.budgetBreach.isSome,
      pb.sessionLifecycle.isSome, pb.eventRedriven.isSome⟩
    bytes := raw }

section Parse

variable (x : Readers)

/-- A line that starts as a JSON object is the projection. -/
def Event.parseJson (line : String) : Except String Event := do
  let j ← demand ((x.jsonDocument line).bind SeamEventJson.ofJson)
    ("not a seam-event.v1 JSON: " ++ x.serdeError .seamEvent line)
  refuse (j.schemaVersion = "" ∨ j.eventId = "") "no schema_version/event_id — this is not a seam-event.v1 event"
  j.event x.toExterns

/-- Any other line is a message in base64. A message has no required fields, so bytes that are no event may well
decode into one with every field at its default. -/
def Event.parseProtobuf (line : String) : Except String Event := do
  let raw ← (b64 x.toExterns line).mapError fun _ => "neither JSON nor base64 protobuf"
  refuse (raw = []) "empty event"
  let pb ← (x.decodePb raw).mapError fun e => "base64 decoded, but is not a seam-event.v1 protobuf: " ++ e
  refuse (pb.schemaVersion = "" ∨ pb.eventId = "")
    "decoded as protobuf but has no schema_version/event_id — not a seam-event.v1 event"
  return pb.event raw

def Event.parse (line : String) : Except String Event :=
  let line := RustText.trim line
  if line.toList.head? = some '{' then parseJson x line else parseProtobuf x line

/-! ## Anchors -/

/-- How the refusal of a self-contradicting anchor starts. -/
def anchorSelfContradicts : String := "ANCHOR SELF-CONTRADICTS"

def anchorSelfContradictsMessage (att : Attestation) (ev : Event) : String :=
  s!"{anchorSelfContradicts} — the attestation payload names tenant {x.debugStr att.tenant}, but its " ++
  s!"envelope says {x.debugStr ev.tenant}. One of the two is a lie, and an anchor this tool cannot " ++
  "attribute with confidence must never seed a verified start."

/-- The whole feed of anchors, where one of them was asked for. -/
def isAnchorFeed (raw : String) : Bool :=
  match x.jsonValue (utf8 raw) with
  | .ok v => (v.get? "anchors").isSome
  | .error _ => false

/-- An anchor is a whole event that carries an attestation, or the bare attestation. A bare one is no event, since
an event names its schema and id. -/
def Attestation.parseDocument (raw : String) : Except String Attestation := do
  let raw := RustText.trim raw
  refuse (isAnchorFeed x raw = true)
    ("this is the whole /v1/anchors feed — pick ONE element (e.g. jq -c " ++
      "'.anchors[0]') so the start you verify from is the start you chose")
  match parse x raw with
  | .ok ev =>
    let att ← demand ev.attestation "this seam-event.v1 event carries no chain_head_attestation"
    refuse (att.tenant ≠ ev.tenant) (anchorSelfContradictsMessage x att ev)
    return att
  | .error _ =>
    let j ← demand ((x.jsonDocument raw).bind ChainHeadAttestationJson.ofJson)
      ("not a CHAIN_HEAD_ATTESTATION in any recognised shape (a bare six-field object, or a " ++
        "seam-event.v1 event carrying one): " ++ x.serdeError .chainHeadAttestation raw)
    j.attestation x.toExterns

end Parse

/-! ## What is read -/

variable {x : Readers}

theorem SeamEventJson.event_hasIdentity {x : Externs} {j : SeamEventJson} {e : Event} (h : j.event x = .ok e) :
    HasIdentity e := by
  simp only [SeamEventJson.event, bind_ok, pure_ok] at h
  obtain ⟨_, _, _, _, _, _, _, _, _, _, _, _, rfl⟩ := h
  exact withIdentity_hasIdentity _

/-- **An event that was read carries its own identity.** -/
theorem Event.parse_hasIdentity {line : String} {e : Event} (h : parse x line = .ok e) : HasIdentity e := by
  simp only [parse] at h
  split at h
  · simp only [parseJson, bind_ok, refuse_ok, exists_const] at h
    obtain ⟨j, -, -, hj⟩ := h
    exact SeamEventJson.event_hasIdentity hj
  · simp only [parseProtobuf, bind_ok, refuse_ok, exists_const, pure_ok] at h
    obtain ⟨_, -, -, _, -, -, rfl⟩ := h
    exact withIdentity_hasIdentity _

/-! ## The protobuf transport -/

/-- The characters of base64 are neither blank nor a brace. -/
theorem plain_of_mem_encodePadded {b : Bytes} {c : Char}
    (h : c ∈ (Base64.encodePadded Base64.standard b).toList) : RustText.isWhitespace c = false ∧ c ≠ '{' := by
  rcases Base64.value_of_mem_encodePadded Base64.standard_lawful h with rfl | hv
  · decide
  · constructor
    · cases hw : RustText.isWhitespace c with
      | false => rfl
      | true =>
        have hr := Base64.standard_range hv
        simp only [RustText.isWhitespace, Bool.or_eq_true, Bool.and_eq_true, decide_eq_true_eq, beq_iff_eq] at hw
        omega
    · rintro rfl
      cases hv

theorem b64_encodePadded (x : Externs) (b : Bytes) : b64 x (Base64.encodePadded Base64.standard b) = .ok b := by
  rw [b64, demand_ok]
  exact Base64.decodePadded_encodePadded Base64.standard_lawful rfl b

/-- A message as it is delivered: one line of base64. -/
def SeamEventPb.protobufLine (pb : SeamEventPb) : String := Base64.encodePadded Base64.standard pb.encodeToVec

/-- An event as a relay delivers it: one line of base64. -/
def Event.protobufLine (e : Event) : String := Base64.encodePadded Base64.standard e.toPb.encodeToVec

/-- The characters of a line are neither blank nor a brace. -/
theorem Event.plain_of_mem_protobufLine {e : Event} {c : Char} (h : c ∈ e.protobufLine.toList) :
    RustText.isWhitespace c = false ∧ c ≠ '{' :=
  plain_of_mem_encodePadded h

/-- **The line of a message is read as its event**, by a decoder that reads the message back. -/
theorem SeamEventPb.parse_protobufLine {pb : SeamEventPb} (hschema : pb.schemaVersion ≠ "") (hid : pb.eventId ≠ "")
    (hdec : x.decodePb pb.encodeToVec = .ok pb) : parse x pb.protobufLine = .ok (pb.event pb.encodeToVec) := by
  have htrim : RustText.trim pb.protobufLine = pb.protobufLine :=
    RustText.trim_eq_self fun c hc => (plain_of_mem_encodePadded hc).1
  have hhead : pb.protobufLine.toList.head? ≠ some '{' := by
    intro h
    exact (plain_of_mem_encodePadded (List.mem_of_mem_head? h)).2 rfl
  have hb64 : b64 x.toExterns pb.protobufLine = .ok pb.encodeToVec := b64_encodePadded _ _
  simp only [parse, htrim, if_neg hhead, parseProtobuf, bind_ok, refuse_ok, exists_const, pure_ok,
    mapError_ok, hb64]
  exact ⟨_, rfl, encodeToVec_ne_nil hschema, pb, hdec, not_or.mpr ⟨hschema, hid⟩, rfl⟩

/-- Decoding the envelope of an event gives the event. -/
theorem Event.toPb_event (e : Event) (raw : Bytes) : e.toPb.event raw = e.withIdentity := by
  have hpresence : ∀ b : Bool, (if b then some [] else none : Option Bytes).isSome = b := by decide
  simp only [SeamEventPb.event, toPb, hpresence, withIdentity]

/-- **A line is read back**, by a decoder that reads the message back. -/
theorem Event.parse_protobufLine {e : Event} (hid : e.eventId ≠ "")
    (hdec : x.decodePb e.toPb.encodeToVec = .ok e.toPb) : parse x e.protobufLine = .ok e.withIdentity := by
  rw [← toPb_event e e.toPb.encodeToVec]
  exact SeamEventPb.parse_protobufLine e.toPb_schemaVersion_ne hid hdec

end SeamSdk
