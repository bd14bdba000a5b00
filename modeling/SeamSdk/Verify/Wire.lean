import SeamSdk.Lib.Protobuf

/-!
# The `seam-event.v1` wire format

`Event` is the one shape the verifier works on. It is a link of the chain when it carries `digest` and `checksum`,
whatever its kind (`Event.isLink`). The protobuf payload messages have the fields of `Decision`, `AuditEntry`, `Cert`
and `Attestation` under their tags, so they share those types here.
-/

namespace SeamSdk

open ByteCodec (Bytes)

/-- The `AUDIT_ENTRY` payload. -/
structure AuditEntry where
  action : String
  subject : String
  reason : String
  actor : Option String
  deriving DecidableEq, Repr

/-- The `DECISION_SEALED` payload. An empty digest slot or label is an absent one. -/
structure Decision where
  decisionId : String
  tenant : String
  nameSpace : String
  mode : Option String
  policyVersion : Option String
  outcome : String
  supersedes : Option String
  sealedAt : UInt64
  schemaVersion : UInt32
  ciphertextDigest : Bytes
  contextDigest : Bytes
  participationDigest : Bytes
  policyRulesDigest : Bytes
  classification : String
  participantsDigest : Bytes
  trustBasisCommitment : String
  authMethod : String
  deriving DecidableEq, Repr

/-- The `ERASURE_CERTIFICATE` payload. -/
structure Cert where
  subject : String
  erased : List String
  held : List String
  erasedAt : UInt64
  chainHead : Bytes
  issuerAid : String
  signature : Bytes
  deriving DecidableEq, Repr

/-- The `CHAIN_HEAD_ATTESTATION` payload: the issuer's signature over a length and the head there. -/
structure Attestation where
  attestedLen : UInt64
  attestedHead : Bytes
  attestedAt : UInt64
  issuerAid : String
  digestSchema : UInt32
  signature : Bytes
  tenant : String
  deriving DecidableEq, Repr

/-- The advisory `AUTHORIZE_EVALUATED` payload. -/
structure AuthorizeEvaluated where
  authorizeId : String
  clientRequestId : Option String
  agentAid : String
  agentId : String
  toolName : String
  toolInputDigest : String
  verdict : String
  reason : String
  policyVersion : String
  subjectDigest : Option String
  subjectDigests : List String
  deriving DecidableEq, Repr

/-- The advisory `POLICY_DENIED` payload. -/
structure PolicyDenied where
  policyVersion : String
  mode : String
  reason : String
  deriving DecidableEq, Repr

/-- Which of the five payloads the verifier does not model an event carried. -/
@[ext] structure PayloadPresence where
  learningDecision : Bool
  learningOutcome : Bool
  budgetBreach : Bool
  sessionLifecycle : Bool
  eventRedriven : Bool
  deriving DecidableEq, Repr

structure Event where
  eventId : String
  seq : UInt64
  occurredAt : UInt64
  tenant : String
  nameSpace : String
  classification : String
  kind : String
  sessionId : Option String
  prevChecksum : Bytes
  digest : Option Bytes
  checksum : Option Bytes
  audit : Option AuditEntry
  authorize : Option AuthorizeEvaluated
  denial : Option PolicyDenied
  tenantSeq : Option UInt64
  streamId : String
  cert : Option Cert
  attestation : Option Attestation
  decision : Option Decision
  presence : PayloadPresence
  bytes : Bytes
  deriving DecidableEq, Repr

/-- The kinds that carry no chain fields by design. -/
def advisoryKinds : List String :=
  ["LEARNING_DECISION", "LEARNING_OUTCOME", "BUDGET_BREACH", "SESSION_LIFECYCLE", "AUTHORIZE_EVALUATED",
    "POLICY_DENIED", "EVENT_REDRIVEN"]

/-- Every kind the verifier was written against. -/
def modelledKinds : List String :=
  ["DECISION_SEALED", "AUDIT_ENTRY", "LEARNING_DECISION", "LEARNING_OUTCOME", "BUDGET_BREACH",
    "ERASURE_CERTIFICATE", "CHAIN_HEAD_ATTESTATION", "SESSION_LIFECYCLE", "AUTHORIZE_EVALUATED", "POLICY_DENIED",
    "EVENT_REDRIVEN"]

namespace Event

/-- An event with nothing but its envelope. -/
def bare (tenant kind : String) (seq : UInt64) : Event where
  eventId := ""
  seq := seq
  occurredAt := 0
  tenant := tenant
  nameSpace := ""
  classification := ""
  kind := kind
  sessionId := none
  prevChecksum := []
  digest := none
  checksum := none
  audit := none
  authorize := none
  denial := none
  tenantSeq := none
  streamId := ""
  cert := none
  attestation := none
  decision := none
  presence := ⟨false, false, false, false, false⟩
  bytes := []

/-- A link by field presence, never by kind. -/
def isLink (e : Event) : Bool := e.digest.isSome && e.checksum.isSome

/-- Unchained by design: an advisory kind, or the off-chain `chain_anchor` audit entry. -/
def isAdvisory (e : Event) : Bool :=
  advisoryKinds.contains e.kind || e.audit.any fun a => a.action == "chain_anchor"

def isModelled (e : Event) : Bool := modelledKinds.contains e.kind

/-- The digest of a link. -/
def linkDigest (e : Event) : Bytes := e.digest.getD []

/-- The head a link claims to produce. -/
def linkHead (e : Event) : Bytes := e.checksum.getD []

theorem isLink_iff {e : Event} : e.isLink = true ↔ ∃ d c, e.digest = some d ∧ e.checksum = some c := by
  simp only [isLink, Bool.and_eq_true, Option.isSome_iff_exists]
  exact ⟨fun ⟨⟨d, hd⟩, c, hc⟩ => ⟨d, c, hd, hc⟩, fun ⟨d, c, hd, hc⟩ => ⟨⟨d, hd⟩, c, hc⟩⟩

end Event

end SeamSdk
