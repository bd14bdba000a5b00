import SeamSdk.Verify.Wire

/-!
# The identity of an event

Delivery is at least once and over two transports, so an event is identified by the protobuf encoding of its parsed
fields (`Event.withIdentity`), never by the bytes it arrived in. The encoding leaves no field out: two events with the
same identity are the same event (`HasIdentity.eq_of_bytes_eq`).
-/

namespace SeamSdk

open ByteCodec (Bytes)
open Protobuf

/-- The envelope, verification-relevant tags only. The five payloads that are not modelled are opaque bytes: only
their presence is read. -/
structure SeamEventPb where
  schemaVersion : String
  eventId : String
  seq : UInt64
  occurredAt : UInt64
  tenant : String
  nameSpace : String
  classification : String
  kind : String
  sessionId : Option String
  prevChecksum : Bytes
  payload : Option Decision
  learningDecision : Option Bytes
  learningOutcome : Option Bytes
  auditEntry : Option AuditEntry
  budgetBreach : Option Bytes
  erasureCertificate : Option Cert
  digest : Option Bytes
  checksum : Option Bytes
  sessionLifecycle : Option Bytes
  chainHeadAttestation : Option Attestation
  authorizeEvaluated : Option AuthorizeEvaluated
  policyDenied : Option PolicyDenied
  tenantSeq : Option UInt64
  eventRedriven : Option Bytes
  streamId : String
  deriving DecidableEq

/-! ## Messages by tag -/

def Decision.groups (d : Decision) : Groups :=
  [(1, string d.decisionId), (2, string d.tenant), (3, string d.nameSpace), (4, stringOpt d.mode),
    (5, stringOpt d.policyVersion), (6, string d.outcome), (7, stringOpt d.supersedes), (8, uint d.sealedAt.toNat),
    (9, uint d.schemaVersion.toNat), (10, bytes d.ciphertextDigest), (11, bytes d.contextDigest),
    (12, bytes d.participationDigest), (13, bytes d.policyRulesDigest), (14, string d.classification),
    (15, bytes d.participantsDigest), (16, string d.trustBasisCommitment), (17, string d.authMethod)]

def AuditEntry.groups (a : AuditEntry) : Groups :=
  [(1, string a.action), (2, string a.subject), (3, string a.reason), (4, stringOpt a.actor)]

def Cert.groups (c : Cert) : Groups :=
  [(1, string c.subject), (2, repeatedString c.erased), (3, repeatedString c.held), (4, uint c.erasedAt.toNat),
    (5, bytes c.chainHead), (6, string c.issuerAid), (7, bytes c.signature)]

def Attestation.groups (a : Attestation) : Groups :=
  [(1, uint a.attestedLen.toNat), (2, bytes a.attestedHead), (3, uint a.attestedAt.toNat), (4, string a.issuerAid),
    (5, uint a.digestSchema.toNat), (6, bytes a.signature), (7, string a.tenant)]

def AuthorizeEvaluated.groups (a : AuthorizeEvaluated) : Groups :=
  [(1, string a.authorizeId), (2, stringOpt a.clientRequestId), (3, string a.agentAid), (4, string a.agentId),
    (5, string a.toolName), (6, string a.toolInputDigest), (7, string a.verdict), (8, string a.reason),
    (9, string a.policyVersion), (10, stringOpt a.subjectDigest), (11, repeatedString a.subjectDigests)]

def PolicyDenied.groups (d : PolicyDenied) : Groups :=
  [(1, string d.policyVersion), (2, string d.mode), (3, string d.reason)]

def SeamEventPb.groups (p : SeamEventPb) : Groups :=
  [(1, string p.schemaVersion), (2, string p.eventId), (3, uint p.seq.toNat), (4, uint p.occurredAt.toNat),
    (5, string p.tenant), (6, string p.nameSpace), (7, string p.classification), (8, string p.kind),
    (9, stringOpt p.sessionId), (12, bytes p.prevChecksum), (13, messageOpt (p.payload.map Decision.groups)),
    (14, bytesOpt p.learningDecision), (15, bytesOpt p.learningOutcome),
    (16, messageOpt (p.auditEntry.map AuditEntry.groups)), (17, bytesOpt p.budgetBreach),
    (18, messageOpt (p.erasureCertificate.map Cert.groups)), (19, bytesOpt p.digest), (20, bytesOpt p.checksum),
    (21, bytesOpt p.sessionLifecycle), (22, messageOpt (p.chainHeadAttestation.map Attestation.groups)),
    (23, messageOpt (p.authorizeEvaluated.map AuthorizeEvaluated.groups)),
    (24, messageOpt (p.policyDenied.map PolicyDenied.groups)), (25, uintOpt (p.tenantSeq.map UInt64.toNat)),
    (26, bytesOpt p.eventRedriven), (27, string p.streamId)]

/-- `encode_to_vec`. -/
def SeamEventPb.encodeToVec (p : SeamEventPb) : Bytes := encodeMessage p.groups

/-! ## Giving an event its identity -/

/-- The envelope of an event. A present payload that is not modelled is an empty message, whichever transport
delivered it. -/
def Event.toPb (e : Event) : SeamEventPb where
  schemaVersion := "seam-event.v1"
  eventId := e.eventId
  seq := e.seq
  occurredAt := e.occurredAt
  tenant := e.tenant
  nameSpace := e.nameSpace
  classification := e.classification
  kind := e.kind
  sessionId := e.sessionId
  prevChecksum := e.prevChecksum
  payload := e.decision
  learningDecision := if e.presence.learningDecision then some [] else none
  learningOutcome := if e.presence.learningOutcome then some [] else none
  auditEntry := e.audit
  budgetBreach := if e.presence.budgetBreach then some [] else none
  erasureCertificate := e.cert
  digest := e.digest
  checksum := e.checksum
  sessionLifecycle := if e.presence.sessionLifecycle then some [] else none
  chainHeadAttestation := e.attestation
  authorizeEvaluated := e.authorize
  policyDenied := e.denial
  tenantSeq := e.tenantSeq
  eventRedriven := if e.presence.eventRedriven then some [] else none
  streamId := e.streamId

def Event.withIdentity (e : Event) : Event := { e with bytes := e.toPb.encodeToVec }

/-- The event carries its own identity. -/
def HasIdentity (e : Event) : Prop := e.bytes = e.toPb.encodeToVec

theorem Event.withIdentity_hasIdentity (e : Event) : HasIdentity e.withIdentity := rfl

/-- A message that names its schema is not empty: it starts with it. -/
theorem SeamEventPb.encodeToVec_ne_nil {p : SeamEventPb} (h : p.schemaVersion ≠ "") : p.encodeToVec ≠ [] := by
  have hschema : Protobuf.string p.schemaVersion = [.bytes (ByteCodec.utf8 p.schemaVersion)] := by
    rw [Protobuf.string, Protobuf.bytes, if_neg]
    intro hnil
    exact h (ByteCodec.utf8_inj.mp (hnil.trans rfl))
  simp only [SeamEventPb.encodeToVec, SeamEventPb.groups, hschema, encodeMessage, encode, Groups.fields_cons,
    List.map_cons, List.map_nil, List.singleton_append, List.flatMap_cons]
  exact List.append_ne_nil_of_left_ne_nil (Field.encode_ne_nil _) _

theorem Event.toPb_schemaVersion_ne (e : Event) : e.toPb.schemaVersion ≠ "" := show "seam-event.v1" ≠ "" by decide

/-! ## The encoding leaves nothing out -/

theorem Decision.groups_inj {d d' : Decision} (h : encodeMessage d.groups = encodeMessage d'.groups) : d = d' := by
  rw [encodeMessage_inj (List.range' 1 17) rfl rfl (by decide)] at h
  cases d
  cases d'
  simpa [groups, UInt64.toNat_inj, UInt32.toNat_inj] using h

theorem AuditEntry.groups_inj {a a' : AuditEntry} (h : encodeMessage a.groups = encodeMessage a'.groups) : a = a' := by
  rw [encodeMessage_inj (List.range' 1 4) rfl rfl (by decide)] at h
  cases a
  cases a'
  simpa [groups] using h

theorem Cert.groups_inj {c c' : Cert} (h : encodeMessage c.groups = encodeMessage c'.groups) : c = c' := by
  rw [encodeMessage_inj (List.range' 1 7) rfl rfl (by decide)] at h
  cases c
  cases c'
  simpa [groups, UInt64.toNat_inj] using h

theorem Attestation.groups_inj {a a' : Attestation} (h : encodeMessage a.groups = encodeMessage a'.groups) : a = a' := by
  rw [encodeMessage_inj (List.range' 1 7) rfl rfl (by decide)] at h
  cases a
  cases a'
  simpa [groups, UInt64.toNat_inj, UInt32.toNat_inj] using h

theorem AuthorizeEvaluated.groups_inj {a a' : AuthorizeEvaluated}
    (h : encodeMessage a.groups = encodeMessage a'.groups) : a = a' := by
  rw [encodeMessage_inj (List.range' 1 11) rfl rfl (by decide)] at h
  cases a
  cases a'
  simpa [groups] using h

theorem PolicyDenied.groups_inj {d d' : PolicyDenied} (h : encodeMessage d.groups = encodeMessage d'.groups) : d = d' := by
  rw [encodeMessage_inj (List.range' 1 3) rfl rfl (by decide)] at h
  cases d
  cases d'
  simpa [groups] using h

theorem uintOpt_toNat_inj {a b : Option UInt64} :
    uintOpt (a.map UInt64.toNat) = uintOpt (b.map UInt64.toNat) ↔ a = b := by
  rw [uintOpt_inj]
  exact (Option.map_injective fun _ _ => UInt64.toNat_inj.mp).eq_iff

theorem SeamEventPb.encodeToVec_inj {p q : SeamEventPb} (h : p.encodeToVec = q.encodeToVec) : p = q := by
  rw [encodeToVec, encodeToVec, encodeMessage_inj (List.range' 1 9 ++ List.range' 12 16) rfl rfl (by decide)] at h
  cases p
  cases q
  simpa [groups, UInt64.toNat_inj, uintOpt_toNat_inj, messageOpt_inj Decision.groups_inj,
    messageOpt_inj AuditEntry.groups_inj, messageOpt_inj Cert.groups_inj, messageOpt_inj Attestation.groups_inj,
    messageOpt_inj AuthorizeEvaluated.groups_inj, messageOpt_inj PolicyDenied.groups_inj, -uintOpt_inj] using h

/-- A presence slot is told from its encoding. -/
theorem presence_inj {b c : Bool} :
    ((if b then some [] else none : Option Bytes) = if c then some [] else none) ↔ b = c := by
  cases b <;> cases c <;> simp

/-- **Two events with the same identity are the same event.** -/
theorem HasIdentity.eq_of_bytes_eq {e f : Event} (he : HasIdentity e) (hf : HasIdentity f) (h : e.bytes = f.bytes) :
    e = f := by
  have hpb : e.toPb = f.toPb := SeamEventPb.encodeToVec_inj (he.symm.trans (h.trans hf))
  cases e
  cases f
  simp only [Event.toPb, SeamEventPb.mk.injEq, presence_inj] at hpb h
  simp [Event.mk.injEq, PayloadPresence.ext_iff, hpb, h]

end SeamSdk
