import SeamSdk.Verify.CmdChain

/-!
# Two transports, one event

A message is delivered as base64 of its encoding or as its JSON projection, and each line is read as the event of the
message.

- `Event.withIdentity_bytes_inj`: the identity of an event is all it says.
- `SeamEventJson.ofJson_toJson`: a projection is read back from the document it is written as.
- `SeamEventPb.parse_protobufLine`, `SeamEventPb.parse_jsonLine`: what each line is read as.
-/

namespace SeamSdk

open ByteCodec Checked SeamEventPb

/-! ## The identity of an event -/

/-- The events agree on everything but the bytes they are identified by. -/
def Event.SameFields (e f : Event) : Prop := { e with bytes := [] } = { f with bytes := [] }

/-- **The identity of an event is all it says.** -/
theorem Event.withIdentity_bytes_inj {e f : Event} :
    e.withIdentity.bytes = f.withIdentity.bytes ↔ e.SameFields f := by
  constructor
  · intro h
    have heq : e.withIdentity = f.withIdentity :=
      HasIdentity.eq_of_bytes_eq (withIdentity_hasIdentity e) (withIdentity_hasIdentity f) h
    exact congrArg (fun g : Event => { g with bytes := [] }) heq
  · intro h
    have hpb : Event.toPb { e with bytes := [] } = Event.toPb { f with bytes := [] } := congrArg Event.toPb h
    exact congrArg encodeToVec hpb

/-! ## Writing a projection -/

section Writing

open Serde

def jsonU64 (n : UInt64) : Json := .num (.int false n.toNat)

def jsonU32 (n : UInt32) : Json := .num (.int false n.toNat)

def jsonStrings (ss : List String) : Json := .arr (ss.map Json.str)

def record (slots : List (String × Option Json)) : Json := .obj (filled slots)

def DecisionSealedJson.slots (p : DecisionSealedJson) : List (String × Option Json) :=
  [("decision_id", some (.str p.decisionId)), ("tenant", some (.str p.tenant)),
    ("namespace", some (.str p.nameSpace)), ("mode", p.mode.map Json.str),
    ("policy_version", p.policyVersion.map Json.str), ("outcome", some (.str p.outcome)),
    ("supersedes", p.supersedes.map Json.str), ("sealed_at", some (jsonU64 p.sealedAt)),
    ("schema_version", some (jsonU32 p.schemaVersion)), ("ciphertext_digest", p.ciphertextDigest.map Json.str),
    ("context_digest", p.contextDigest.map Json.str), ("participation_digest", p.participationDigest.map Json.str),
    ("policy_rules_digest", p.policyRulesDigest.map Json.str), ("classification", p.classification.map Json.str),
    ("participants_digest", p.participantsDigest.map Json.str),
    ("trust_basis_commitment", p.trustBasisCommitment.map Json.str), ("auth_method", p.authMethod.map Json.str)]

def ErasureCertificateJson.slots (c : ErasureCertificateJson) : List (String × Option Json) :=
  [("subject", some (.str c.subject)), ("erased", some (jsonStrings c.erased)), ("held", some (jsonStrings c.held)),
    ("erased_at", some (jsonU64 c.erasedAt)), ("chain_head", some (.str c.chainHead)),
    ("issuer_aid", some (.str c.issuerAid)), ("signature", some (.str c.signature))]

def ChainHeadAttestationJson.slots (a : ChainHeadAttestationJson) : List (String × Option Json) :=
  [("attested_len", some (jsonU64 a.attestedLen)), ("attested_head", some (.str a.attestedHead)),
    ("attested_at", some (jsonU64 a.attestedAt)), ("issuer_aid", some (.str a.issuerAid)),
    ("digest_schema", some (jsonU32 a.digestSchema)), ("signature", some (.str a.signature)),
    ("tenant", some (.str a.tenant))]

def AuditEntry.slots (a : AuditEntry) : List (String × Option Json) :=
  [("action", some (.str a.action)), ("subject", some (.str a.subject)), ("reason", some (.str a.reason)),
    ("actor", a.actor.map Json.str)]

def PolicyDenied.slots (d : PolicyDenied) : List (String × Option Json) :=
  [("policy_version", some (.str d.policyVersion)), ("mode", some (.str d.mode)), ("reason", some (.str d.reason))]

def AuthorizeEvaluated.slots (a : AuthorizeEvaluated) : List (String × Option Json) :=
  [("authorize_id", some (.str a.authorizeId)), ("client_request_id", a.clientRequestId.map Json.str),
    ("agent_aid", some (.str a.agentAid)), ("agent_id", some (.str a.agentId)),
    ("tool_name", some (.str a.toolName)), ("tool_input_digest", some (.str a.toolInputDigest)),
    ("verdict", some (.str a.verdict)), ("reason", some (.str a.reason)),
    ("policy_version", some (.str a.policyVersion)), ("subject_digest", a.subjectDigest.map Json.str),
    ("subject_digests", some (jsonStrings a.subjectDigests))]

/-- The members of the event's object. What a payload that is not modelled holds is up to the writer (`contents`). -/
def SeamEventJson.slots (contents : String → List (String × Json)) (j : SeamEventJson) :
    List (String × Option Json) :=
  [("schema_version", some (.str j.schemaVersion)), ("event_id", some (.str j.eventId)),
    ("seq", some (jsonU64 j.seq)), ("occurred_at", some (jsonU64 j.occurredAt)), ("tenant", some (.str j.tenant)),
    ("namespace", some (.str j.nameSpace)), ("classification", some (.str j.classification)),
    ("kind", some (.str j.kind)), ("session_id", j.sessionId.map Json.str),
    ("prev_checksum", some (.str j.prevChecksum)), ("digest", j.digest.map Json.str),
    ("checksum", j.checksum.map Json.str), ("payload", j.payload.map fun p => record p.slots),
    ("audit_entry", j.auditEntry.map fun a => record a.slots),
    ("erasure_certificate", j.erasureCertificate.map fun c => record c.slots),
    ("chain_head_attestation", j.chainHeadAttestation.map fun a => record a.slots),
    ("authorize_evaluated", j.authorizeEvaluated.map fun a => record a.slots),
    ("policy_denied", j.policyDenied.map fun d => record d.slots), ("tenant_seq", j.tenantSeq.map jsonU64),
    ("stream_id", some (.str j.streamId)),
    ("learning_decision", j.learningDecision.map fun _ => .obj (contents "learning_decision")),
    ("learning_outcome", j.learningOutcome.map fun _ => .obj (contents "learning_outcome")),
    ("budget_breach", j.budgetBreach.map fun _ => .obj (contents "budget_breach")),
    ("session_lifecycle", j.sessionLifecycle.map fun _ => .obj (contents "session_lifecycle")),
    ("event_redriven", j.eventRedriven.map fun _ => .obj (contents "event_redriven"))]

/-- The document of a projection. -/
def SeamEventJson.toJson (contents : String → List (String × Json)) (j : SeamEventJson) : Json :=
  record (j.slots contents)

/-! ### Reading it back -/

section Members

variable {α β : Type} {slots : List (String × Option Json)} {i : Nat} {name : String} {b : β}
  (hnd : (slots.map Prod.fst).Nodup)

/-! A reader goes on with the member it has read. -/

theorem read_source {n : Nat} {f : Source → Option β} (hf : f (.map (filled slots)) = some b) :
    (source n (record slots) >>= f) = some b := hf

include hnd

theorem read_field {read : Json → Option α} {missing : Option α} {j : Json} {a : α} (hread : read j = some a)
    (hslot : slots[i]? = some (name, some j)) {f : α → Option β} (hf : f a = some b) :
    ((Source.map (filled slots)).field i name read missing >>= f) = some b := by
  rw [Source.field_filled hnd hslot, Option.elim_some, hread]
  exact hf

theorem read_optional {read : Json → Option α} {write : α → Json} (hread : ∀ a, read (write a) = some a)
    (hnull : ∀ a, write a ≠ .null) {a : Option α} (hslot : slots[i]? = some (name, a.map write))
    {f : Option α → Option β} (hf : f a = some b) :
    ((Source.map (filled slots)).optional i name read >>= f) = some b := by
  rw [Source.optional_filled hnd hread hnull hslot]
  exact hf

theorem read_text {s : String} {missing : Option String} (hslot : slots[i]? = some (name, some (.str s)))
    {f : String → Option β} (hf : f s = some b) :
    ((Source.map (filled slots)).field i name string missing >>= f) = some b :=
  read_field hnd (rfl : string (.str s) = some s) hslot hf

theorem read_label {s : Option String} (hslot : slots[i]? = some (name, s.map Json.str))
    {f : Option String → Option β} (hf : f s = some b) :
    ((Source.map (filled slots)).optional i name string >>= f) = some b :=
  read_optional hnd (fun s => (rfl : string (.str s) = some s)) (fun _ => Json.noConfusion) hslot hf

theorem read_record {read : Json → Option α} {write : α → List (String × Option Json)}
    (hread : ∀ a, read (record (write a)) = some a) {a : Option α}
    (hslot : slots[i]? = some (name, a.map fun a => record (write a))) {f : Option α → Option β}
    (hf : f a = some b) : ((Source.map (filled slots)).optional i name read >>= f) = some b :=
  read_optional hnd hread (fun _ => Json.noConfusion) hslot hf

theorem read_payload {ms : List (String × Json)} {u : Option Unit}
    (hslot : slots[i]? = some (name, u.map fun _ => .obj ms)) {f : Option Unit → Option β} (hf : f u = some b) :
    ((Source.map (filled slots)).optional i name anyObject >>= f) = some b :=
  read_optional hnd (fun u => (rfl : anyObject (.obj ms) = some u)) (fun _ => Json.noConfusion) hslot hf

end Members

theorem AuditEntry.ofJson_record (a : AuditEntry) : AuditEntry.ofJson (record a.slots) = some a := by
  have hnd : (a.slots.map Prod.fst).Nodup := by simp [AuditEntry.slots]
  exact read_source <| read_text hnd rfl <| read_text hnd rfl <| read_text hnd rfl <| read_label hnd rfl <| rfl

theorem PolicyDenied.ofJson_record (d : PolicyDenied) : PolicyDenied.ofJson (record d.slots) = some d := by
  have hnd : (d.slots.map Prod.fst).Nodup := by simp [PolicyDenied.slots]
  exact read_source <| read_text hnd rfl <| read_text hnd rfl <| read_text hnd rfl <| rfl

theorem AuthorizeEvaluated.ofJson_record (a : AuthorizeEvaluated) :
    AuthorizeEvaluated.ofJson (record a.slots) = some a := by
  have hnd : (a.slots.map Prod.fst).Nodup := by simp [AuthorizeEvaluated.slots]
  exact read_source <| read_text hnd rfl <| read_label hnd rfl <| read_text hnd rfl <| read_text hnd rfl <|
    read_text hnd rfl <| read_text hnd rfl <| read_text hnd rfl <| read_text hnd rfl <| read_text hnd rfl <|
    read_label hnd rfl <| read_field hnd (list_str _) rfl <| rfl

theorem ChainHeadAttestationJson.ofJson_record (a : ChainHeadAttestationJson) :
    ChainHeadAttestationJson.ofJson (record a.slots) = some a := by
  have hnd : (a.slots.map Prod.fst).Nodup := by simp [ChainHeadAttestationJson.slots]
  exact read_source <| read_field hnd (u64_num _) rfl <| read_text hnd rfl <| read_field hnd (u64_num _) rfl <|
    read_text hnd rfl <| read_field hnd (u32_num _) rfl <| read_text hnd rfl <| read_text hnd rfl <| rfl

theorem ErasureCertificateJson.ofJson_record (c : ErasureCertificateJson) :
    ErasureCertificateJson.ofJson (record c.slots) = some c := by
  have hnd : (c.slots.map Prod.fst).Nodup := by simp [ErasureCertificateJson.slots]
  exact read_source <| read_text hnd rfl <| read_field hnd (list_str _) rfl <| read_field hnd (list_str _) rfl <|
    read_field hnd (u64_num _) rfl <| read_text hnd rfl <| read_text hnd rfl <| read_text hnd rfl <| rfl

theorem DecisionSealedJson.ofJson_record (p : DecisionSealedJson) :
    DecisionSealedJson.ofJson (record p.slots) = some p := by
  have hnd : (p.slots.map Prod.fst).Nodup := by simp [DecisionSealedJson.slots]
  exact read_source <| read_text hnd rfl <| read_text hnd rfl <| read_text hnd rfl <| read_label hnd rfl <|
    read_label hnd rfl <| read_text hnd rfl <| read_label hnd rfl <| read_field hnd (u64_num _) rfl <|
    read_field hnd (u32_num _) rfl <| read_label hnd rfl <| read_label hnd rfl <| read_label hnd rfl <|
    read_label hnd rfl <| read_label hnd rfl <| read_label hnd rfl <| read_label hnd rfl <| read_label hnd rfl <| rfl

/-- **A projection is read back** from the document it is written as. -/
theorem SeamEventJson.ofJson_toJson (contents : String → List (String × Json)) (j : SeamEventJson) :
    SeamEventJson.ofJson (j.toJson contents) = some j := by
  have hnd : ((j.slots contents).map Prod.fst).Nodup := by simp [SeamEventJson.slots]
  exact read_source <| read_text hnd rfl <| read_text hnd rfl <| read_field hnd (u64_num _) rfl <|
    read_field hnd (u64_num _) rfl <| read_text hnd rfl <| read_text hnd rfl <| read_text hnd rfl <|
    read_text hnd rfl <| read_label hnd rfl <| read_text hnd rfl <| read_label hnd rfl <| read_label hnd rfl <|
    read_record hnd DecisionSealedJson.ofJson_record rfl <| read_record hnd AuditEntry.ofJson_record rfl <|
    read_record hnd ErasureCertificateJson.ofJson_record rfl <|
    read_record hnd ChainHeadAttestationJson.ofJson_record rfl <|
    read_record hnd AuthorizeEvaluated.ofJson_record rfl <| read_record hnd PolicyDenied.ofJson_record rfl <|
    read_optional hnd u64_num (fun _ => Json.noConfusion) rfl <| read_text hnd rfl <| read_payload hnd rfl <|
    read_payload hnd rfl <| read_payload hnd rfl <| read_payload hnd rfl <| read_payload hnd rfl <| rfl

end Writing

/-! ## The projection of a message -/

section Projection

variable (omitEmpty : Bool)

/-- A digest column; a writer may leave an empty one out. -/
def jsonColumn (b : Bytes) : Option String :=
  if omitEmpty ∧ b = [] then none else some (Base64.encodePadded Base64.standard b)

/-- A text column; a writer may leave an empty one out. -/
def jsonLabel (s : String) : Option String := if omitEmpty ∧ s = "" then none else some s

def Decision.projection (d : Decision) : DecisionSealedJson where
  decisionId := d.decisionId
  tenant := d.tenant
  nameSpace := d.nameSpace
  mode := d.mode
  policyVersion := d.policyVersion
  outcome := d.outcome
  supersedes := d.supersedes
  sealedAt := d.sealedAt
  schemaVersion := d.schemaVersion
  ciphertextDigest := jsonColumn omitEmpty d.ciphertextDigest
  contextDigest := jsonColumn omitEmpty d.contextDigest
  participationDigest := jsonColumn omitEmpty d.participationDigest
  policyRulesDigest := jsonColumn omitEmpty d.policyRulesDigest
  classification := jsonLabel omitEmpty d.classification
  participantsDigest := jsonColumn omitEmpty d.participantsDigest
  trustBasisCommitment := jsonLabel omitEmpty d.trustBasisCommitment
  authMethod := jsonLabel omitEmpty d.authMethod

def Cert.projection (c : Cert) : ErasureCertificateJson where
  subject := c.subject
  erased := c.erased
  held := c.held
  erasedAt := c.erasedAt
  chainHead := Base64.encodePadded Base64.standard c.chainHead
  issuerAid := c.issuerAid
  signature := Base64.encodePadded Base64.standard c.signature

def Attestation.projection (a : Attestation) : ChainHeadAttestationJson where
  attestedLen := a.attestedLen
  attestedHead := Base64.encodePadded Base64.standard a.attestedHead
  attestedAt := a.attestedAt
  issuerAid := a.issuerAid
  digestSchema := a.digestSchema
  signature := Base64.encodePadded Base64.standard a.signature
  tenant := a.tenant

/-- The JSON projection of a message: bytes are base64, and an absent optional is left out. -/
def SeamEventPb.projection (p : SeamEventPb) : SeamEventJson where
  schemaVersion := p.schemaVersion
  eventId := p.eventId
  seq := p.seq
  occurredAt := p.occurredAt
  tenant := p.tenant
  nameSpace := p.nameSpace
  classification := p.classification
  kind := p.kind
  sessionId := p.sessionId
  prevChecksum := Base64.encodePadded Base64.standard p.prevChecksum
  digest := p.digest.map (Base64.encodePadded Base64.standard)
  checksum := p.checksum.map (Base64.encodePadded Base64.standard)
  payload := p.payload.map (Decision.projection omitEmpty)
  auditEntry := p.auditEntry
  erasureCertificate := p.erasureCertificate.map Cert.projection
  chainHeadAttestation := p.chainHeadAttestation.map Attestation.projection
  authorizeEvaluated := p.authorizeEvaluated
  policyDenied := p.policyDenied
  tenantSeq := p.tenantSeq
  streamId := p.streamId
  learningDecision := p.learningDecision.map fun _ => ()
  learningOutcome := p.learningOutcome.map fun _ => ()
  budgetBreach := p.budgetBreach.map fun _ => ()
  sessionLifecycle := p.sessionLifecycle.map fun _ => ()
  eventRedriven := p.eventRedriven.map fun _ => ()

variable {omitEmpty}

theorem b64Column_jsonColumn (x : Externs) (b : Bytes) : b64Column x (jsonColumn omitEmpty b) = .ok b := by
  unfold jsonColumn
  split
  case isTrue h =>
    rw [h.2]
    rfl
  case isFalse =>
    rw [b64Column, Option.mapM_some, b64_encodePadded]
    rfl

theorem getD_jsonLabel (s : String) : (jsonLabel omitEmpty s).getD "" = s := by
  unfold jsonLabel
  split
  case isTrue h => exact h.2.symm
  case isFalse => rfl

theorem Decision.decision_projection (x : Externs) (d : Decision) : (d.projection omitEmpty).decision x = .ok d := by
  simp only [DecisionSealedJson.decision, projection, b64Column_jsonColumn, getD_jsonLabel, bind_ok, pure_ok]
  exact ⟨_, rfl, _, rfl, _, rfl, _, rfl, _, rfl, rfl⟩

theorem Cert.cert_projection (x : Externs) (c : Cert) : c.projection.cert x = .ok c := by
  simp only [ErasureCertificateJson.cert, projection, b64_encodePadded, bind_ok, pure_ok]
  exact ⟨_, rfl, _, rfl, rfl⟩

theorem Attestation.attestation_projection (x : Externs) (a : Attestation) : a.projection.attestation x = .ok a := by
  simp only [ChainHeadAttestationJson.attestation, projection, b64_encodePadded, bind_ok, pure_ok]
  exact ⟨_, rfl, _, rfl, rfl⟩

/-- **The projection is the event of its message.** -/
theorem SeamEventPb.event_projection (x : Externs) (p : SeamEventPb) (raw : Bytes) :
    (p.projection omitEmpty).event x = .ok (p.event raw) := by
  simp only [SeamEventJson.event, projection, bind_ok, pure_ok, b64_encodePadded,
    option_mapM_map (b64_encodePadded x), option_mapM_map (Cert.cert_projection x),
    option_mapM_map (Attestation.attestation_projection x), option_mapM_map (Decision.decision_projection x),
    Option.isSome_map]
  exact ⟨_, rfl, _, rfl, _, rfl, _, rfl, _, rfl, _, rfl, rfl⟩

end Projection

/-! ## The two lines of a message -/

section Lines

variable (x : Readers)

/-- The line is a JSON text of the message: it starts as an object, and the document it is read as is the projection,
under some writer. -/
def SeamEventPb.IsJsonLine (pb : SeamEventPb) (line : String) : Prop :=
  (RustText.trim line).toList.head? = some '{' ∧
    ∃ omitEmpty contents,
      x.jsonDocument (RustText.trim line) = some ((pb.projection omitEmpty).toJson contents)

variable {x}

theorem SeamEventPb.parse_jsonLine {pb : SeamEventPb} {line : String} (hschema : pb.schemaVersion ≠ "")
    (hid : pb.eventId ≠ "") (hline : pb.IsJsonLine x line) : Event.parse x line = .ok (pb.event pb.encodeToVec) := by
  obtain ⟨hhead, omitEmpty, contents, hdoc⟩ := hline
  simp only [Event.parse, if_pos hhead, Event.parseJson, hdoc, Option.bind_some, SeamEventJson.ofJson_toJson,
    bind_ok, demand_ok, refuse_ok, exists_const]
  exact ⟨_, rfl, not_or.mpr ⟨hschema, hid⟩, event_projection _ pb _⟩

/-- **An event is what its message says, whichever transport delivered it.** Its identity tells it from every other
event, and the base64 line and the JSON line of a message are read as one event, under a protobuf decoder that reads
the message back. -/
theorem identity_of_every_transport (x : Readers) :
    (∀ e f : Event, e.withIdentity.bytes = f.withIdentity.bytes ↔ e.SameFields f) ∧
    ∀ (pb : SeamEventPb) (line : String), pb.schemaVersion ≠ "" → pb.eventId ≠ "" →
      x.decodePb pb.encodeToVec = .ok pb → pb.IsJsonLine x line →
        ∃ e, Event.parse x pb.protobufLine = .ok e ∧ Event.parse x line = .ok e := by
  constructor
  · intro e f
    exact Event.withIdentity_bytes_inj
  · intro pb line hschema hid hdec hline
    exact ⟨_, pb.parse_protobufLine hschema hid hdec, pb.parse_jsonLine hschema hid hline⟩

end Lines

/-! ## A message to deliver -/

/-- The text of an object has no blanks around it. -/
theorem trim_text_obj (ms : List (String × Json)) : RustText.trim (Json.obj ms).text = (Json.obj ms).text := by
  have hopen : RustText.isWhitespace '{' = false := by decide
  have hclose : RustText.isWhitespace '}' = false := by decide
  simp [RustText.trim, RustText.trimChars, Json.text, Json.render, hopen, hclose]

/-- A decoder for one message and one document. -/
def Readers.delivering (pb : SeamEventPb) (doc : Json) : Readers :=
  { Readers.sample [] [] with
    jsonDocument := fun text => if text = doc.text then some doc else none
    decodePb := fun raw => if raw = pb.encodeToVec then .ok pb else .error "failed to decode" }

theorem Readers.delivering_jsonDocument (pb : SeamEventPb) (doc : Json) :
    (Readers.delivering pb doc).jsonDocument doc.text = some doc := if_pos rfl

theorem Readers.delivering_decodePb (pb : SeamEventPb) (doc : Json) :
    (Readers.delivering pb doc).decodePb pb.encodeToVec = .ok pb := if_pos rfl

/-- The text of a document is a line of the message. -/
theorem SeamEventPb.isJsonLine_text (pb : SeamEventPb) (omitEmpty : Bool) (contents : String → List (String × Json)) :
    let doc := (pb.projection omitEmpty).toJson contents
    pb.IsJsonLine (.delivering pb doc) doc.text := by
  intro doc
  have htrim : RustText.trim doc.text = doc.text := trim_text_obj _
  unfold IsJsonLine
  rw [htrim]
  exact ⟨by simp [doc, SeamEventJson.toJson, record, Json.text, Json.render], omitEmpty, contents,
    Readers.delivering_jsonDocument pb doc⟩

/-- A hold, with an outcome that is not modelled. -/
def SeamEventPb.delivered : SeamEventPb :=
  { (Event.holdPlaced "t" 1 []).toPb with
    eventId := "ev-1", digest := some [1, 2], learningOutcome := some [8, 1], tenantSeq := some 7 }

def SeamEventPb.deliveredDoc : Json := (delivered.projection true).toJson fun _ => [("rank", .num (.int false 1))]

theorem identity_of_every_transport_delivered :
    let x := Readers.delivering .delivered deliveredDoc
    delivered.IsJsonLine x deliveredDoc.text ∧
      ∃ e, Event.parse x delivered.protobufLine = .ok e ∧
        Event.parse x deliveredDoc.text = .ok e :=
  have hline := isJsonLine_text .delivered true fun _ => [("rank", .num (.int false 1))]
  ⟨hline, (identity_of_every_transport _).2 _ _ (by decide) (by decide) (Readers.delivering_decodePb _ _) hline⟩

end SeamSdk
