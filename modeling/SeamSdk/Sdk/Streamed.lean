import SeamSdk.Sdk.CallSig
import SeamSdk.Sdk.Issued
import SeamSdk.Verify.Authenticity

/-!
# A streamed record, checked in the Python client

`verify_streamed_record_digest` recomputes the digest of one `DECISION_SEALED` as it arrives. It has three answers: the
record matches, it does not, or it raises, with a strip told apart from every other refusal. The verifier checks the same
columns in another order and stops at the first failure.

- `recordDigestV4_ok_iff`, `onlyStrips_recordDigestV4`: when the Python digest exists, and that it is refused as a strip;
- `streamed_record_agrees`: `True` is acceptance by the verifier, and a strip is raised where its digest is refused.
-/

namespace SeamSdk

open ByteCodec Checked

namespace Python

/-! ## The digest of a record -/

/-- What the record helpers raise. -/
inductive RecordError
  | valueError (message : String)
  | unsupportedRecordDigestVersion (message : String) (schemaVersion : UInt32)
  | recordDigestStripError (message field : String) (wireTag : Nat)
  | structError

def RecordError.isStrip : RecordError → Bool
  | .recordDigestStripError .. => true
  | _ => false

def recordDigestSchemaVersion : UInt32 := 4

def subDigestLen : Nat := 32

def unsupportedVersion (schemaVersion : UInt32) : RecordError :=
  .unsupportedRecordDigestVersion
    (s!"record digest schema_version {schemaVersion.toNat} cannot be verified: this SDK " ++
      s!"recomputes v{recordDigestSchemaVersion.toNat} only (v1-v3 were retired by P7)") schemaVersion

def missingDigest (name : String) (tag : Nat) : RecordError :=
  .recordDigestStripError
    (s!"a v4 record carries no {name} (wire tag {tag}), which the v4 formula requires. " ++
      "This is a STRIP, not a digest mismatch: refuse the record and do not substitute an empty digest.") name tag

def malformedDigest (name : String) (tag len : Nat) : RecordError :=
  .recordDigestStripError
    (s!"{name} (wire tag {tag}) is {len} bytes, not {subDigestLen} — malformed, so no v4 digest can be computed from " ++
      "it. Reported as a refusal rather than hashed, because hashing it would surface a malformed field as though the " ++
      "record had been rewritten.") name tag

/-- A sub-digest, which only an optional slot may lack. -/
def subDigest (name : String) (tag : Nat) (value : Option Bytes) (optional : Bool) :
    Except RecordError (Option Bytes) :=
  match value with
  | none => if optional then return none else throw (missingDigest name tag)
  | some raw => do
    refuse (optional = false ∧ raw = []) (missingDigest name tag)
    refuse (raw.length ≠ subDigestLen) (malformedDigest name tag raw.length)
    return some raw

def mandatoryText (name : String) (tag : Nat) (value : String) : Except RecordError String := do
  refuse (value = "") (.recordDigestStripError
    (s!"a v4 record carries no {name} (wire tag {tag}), which the v4 formula requires. " ++
      "This is a STRIP, not a digest mismatch: refuse the record.") name tag)
  return value

/-- The bytes of a framed slot or of an optional one. -/
def packPart : Part → Option Bytes
  | .opt none => some [0]
  | .opt (some b) => (frame b).map (1 :: ·)
  | .frame b => frame b
  | p => some p.bytes

/-- The slots of the preimage. Those of a mandatory digest are never `None`. -/
def recordSlots (d : Decision) (contextDigest participationDigest policyRulesDigest participantsDigest : Option Bytes) :
    List Part :=
  [.frame (utf8 "seam.audit.record-digest.v4"), .frame (utf8 d.decisionId), .frame (utf8 d.tenant),
    .frame (utf8 d.nameSpace), .frame d.ciphertextDigest, .frame (u64le d.sealedAt), .frame (utf8 d.outcome),
    .opt (d.mode.map utf8), .opt (d.policyVersion.map utf8), .opt (d.supersedes.map utf8),
    .frame (contextDigest.getD []), .frame (participationDigest.getD []), .opt policyRulesDigest,
    .frame (utf8 d.classification), .frame (participantsDigest.getD []), .frame (utf8 d.trustBasisCommitment),
    .frame (utf8 d.authMethod), .frame (u32le d.schemaVersion)]

section Check

variable (x : Python)

def recordDigestV4 (d : Decision) (policyRulesDigest : Option Bytes) : Except RecordError Bytes := do
  refuse (d.schemaVersion ≠ recordDigestSchemaVersion) (unsupportedVersion d.schemaVersion)
  let contextDigest ← subDigest "context_digest" 11 (some d.contextDigest) false
  let participationDigest ← subDigest "participation_digest" 12 (some d.participationDigest) false
  let policyRulesDigest ← subDigest "policy_rules_digest" 13 policyRulesDigest true
  let participantsDigest ← subDigest "participants_digest" 15 (some d.participantsDigest) false
  let _ ← mandatoryText "classification" 14 d.classification
  let _ ← mandatoryText "trust_basis_commitment" 16 d.trustBasisCommitment
  let _ ← mandatoryText "auth_method" 17 d.authMethod
  let pre ← demand
    ((recordSlots d contextDigest participationDigest policyRulesDigest participantsDigest).mapM packPart) .structError
  return x.sha256 pre.flatten

/-- An absent payload reads as one with every field at its default. -/
def defaultPayload : Decision :=
  ⟨"", "", "", none, none, "", none, 0, 0, [], [], [], [], "", [], "", ""⟩

def verifyStreamedRecordDigest (event : Event) : Except RecordError Bool := do
  refuse (event.kind ≠ "DECISION_SEALED") (.valueError s!"not a DECISION_SEALED event: {event.kind}")
  let p := event.decision.getD defaultPayload
  refuse (p.schemaVersion ≠ 4) (unsupportedVersion p.schemaVersion)
  let digest ← demand event.digest (.valueError "event carries no wire digest to compare against")
  if p.ciphertextDigest = [] then return false
  else do
    let policyRules := p.policyRulesDigest
    let recomputed ← recordDigestV4 x p (if policyRules = [] then none else some policyRules)
    return recomputed == digest

end Check

/-! ## When the digest exists -/

theorem packPart_eq {p : Part} (h : p.Short) : packPart p = some p.bytes := by
  have hframe : ∀ {b : Bytes}, b.length < 2 ^ 32 → frame b = some (ByteCodec.frame b) := by
    intro b hb
    rw [frame, packU32, if_pos hb]
    rfl
  cases p with
  | frame b => exact hframe h
  | opt o =>
    cases o with
    | none => rfl
    | some b =>
      rw [packPart, hframe (h b rfl)]
      rfl
  | raw | frame64 | opt64 | optRaw => rfl

theorem mapM_packPart {ps : List Part} (h : ∀ p ∈ ps, p.Short) : ps.mapM packPart = some (ps.map Part.bytes) :=
  mapM_some_map fun p hp => packPart_eq (h p hp)

variable {name : String} {tag : Nat}

theorem subDigest_mandatory {raw : Bytes} {o : Option Bytes} :
    subDigest name tag (some raw) false = .ok o ↔ raw.length = 32 ∧ some raw = o := by
  simp only [subDigest, bind_ok, refuse_ok, exists_const, pure_ok]
  constructor
  · intro h
    exact ⟨not_not.mp h.2.1, h.2.2⟩
  · intro h
    refine ⟨?_, not_not.mpr h.1, h.2⟩
    rintro ⟨-, rfl⟩
    cases h.1

theorem subDigest_optional {raw : Bytes} {o : Option Bytes} :
    subDigest name tag (if raw = [] then none else some raw) true = .ok o ↔
      (raw.length = 0 ∨ raw.length = 32) ∧ (if raw = [] then none else some raw) = o := by
  by_cases h : raw = []
  · subst h
    simp [subDigest, pure_ok]
  · have hne : raw.length ≠ 0 := fun h0 => h (List.length_eq_zero_iff.mp h0)
    rw [if_neg h]
    simp only [subDigest, bind_ok, refuse_ok, exists_const, pure_ok]
    constructor
    · intro hs
      exact ⟨Or.inr (not_not.mp hs.2.1), hs.2.2⟩
    · intro hs
      exact ⟨fun hm => Bool.noConfusion hm.1, not_not.mpr (hs.1.resolve_left hne), hs.2⟩

theorem mandatoryText_ok {value v : String} : mandatoryText name tag value = .ok v ↔ value ≠ "" ∧ value = v := by
  simp only [mandatoryText, bind_ok, refuse_ok, exists_const, pure_ok, ne_eq]

section Digest

variable {x : Python} {d : Decision}

/-- The slots as the wire values fill them. -/
theorem recordSlots_eq (d : Decision) (o : Option Bytes) :
    recordSlots d (some d.contextDigest) (some d.participationDigest) o (some d.participantsDigest) = recordParts d o :=
  rfl

variable (hshort : ∀ p ∈ recordParts d (policyRulesSlot d), p.Short)

include hshort

/-- A record of version 4 is hashed exactly when it is complete. -/
theorem recordDigestV4_ok_iff {b : Bytes} : recordDigestV4 x d (policyRulesSlot d) = .ok b ↔
    d.schemaVersion = recordDigestSchemaVersion ∧ V4Complete d ∧ x.sha256 (recordPreimage d) = b := by
  have hpack := mapM_packPart hshort
  have hflat : ((recordParts d (policyRulesSlot d)).map Part.bytes).flatten = recordPreimage d := rfl
  simp only [recordDigestV4, bind_ok, refuse_ok, exists_const, ne_eq, not_not, subDigest_mandatory, mandatoryText_ok,
    demand_ok, pure_ok]
  constructor
  · intro h
    obtain ⟨hversion, _, ⟨h11, rfl⟩, _, ⟨h12, rfl⟩, _, h13, _, ⟨h15, rfl⟩, h⟩ := h
    obtain ⟨_, ⟨h14, rfl⟩, _, ⟨h16, rfl⟩, _, ⟨h17, rfl⟩, pre, hpre, rfl⟩ := h
    obtain ⟨hlen, rfl⟩ := subDigest_optional.mp h13
    rw [recordSlots_eq] at hpre
    obtain rfl := Option.some.inj (hpre.symm.trans hpack)
    exact ⟨hversion, ⟨h11, h12, hlen, h14, h15, h16, h17⟩, rfl⟩
  · intro h
    obtain ⟨hversion, hc, rfl⟩ := h
    refine ⟨hversion, _, ⟨hc.context, rfl⟩, _, ⟨hc.participation, rfl⟩, _,
      subDigest_optional.mpr ⟨hc.policyRules, rfl⟩, _, ⟨hc.participants, rfl⟩, _, ⟨hc.classification, rfl⟩, _,
      ⟨hc.trustBasis, rfl⟩, _, ⟨hc.authMethod, rfl⟩, _, hpack, ?_⟩
    rw [hflat]

end Digest

/-! ## Strips -/

/-- Whatever is raised is a strip. -/
def OnlyStrips {α : Type} (c : Except RecordError α) : Prop := ∀ err, c = .error err → err.isStrip = true

theorem OnlyStrips.bind {α β : Type} {c : Except RecordError α} {f : α → Except RecordError β} (hc : OnlyStrips c)
    (hf : ∀ a, c = .ok a → OnlyStrips (f a)) : OnlyStrips (c >>= f) := by
  intro err h
  cases c with
  | error e => exact hc err (congrArg Except.error (Except.error.inj h))
  | ok a => exact hf a rfl err h

theorem OnlyStrips.ok {α : Type} {a : α} : OnlyStrips (.ok a) := nofun

theorem OnlyStrips.refuse {c : Prop} [Decidable c] {err : RecordError} (h : c → err.isStrip = true) :
    OnlyStrips (refuse c err) := by
  intro err' herr
  by_cases hc : c
  · rw [refuse_of hc] at herr
    rw [← Except.error.inj herr]
    exact h hc
  · rw [refuse_of_not hc] at herr
    cases herr

theorem onlyStrips_subDigest {value : Option Bytes} {optional : Bool} :
    OnlyStrips (subDigest name tag value optional) := by
  cases value with
  | none =>
    cases optional with
    | true => exact OnlyStrips.ok
    | false =>
      intro err h
      rw [← Except.error.inj h]
      rfl
  | some raw =>
    refine OnlyStrips.bind (OnlyStrips.refuse fun _ => rfl) fun _ _ => ?_
    exact OnlyStrips.bind (OnlyStrips.refuse fun _ => rfl) fun _ _ => OnlyStrips.ok

theorem onlyStrips_mandatoryText {value : String} : OnlyStrips (mandatoryText name tag value) :=
  OnlyStrips.bind (OnlyStrips.refuse fun _ => rfl) fun _ _ => OnlyStrips.ok

/-- The digest of a record of version 4 is refused as a strip alone. -/
theorem onlyStrips_recordDigestV4 {x : Python} {d : Decision} (hversion : d.schemaVersion = recordDigestSchemaVersion)
    (hshort : ∀ p ∈ recordParts d (policyRulesSlot d), p.Short) :
    OnlyStrips (recordDigestV4 x d (policyRulesSlot d)) := by
  refine OnlyStrips.bind (OnlyStrips.refuse fun h => absurd hversion h) fun _ _ => ?_
  refine OnlyStrips.bind onlyStrips_subDigest fun _ h11 => ?_
  refine OnlyStrips.bind onlyStrips_subDigest fun _ h12 => ?_
  refine OnlyStrips.bind onlyStrips_subDigest fun _ h13 => ?_
  refine OnlyStrips.bind onlyStrips_subDigest fun _ h15 => ?_
  refine OnlyStrips.bind onlyStrips_mandatoryText fun _ _ => ?_
  refine OnlyStrips.bind onlyStrips_mandatoryText fun _ _ => ?_
  refine OnlyStrips.bind onlyStrips_mandatoryText fun _ _ => ?_
  -- the slots that are left fit their frames
  obtain ⟨-, rfl⟩ := subDigest_mandatory.mp h11
  obtain ⟨-, rfl⟩ := subDigest_mandatory.mp h12
  obtain ⟨-, rfl⟩ := subDigest_optional.mp h13
  obtain ⟨-, rfl⟩ := subDigest_mandatory.mp h15
  rw [recordSlots_eq, ← policyRulesSlot, mapM_packPart hshort]
  exact OnlyStrips.ok

end Python

/-! ## Two verdicts -/

section Verdict

variable {py : Python} {x : Externs} {e : Event} {d : Decision} {wire : Bytes}

theorem exists_recordStep_iff (hd : e.decision = some d) (hw : e.digest = some wire) (s : Recount) :
    (∃ s', recordStep x s e = .ok s') ↔ d.schemaVersion = recordDigestSchema ∧ d.ciphertextDigest ≠ [] ∧
      recordDigestV4 x d = .ok wire := by
  simp only [recordStep_ok_iff]
  constructor
  · intro h
    obtain ⟨_, hok, -⟩ := h
    obtain ⟨hversion, hct, hwire⟩ := hok.decision d hd
    exact ⟨hversion, hct, hwire wire hw⟩
  · intro h
    refine ⟨_, ⟨fun _ hnone => ?_, ?_⟩, rfl⟩
    · rw [hd] at hnone
      cases hnone
    · rintro _ hd'
      obtain rfl := Option.some.inj (hd.symm.trans hd')
      refine ⟨h.1, h.2.1, fun wire' hw' => ?_⟩
      obtain rfl := Option.some.inj (hw.symm.trans hw')
      exact h.2.2

/-- What the client does with a record, from its version on. -/
theorem verifyStreamedRecordDigest_eq (hkind : e.kind = "DECISION_SEALED") (hd : e.decision = some d)
    (hw : e.digest = some wire) : Python.verifyStreamedRecordDigest py e =
      if d.schemaVersion ≠ 4 then .error (Python.unsupportedVersion d.schemaVersion)
      else if d.ciphertextDigest = [] then .ok false
      else (Python.recordDigestV4 py d (policyRulesSlot d)).map (· == wire) := by
  unfold Python.verifyStreamedRecordDigest
  rw [refuse_of_not (not_not.mpr hkind), hd, hw]
  show (refuse (d.schemaVersion ≠ 4) _ >>= _) = _
  by_cases hversion : d.schemaVersion ≠ 4
  · rw [refuse_of hversion, if_pos hversion]
    rfl
  · rw [refuse_of_not hversion, if_neg hversion]
    show (if d.ciphertextDigest = [] then _ else _) = _
    by_cases hct : d.ciphertextDigest = []
    · rw [if_pos hct, if_pos hct]
      rfl
    · rw [if_neg hct, if_neg hct]
      show (Python.recordDigestV4 py d (policyRulesSlot d) >>= _) = _
      cases Python.recordDigestV4 py d (policyRulesSlot d) <;> rfl

/-- **Main result.** The client finds a sealed record with a digest good exactly when the verifier accepts it, and raises a
strip exactly for a record of version 4 with a ciphertext digest whose record digest the verifier refuses. -/
theorem streamed_record_agrees (hsha : py.sha256 = x.sha256) (hkind : e.kind = "DECISION_SEALED")
    (hd : e.decision = some d) (hw : e.digest = some wire)
    (hshort : ∀ p ∈ recordParts d (policyRulesSlot d), p.Short) :
    (∀ s, Python.verifyStreamedRecordDigest py e = .ok true ↔ ∃ s', recordStep x s e = .ok s') ∧
    ((∃ message field wireTag, Python.verifyStreamedRecordDigest py e =
        .error (.recordDigestStripError message field wireTag)) ↔
      d.schemaVersion = 4 ∧ d.ciphertextDigest ≠ [] ∧ ∃ message, recordDigestV4 x d = .error message) := by
  rw [verifyStreamedRecordDigest_eq hkind hd hw]
  have hok : ∀ b, Python.recordDigestV4 py d (policyRulesSlot d) = .ok b ↔
      d.schemaVersion = 4 ∧ recordDigestV4 x d = .ok b := by
    intro b
    rw [Python.recordDigestV4_ok_iff hshort, recordDigestV4_ok_iff, hsha]
    rfl
  by_cases hversion : d.schemaVersion = 4
  · rw [if_neg (not_not.mpr hversion)]
    by_cases hct : d.ciphertextDigest = []
    · rw [if_pos hct]
      refine ⟨fun s => ?_, ?_⟩
      · rw [exists_recordStep_iff hd hw]
        simp [hct]
      · simp [hct]
    · rw [if_neg hct]
      refine ⟨fun s => ?_, ?_⟩
      · have hmap : (Python.recordDigestV4 py d (policyRulesSlot d)).map (· == wire) = .ok true ↔
            Python.recordDigestV4 py d (policyRulesSlot d) = .ok wire := by
          cases Python.recordDigestV4 py d (policyRulesSlot d) <;> simp [Except.map]
        rw [exists_recordStep_iff hd hw, hmap, hok]
        exact ⟨fun h => ⟨h.1, hct, h.2⟩, fun h => ⟨h.1, h.2.2⟩⟩
      · have herror : (∃ message, recordDigestV4 x d = .error message) ↔
            ∃ err, Python.recordDigestV4 py d (policyRulesSlot d) = .error err := by
          simp only [exists_error_iff, ne_eq, hok, hversion, true_and]
        rw [herror]
        constructor
        · intro h
          obtain ⟨message, field, wireTag, h⟩ := h
          refine ⟨hversion, hct, .recordDigestStripError message field wireTag, ?_⟩
          cases hdigest : Python.recordDigestV4 py d (policyRulesSlot d) with
          | error err =>
            rw [hdigest] at h
            rw [Except.error.inj h]
          | ok b =>
            rw [hdigest] at h
            cases h
        · intro h
          obtain ⟨-, -, err, herr⟩ := h
          have hstrip := Python.onlyStrips_recordDigestV4 hversion hshort err herr
          rw [herr]
          cases err with
          | recordDigestStripError message field wireTag => exact ⟨message, field, wireTag, rfl⟩
          | valueError _ => cases hstrip
          | unsupportedRecordDigestVersion _ _ => cases hstrip
          | structError => cases hstrip
  · rw [if_pos hversion]
    refine ⟨fun s => ?_, ?_⟩
    · rw [exists_recordStep_iff hd hw]
      simp [hversion, recordDigestSchema]
    · simp [hversion, Python.unsupportedVersion]

end Verdict

/-- The platform of the client, with the checksum of the verifier's stand-in for its hash. -/
def Python.checksumPlatform : Python where
  toSdk := .sample []
  urlsafeB64decode := Base64.decodePadded Base64.urlSafe
  jsonLoads _ := none
  time := 0

theorem streamed_record_agrees_sealed :
    Python.verifyStreamedRecordDigest Python.checksumPlatform
      (Event.sealing "t" 1 genesis (sampleDecision "d" "t")) = .ok true := by
  have hshort : ∀ p ∈ recordParts (sampleDecision "d" "t") (policyRulesSlot (sampleDecision "d" "t")), p.Short := by
    decide +kernel
  have hdigest : (Event.sealing "t" 1 genesis (sampleDecision "d" "t")).digest.isSome = true := by decide +kernel
  obtain ⟨wire, hw⟩ := Option.isSome_iff_exists.mp hdigest
  have hstep : (recordStep (.sample []) ⟨0, 0, []⟩ (Event.sealing "t" 1 genesis (sampleDecision "d" "t"))).isOk = true := by
    decide +kernel
  exact ((streamed_record_agrees rfl rfl rfl hw hshort).1 _).mpr (exists_ok_of_isOk hstep)

end SeamSdk
