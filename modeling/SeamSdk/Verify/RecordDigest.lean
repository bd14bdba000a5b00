import SeamSdk.Verify.Externs
import SeamSdk.Verify.Wire

/-!
# The record digest of a sealed decision

`recordDigestV4` hashes the columns of a `DECISION_SEALED`, each framed or behind a presence byte, after checking that
no mandatory column was stripped and no digest slot is malformed. `recordDigestV4_ok_iff` separates the two: the
columns are `V4Complete`, and the digest is the hash of `recordPreimage`. The preimage determines every column
(`recordPreimage_inj`).
-/

namespace SeamSdk

open ByteCodec Checked

/-- The only record-digest formula there is; any other `schema_version` is refused. -/
def recordDigestSchema : UInt32 := 4

/-- Every sub-digest is a SHA-256. -/
def v4DigestLen : Nat := 32

def stripMessage (name : String) (tag : Nat) (decisionId : String) : String :=
  s!"a v4 DECISION_SEALED ({decisionId}) carries NO {name} (wire tag {tag}).\n  " ++
  "The v4 record-digest formula requires it. This is a STRIP, not a digest mismatch: the " ++
  "record is REFUSED — not defaulted to an empty value, and there is no older formula to fall " ++
  "back to. Defaulting to empty is what makes 'nobody participated' indistinguishable from " ++
  "'somebody deleted the field'."

/-- A mandatory digest slot: present, and 32 bytes. -/
def v4RequiredDigest (name : String) (tag : Nat) (value : Bytes) (decisionId : String) : Except String Bytes := do
  refuse (value = []) (stripMessage name tag decisionId)
  refuse (value.length ≠ v4DigestLen)
    (s!"a v4 DECISION_SEALED ({decisionId}) carries a MALFORMED {name} (wire tag {tag}): {value.length} " ++
      s!"bytes, not {v4DigestLen}.\n  " ++
      "Refused rather than hashed. Hashing it would yield a well-formed digest that fails the " ++
      "comparison, reporting a malformed field as though the record had been rewritten.")
  return value

/-- A mandatory label: not empty. -/
def v4RequiredStr (name : String) (tag : Nat) (value decisionId : String) : Except String String := do
  refuse (value = "") (stripMessage name tag decisionId)
  return value

/-- The one optional digest slot: absent means that no policy was bound. -/
def v4OptionalDigest (name : String) (tag : Nat) (value : Bytes) (decisionId : String) :
    Except String (Option Bytes) :=
  if value.length = 0 then return none
  else if value.length = v4DigestLen then return some value
  else throw (s!"a v4 DECISION_SEALED ({decisionId}) carries a MALFORMED {name} (wire tag {tag}): " ++
    s!"present but {value.length} bytes, not {v4DigestLen}.\n  " ++
    "Absent is legitimate (no policy was bound); present-and-wrong-length is not, and is " ++
    "refused rather than hashed.")

/-- The framed columns, in order; `policyRulesDigest` is passed as the optional slot was read. -/
def recordParts (d : Decision) (policyRulesDigest : Option Bytes) : List Part :=
  [.frame (utf8 "seam.audit.record-digest.v4"), .frame (utf8 d.decisionId), .frame (utf8 d.tenant),
    .frame (utf8 d.nameSpace), .frame d.ciphertextDigest, .frame (u64le d.sealedAt), .frame (utf8 d.outcome),
    .opt (d.mode.map utf8), .opt (d.policyVersion.map utf8), .opt (d.supersedes.map utf8), .frame d.contextDigest,
    .frame d.participationDigest, .opt policyRulesDigest, .frame (utf8 d.classification),
    .frame d.participantsDigest, .frame (utf8 d.trustBasisCommitment), .frame (utf8 d.authMethod),
    .frame (u32le d.schemaVersion)]

/-- The digest a v4 `DECISION_SEALED` commits to. -/
def recordDigestV4 (x : Externs) (d : Decision) : Except String Bytes := do
  let id := d.decisionId
  let _ ← v4RequiredDigest "context_digest" 11 d.contextDigest id
  let _ ← v4RequiredDigest "participation_digest" 12 d.participationDigest id
  let policyRulesDigest ← v4OptionalDigest "policy_rules_digest" 13 d.policyRulesDigest id
  let _ ← v4RequiredStr "classification" 14 d.classification id
  let _ ← v4RequiredDigest "participants_digest" 15 d.participantsDigest id
  let _ ← v4RequiredStr "trust_basis_commitment" 16 d.trustBasisCommitment id
  let _ ← v4RequiredStr "auth_method" 17 d.authMethod id
  return x.sha256 (layout (recordParts d policyRulesDigest))

/-! ## Complete records -/

/-- No mandatory column is missing and no digest slot malformed. -/
structure V4Complete (d : Decision) : Prop where
  context : d.contextDigest.length = 32
  participation : d.participationDigest.length = 32
  policyRules : d.policyRulesDigest.length = 0 ∨ d.policyRulesDigest.length = 32
  classification : d.classification ≠ ""
  participants : d.participantsDigest.length = 32
  trustBasis : d.trustBasisCommitment ≠ ""
  authMethod : d.authMethod ≠ ""

/-- An empty slot is an absent one. -/
def policyRulesSlot (d : Decision) : Option Bytes := if d.policyRulesDigest = [] then none else some d.policyRulesDigest

/-- The bytes the record digest hashes. -/
def recordPreimage (d : Decision) : Bytes := layout (recordParts d (policyRulesSlot d))

variable {d : Decision} {name id : String} {tag : Nat}

theorem v4RequiredDigest_ok {value v : Bytes} :
    v4RequiredDigest name tag value id = .ok v ↔ value.length = 32 ∧ value = v := by
  simp only [v4RequiredDigest, bind_ok, refuse_ok, exists_const, pure_ok]
  constructor
  · intro h
    rcases h with ⟨-, hlen, hv⟩; exact ⟨not_not.mp hlen, hv⟩
  · intro h
    rcases h with ⟨hlen, hv⟩
    refine ⟨?_, not_not.mpr hlen, hv⟩
    rintro rfl
    cases hlen

theorem v4RequiredStr_ok {value v : String} : v4RequiredStr name tag value id = .ok v ↔ value ≠ "" ∧ value = v := by
  simp only [v4RequiredStr, bind_ok, refuse_ok, exists_const, pure_ok, ne_eq]

theorem v4OptionalDigest_ok {value : Bytes} {o : Option Bytes} :
    v4OptionalDigest name tag value id = .ok o ↔ (value.length = 0 ∨ value.length = 32) ∧
      (if value = [] then none else some value) = o := by
  unfold v4OptionalDigest v4DigestLen
  by_cases h0 : value.length = 0
  · simp [List.length_eq_zero_iff.mp h0, pure_ok]
  · have hne : value ≠ [] := fun h => h0 (by rw [h]; rfl)
    by_cases h32 : value.length = 32
    · simp [h32, hne, pure_ok]
    · simp [h0, h32, throw_ok]

/-- A record is hashed exactly when it is complete. -/
theorem recordDigestV4_ok_iff {x : Externs} {b : Bytes} :
    recordDigestV4 x d = .ok b ↔ V4Complete d ∧ x.sha256 (recordPreimage d) = b := by
  simp only [recordDigestV4, bind_ok, v4RequiredDigest_ok, v4RequiredStr_ok, v4OptionalDigest_ok, pure_ok]
  constructor
  · intro h
    rcases h with ⟨_, ⟨h11, rfl⟩, _, ⟨h12, rfl⟩, _, ⟨h13, rfl⟩, _, ⟨h14, rfl⟩, _, ⟨h15, rfl⟩, _, ⟨h16, rfl⟩, _,
      ⟨h17, rfl⟩, rfl⟩
    exact ⟨⟨h11, h12, h13, h14, h15, h16, h17⟩, rfl⟩
  · intro h
    rcases h with ⟨⟨h11, h12, h13, h14, h15, h16, h17⟩, rfl⟩
    exact ⟨_, ⟨h11, rfl⟩, _, ⟨h12, rfl⟩, _, ⟨h13, rfl⟩, _, ⟨h14, rfl⟩, _, ⟨h15, rfl⟩, _, ⟨h16, rfl⟩, _, ⟨h17, rfl⟩, rfl⟩

/-! ## The preimage determines the record -/

theorem policyRulesSlot_inj {d' : Decision} (h : policyRulesSlot d = policyRulesSlot d') :
    d.policyRulesDigest = d'.policyRulesDigest := by
  unfold policyRulesSlot at h
  split at h <;> split at h <;> simp_all

theorem recordParts_sameShape (d d' : Decision) (o o' : Option Bytes) :
    List.Forall₂ Part.SameShape (recordParts d o) (recordParts d' o') := by
  simp [recordParts, Part.SameShape]

/-- Records with the same preimage are the same in every column. -/
theorem recordPreimage_inj {d' : Decision} (hd : ∀ p ∈ recordParts d (policyRulesSlot d), p.Short)
    (hd' : ∀ p ∈ recordParts d' (policyRulesSlot d'), p.Short) (h : recordPreimage d = recordPreimage d') : d = d' := by
  have hparts := layout_inj (recordParts_sameShape d d' _ _) hd hd' h
  simp only [recordParts, List.cons.injEq, Part.frame.injEq, Part.opt.injEq, utf8_inj, u64le_inj, u32le_inj, true_and,
    and_true, (Option.map_injective utf8_injective).eq_iff] at hparts
  obtain ⟨h1, h2, h3, h4, h5, h6, h7, h8, h9, h10, h11, h12, h13, h14, h15, h16, h17⟩ := hparts
  cases d
  cases d'
  simp only [Decision.mk.injEq]
  exact ⟨h1, h2, h3, h7, h8, h6, h9, h5, h17, h4, h10, h11, policyRulesSlot_inj h12, h13, h14, h15, h16⟩

end SeamSdk
