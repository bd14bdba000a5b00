import SeamSdk.Sdk.ExpRule
import SeamSdk.Verify.Binding

/-!
# The offline verifier and the Python SDK on one token

The verifier asks more of a token than an SDK does: its version, its thumbprint, when it was issued, strict base64. In
one point it asks less. It takes a token up to and at its expiry, which may be any 64-bit word; Python takes it before
its expiry, which must be in the range of a signed one.

- `Python.readToken_verified`: what the verifier reads, Python reads;
- `Python.checksOut_verified`: a token the verifier accepts is in order for Python but for its expiry;
- `verified_accepted_iff`: Python accepts it exactly before an expiry in range.
-/

namespace SeamSdk

open ByteCodec Checked Issued Json

/-- Python and the verifier with one hash and one signature scheme; `base64` and `json` read what the verifier's strict
readers read. -/
structure Python.Follows (py : Python) (r : Readers) : Prop where
  sha256 : py.sha256 = r.sha256
  ed25519Verify : py.ed25519Verify = r.ed25519Verify
  base64 : ∀ s b, Base64.decodeUnpadded Base64.urlSafe s = some b →
    py.urlsafeB64decode (s ++ String.ofList (List.replicate (Base64.padding s.length) '=')) = some b
  json : ∀ b j, r.jsonValue b = .ok j → py.jsonLoads b = some j

/-- The expiry a token states in its payload. -/
def tokenExp (r : Readers) (token : String) : Option UInt64 := do
  let (_, p, _) ← jwsSegments token
  let b ← Base64.decodeUnpadded Base64.urlSafe p
  let claims ← (r.jsonValue b).toOption
  seconds claims "exp"

variable {x : Externs} {exp : UInt64}

section Verified

variable {py : Python} {r : Readers} {pinnedAid token : String} {digest key : Bytes} {now : UInt64} {t : Jws}

variable {s : String} {b : Bytes}

theorem isAscii_of_decodeUnpadded (h : Base64.decodeUnpadded Base64.urlSafe s = some b) :
    ∀ c ∈ s.toList, c.toNat < 128 :=
  fun _ hc => Base64.urlSafe_lt (Base64.value_of_mem_decodeChars h hc)

/-- The segments of a token are ASCII, and so is what is signed. -/
theorem encodeAscii_segments {h p : String} {a : Bytes} (hh : Base64.decodeUnpadded Base64.urlSafe h = some a)
    (hp : Base64.decodeUnpadded Base64.urlSafe p = some b) :
    Python.encodeAscii (h ++ "." ++ p) = some (utf8 (h ++ "." ++ p)) := by
  apply if_pos
  rw [RustText.isAscii, List.all_eq_true]
  intro c hc
  apply decide_eq_true
  simp only [String.toList_append, List.mem_append] at hc
  rcases hc with (hc | hc) | hc
  · exact isAscii_of_decodeUnpadded hh c hc
  · obtain rfl : c = '.' := by simpa using hc
    decide
  · exact isAscii_of_decodeUnpadded hp c hc

theorem Python.Follows.b64urlDecode (hf : py.Follows r) (h : Base64.decodeUnpadded Base64.urlSafe s = some b) :
    py.b64urlDecode s = some b :=
  hf.base64 s b h

theorem Python.Follows.loads (hf : py.Follows r) {j : Json} (h : Holds r s j) :
    (py.b64urlDecode s).bind py.loads = some j := by
  obtain ⟨b, hb, hj, hkeys⟩ := h
  rw [hf.b64urlDecode hb, Option.bind_some, Python.loads, hf.json b j hj, Option.filter_some, if_pos hkeys]

theorem Python.Follows.aidToPubkey (hf : py.Follows r) (h : verifyingKey r.toExterns pinnedAid = .ok key) :
    SeamSdk.aidToPubkey py.b64urlDecode pinnedAid = some key := by
  obtain ⟨raw, hraw, hkey⟩ := bind_ok.mp h
  obtain rfl : raw = key := by
    split at hkey
    · cases hkey
    · exact pure_ok.mp hkey
  simp only [aidToKey, bind_ok, demand_ok, refuse_ok, exists_const, pure_ok] at hraw
  obtain ⟨rest, hrest, _, hdec, -, rfl⟩ := hraw
  rw [SeamSdk.aidToPubkey, hrest, Option.bind_some, hf.b64urlDecode hdec]

/-- **What the verifier reads, Python reads.** -/
theorem Python.readToken_verified (hf : py.Follows r) (h : TctOk r pinnedAid token digest now t key) :
    py.readToken pinnedAid token = some (t.header, t.claims) := by
  obtain ⟨a, ha, -⟩ := h.header
  obtain ⟨b, hb, -⟩ := h.payload
  have hverifies := h.verifies
  rw [signingInput_eq h.segments, ← hf.ed25519Verify] at hverifies
  simp [readToken, h.segments, hf.aidToPubkey h.pinned, hf.b64urlDecode h.signature.1, encodeAscii_segments ha hb,
    hverifies, hf.loads h.header, hf.loads h.payload, guard]

theorem tokenExp_verified (h : TctOk r pinnedAid token digest now t key) : tokenExp r token = seconds t.claims "exp" := by
  obtain ⟨b, hb, hj, -⟩ := h.payload
  simp [tokenExp, h.segments, hb, hj, Except.toOption]

/-- A claim in whole seconds is an integer without a sign. -/
theorem get?_of_seconds {claims : Json} {name : String} {n : UInt64} (h : seconds claims name = some n) :
    claims.get? name = some (.num (.int false n.toNat)) := by
  obtain ⟨j, hj, hn⟩ := Option.bind_eq_some_iff.mp h
  rw [hj]
  unfold asU64? at hn
  split at hn
  · simp only [Option.ite_none_right_eq_some, Option.some.injEq] at hn
    obtain ⟨hlt, rfl⟩ := hn
    rw [UInt64.toNat_ofNat_of_lt' hlt]
  · cases hn

theorem boundDigest_of_claimsOk {claims : Json} (h : ClaimsOk x pinnedAid key digest now claims) :
    boundDigest claims = some (RustText.hex digest) := by
  obtain ⟨ext, stmt, hext, hsize, hstmt, hmembers, htype, hdigest⟩ := h.ext
  simp [boundDigest, hext, hsize, hstmt, hmembers, htype, hdigest, guard]

/-- **Only the expiry is left** of a token the verifier accepts. -/
theorem Python.checksOut_verified (hf : py.Follows r) {c : Commitment} (hc : commitmentDigest r c = .ok digest)
    (h : TctOk r pinnedAid token digest now t key) (hexp : seconds t.claims "exp" = some exp) :
    py.ChecksOut pinnedAid token c.toSdk exp.toNat := by
  refine ⟨t.header, t.claims, RustText.hex digest, false, exp.toNat, readToken_verified hf h, ?_, ?_, ?_, ?_,
    boundDigest_of_claimsOk h.claims, get?_of_seconds hexp, rfl⟩
  · simp [headerOk, h.typ, h.alg]
  · simp [selfIssued, h.claims.iss, h.claims.sub, h.claims.aud]
  · simp [grantsOk, h.claims.grants]
  · exact (seamCommitmentDigest_verifier hf.sha256).mpr ⟨digest, hc, rfl⟩

/-- **A token the verifier accepts** for a Commitment is accepted by Python at the same clock exactly before its
expiry, and if that is in the range of a 64-bit signed integer. -/
theorem verified_accepted_iff (hf : py.Follows r) {c : Commitment} (hc : commitmentDigest r c = .ok digest)
    (h : verifyTct r pinnedAid token digest now = .ok ()) :
    ∃ exp, tokenExp r token = some exp ∧ now ≤ exp ∧
      (py.verifyTct pinnedAid token c.toSdk (some now.toNat) = true ↔ now < exp ∧ exp.toNat < 2 ^ 63) := by
  obtain ⟨t, key, hok⟩ := verifyTct_ok_iff.mp h
  obtain ⟨-, exp, -, hexp, hle, -⟩ := hok.claims.inForce
  refine ⟨exp, (tokenExp_verified hok).trans hexp, hle, ?_⟩
  rw [Python.verifyTct_checksOut (Python.checksOut_verified hf hc hok hexp), expRule, decide_eq_true_iff,
    UInt64.lt_iff_toNat_lt]
  omega

end Verified

/-! ## A sample -/

/-- Readers of the verifier for the two documents of a token, whose issuer has signed it. -/
def Issued.readers (t : Issued) : Readers := .reading [utf8 t.message] [] [t.header, t.payload]

theorem Issued.follows (t : Issued) : t.python.Follows t.readers where
  sha256 := rfl
  ed25519Verify := by
    funext key m sig
    exact (List.contains_cons.trans (Bool.or_false _)).symm
  base64 s b h := by
    have := Base64.decodePadded_append rfl h
    rwa [String.ofList_append, String.ofList_toList, String.length_toList] at this
  json b j h := by
    obtain ⟨rfl, hfind⟩ := Readers.of_jsonValue_reading h
    have htext : (fun i : Json => utf8 i.text == utf8 j.text) = fun i => i.text == j.text := by
      funext i
      rw [Bool.eq_iff_iff, beq_iff_eq, beq_iff_eq, utf8_inj]
    rw [htext] at hfind
    simp [python, ofUtf8?_utf8, read, hfind]

def attestedStatement (digest : String) : Json := .obj [("type", .str extType), ("commitment_digest", .str digest)]

/-- A self-attestation with all the verifier asks for, issued at 0. -/
def attestedPayload (issuerAid jkt digest : String) (exp : Nat) : Json :=
  .obj [("ver", .str tctVer), ("iss", .str issuerAid), ("sub", .str issuerAid), ("aud", .str issuerAid),
    ("iat", .num (.int false 0)), ("exp", .num (.int false exp)), ("cnf", .obj [("jkt", .str jkt)]),
    ("grants", .arr [.str attestationGrant]), ("ext", .obj [(extNamespace, attestedStatement digest)])]

def attestedCommitment : Commitment := ⟨"c1", "approve", "board", none, "aitp", "pinned", "", [], ""⟩

def attestedDigest : Bytes :=
  let sha256 := (Externs.sample []).sha256
  sha256 (layout (attestedCommitment.parts (sha256 (layout (explanationParts attestedCommitment.explanation)))))

/-- The token of an issuer for the Commitment, valid until `exp`. -/
def Issued.attested (exp : UInt64) : Issued :=
  let key := List.replicate 32 0
  let payload := attestedPayload (aidFromPubkey key) (jwkThumbprint (.sample []) key) (RustText.hex attestedDigest)
  ⟨sampleHeader, payload exp.toNat, List.replicate 64 0, key⟩

theorem commitmentDigest_attested (r : Readers) (h : r.sha256 = (Externs.sample []).sha256) :
    commitmentDigest r attestedCommitment = .ok attestedDigest := by
  rw [commitmentDigest_ok_iff, h, attestedDigest]
  refine ⟨?_, rfl⟩
  intro e he
  cases he

theorem seconds_attestedPayload (issuerAid jkt digest : String) (exp : UInt64) :
    seconds (attestedPayload issuerAid jkt digest exp.toNat) "exp" = some exp := by
  simp [attestedPayload, seconds, get?, asU64?_toNat]

theorem claimsOk_attestedPayload {issuerAid jkt : String} {key digest : Bytes} {now : UInt64}
    (hjkt : jwkThumbprint x key = jkt) (h : now ≤ exp) :
    ClaimsOk x issuerAid key digest now (attestedPayload issuerAid jkt (RustText.hex digest) exp.toNat) where
  object := rfl
  ver := by simp [attestedPayload, claim, get?, asStr?]
  iss := by simp [attestedPayload, claim, get?, asStr?]
  aud := by simp [attestedPayload, claim, get?, asStr?]
  sub := by simp [attestedPayload, claim, get?, asStr?]
  inForce := by
    refine ⟨0, exp, ?_, seconds_attestedPayload .., h, UInt64.zero_le⟩
    simp [attestedPayload, seconds, get?, asU64?]
  jkt := by simp [attestedPayload, pointer, get?, asStr?, hjkt]
  grants := by simp [attestedPayload, get?, strList?, asStr?]
  ext := by
    let stmt := attestedStatement (RustText.hex digest)
    refine ⟨.obj [(extNamespace, stmt)], stmt, ?_, ?_, ?_, ?_, ?_, ?_⟩
    · simp [attestedPayload, stmt, get?, isObj]
    · simp [size, lastOfEach]
    · simp [stmt, attestedStatement, get?, isObj]
    · simp [stmt, attestedStatement, size, lastOfEach]
    · simp [stmt, attestedStatement, claim, get?, asStr?]
    · simp [stmt, attestedStatement, claim, get?, asStr?]

theorem aidToKey_aidFromPubkey {key : Bytes} (h : key.length = 32) : aidToKey x (aidFromPubkey key) = .ok key := by
  have hstrip : stripPrefix "aid:pubkey:ed25519:" (aidFromPubkey key) = some (b64urlNoPad key) :=
    stripPrefix_append _ _
  simp only [aidToKey, bind_ok, demand_ok, refuse_ok, exists_const, pure_ok]
  refine ⟨b64urlNoPad key, ?_, key, decodeUnpadded_b64urlNoPad key, not_not.mpr h, rfl⟩
  rw [hstrip, Option.some_or]

theorem holds_b64urlNoPad {r : Readers} {j : Json} (hj : r.jsonValue (utf8 j.text) = .ok j)
    (hkeys : j.distinctKeys = true) : Holds r (b64urlNoPad (utf8 j.text)) j :=
  ⟨_, decodeUnpadded_b64urlNoPad _, hj, hkeys⟩

theorem utf8_text_obj_ne_nil (members : List (String × Json)) : utf8 (obj members).text ≠ [] := by
  intro h
  have hlen := length_le_length_utf8 (obj members).text
  rw [h, text, String.toList_ofList, render] at hlen
  simp at hlen

/-- A token taken apart into what it was written from. -/
def Issued.jws (t : Issued) : Jws := ⟨t.headerSegment, t.payloadSegment, b64urlNoPad t.sig, t.header, t.payload, t.sig⟩

theorem Issued.verifies (t : Issued) :
    t.readers.ed25519Verify t.key (signingInput t.compact t.jws.h t.jws.p) t.jws.sig = true := by
  have hmessage : signingInput t.compact t.jws.h t.jws.p = utf8 t.message := signingInput_eq t.jwsSegments_compact
  rw [hmessage]
  exact List.contains_iff_mem.mpr (.head _)

/-- The verifier accepts the token up to its expiry. -/
theorem tctOk_attested {now : UInt64} (h : now ≤ exp) : let t := attested exp
    TctOk t.readers (aidFromPubkey t.key) t.compact attestedDigest now t.jws t.key := by
  intro t
  have hlead : [t.header, t.payload].map lead = [['"', 'a'], ['"', 'v']] := rfl
  have hread : ∀ j ∈ [t.header, t.payload], t.readers.jsonValue (utf8 j.text) = .ok j := by
    intro j hj
    apply Readers.jsonValue_reading _ _ hj
    · rw [hlead]
      decide
    · rw [hlead]
      decide
  have hkey : verifyingKey t.readers.toExterns (aidFromPubkey t.key) = .ok t.key :=
    bind_ok.mpr ⟨t.key, aidToKey_aidFromPubkey List.length_replicate, rfl⟩
  refine ⟨t.jwsSegments_compact, ⟨?_, ?_, ?_⟩, holds_b64urlNoPad (hread _ (.head _)) ?_,
    holds_b64urlNoPad (hread _ (.tail _ (.head _))) ?_, ⟨decodeUnpadded_b64urlNoPad _, ?_⟩, ?_, ?_, hkey, ?_,
    claimsOk_attestedPayload rfl h⟩
  · exact b64urlNoPad_ne_empty (utf8_text_obj_ne_nil _)
  · exact b64urlNoPad_ne_empty (utf8_text_obj_ne_nil _)
  · exact b64urlNoPad_ne_empty (List.cons_ne_nil _ _)
  · simp [t, attested, sampleHeader, distinctKeys, distinctKeysMembers]
  · simp [t, attested, attestedPayload, attestedStatement, distinctKeys, distinctKeysMembers,
      distinctKeysItems]
  · exact List.length_replicate
  · simp [t, jws, attested, sampleHeader, claim, get?, asStr?]
  · simp [t, jws, attested, sampleHeader, claim, get?, asStr?]
  · exact t.verifies

/-- At the very second of its expiry a token is accepted by the verifier and refused by Python. -/
theorem verified_at_expiry :
    let t := attested 1000
    t.python.Follows t.readers ∧ commitmentDigest t.readers attestedCommitment = .ok attestedDigest ∧
      verifyTct t.readers (aidFromPubkey t.key) t.compact attestedDigest 1000 = .ok () ∧
      t.python.verifyTct (aidFromPubkey t.key) t.compact attestedCommitment.toSdk (some 1000) = false := by
  intro t
  have hdigest := commitmentDigest_attested t.readers rfl
  have htct := tctOk_attested (UInt64.le_refl 1000)
  refine ⟨t.follows, hdigest, verifyTct_ok_iff.mpr ⟨_, _, htct⟩, ?_⟩
  rw [Python.verifyTct_checksOut (Python.checksOut_verified t.follows hdigest htct (seconds_attestedPayload ..))]
  decide

/-- A token valid until 1000, at the clock 0. -/
theorem verified_accepted_iff_attested :
    let t := attested 1000
    verifyTct t.readers (aidFromPubkey t.key) t.compact attestedDigest 0 = .ok () ∧
      t.python.verifyTct (aidFromPubkey t.key) t.compact attestedCommitment.toSdk (some 0) = true := by
  intro t
  have htct := tctOk_attested (UInt64.zero_le : 0 ≤ (1000 : UInt64))
  have hok : verifyTct t.readers (aidFromPubkey t.key) t.compact attestedDigest 0 = .ok () :=
    verifyTct_ok_iff.mpr ⟨_, _, htct⟩
  obtain ⟨exp, hexp, -, haccepted⟩ := verified_accepted_iff t.follows (commitmentDigest_attested t.readers rfl) hok
  obtain rfl : 1000 = exp := by
    rw [tokenExp_verified htct] at hexp
    exact Option.some.inj ((seconds_attestedPayload ..).symm.trans hexp)
  exact ⟨hok, haccepted.mpr (by decide)⟩

end SeamSdk
