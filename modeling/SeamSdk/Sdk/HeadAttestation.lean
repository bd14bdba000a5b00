import SeamSdk.Sdk.AgentKey
import SeamSdk.Verify.IssuerKey

/-!
# Attestations of a chain head, as each language checks them

A chain-head attestation is checked against a pinned AID. Python and the verifier ask that it names the pin; TypeScript
does not look at the name in the message and frames the pin in its place. Each selects one of two framings by the
tenant.

- `Python.verdict`, `TypeScript.verdict`, `verifyAnchor_verdict`: what each says of a message;
- `Attestation.eq_of_verifies`: under a key that has signed one digest, the signature belongs to one message;
- `attestation_verdicts_agree_iff`: the three agree exactly if the message names the pin or does not verify under it,
  and notice every change but that of the name.
-/

namespace SeamSdk

open ByteCodec Checked Attestation List

/-- What is framed, in order. The tenant is framed under the second domain only. -/
def attestationSlots (attestedLen attestedHead attestedAt digestSchema : Bytes) (issuerAid : String)
    (tenant : Option String) : List Bytes :=
  [utf8 (if tenant.isSome then "seam.audit.chain-head-attestation.v2" else "seam.audit.chain-head-attestation.v1"),
    attestedLen, attestedHead, attestedAt, digestSchema, utf8 issuerAid] ++ (tenant.map utf8).toList

/-! ## Python -/

namespace Python

/-- The arguments of `verify_chain_head_attestation` behind the issuer. -/
structure AttestationArgs where
  attestedLen : Int
  attestedHead : Bytes
  attestedAt : Int
  digestSchema : Int
  signature : Bytes
  tenant : String

/-- `_uint_slot`, which raises on a number out of range. -/
def uintSlot (value : Int) (bits : Nat) : Option Nat :=
  if 0 ≤ value ∧ value < 2 ^ bits then some value.toNat else none

variable (x : Python)

def chainHeadAttestationDigest (issuerAid : String) (a : AttestationArgs) (tenant : Option String) : Option Bytes := do
  let attestedLen ← packU64 a.attestedLen
  let attestedAt ← packU64 a.attestedAt
  let digestSchema ← (uintSlot a.digestSchema 32).bind packU32
  let pre ← framed (attestationSlots attestedLen a.attestedHead attestedAt digestSchema issuerAid tenant)
  return x.sha256 pre

/-- Nothing where a length prefix does not fit and `struct.pack` raises. -/
def verifyChainHeadAttestation (issuerAid : String) (a : AttestationArgs) : Option Bool :=
  if uintSlot a.attestedLen 64 = none ∨ uintSlot a.attestedAt 64 = none ∨ uintSlot a.digestSchema 32 = none then
    some false
  else
    -- `Ed25519PublicKey.from_public_bytes` takes 32 bytes
    match (aidToPubkey (b64urlDecode x) issuerAid).filter (·.length = 32) with
    | none => some false
    | some key => do
      let digest ← chainHeadAttestationDigest x issuerAid a (if a.tenant = "" then none else some a.tenant)
      return x.ed25519Verify key digest a.signature

/-- The fields of a message as Python reads them. -/
def AttestationArgs.ofMessage (m : Attestation) : AttestationArgs where
  attestedLen := m.attestedLen.toNat
  attestedHead := m.attestedHead
  attestedAt := m.attestedAt.toNat
  digestSchema := m.digestSchema.toNat
  signature := m.signature
  tenant := m.tenant

def verifyChainHeadAttestationMessage (issuerAid : String) (m : Attestation) : Option Bool :=
  if m.issuerAid ≠ issuerAid then some false else verifyChainHeadAttestation x issuerAid (.ofMessage m)

end Python

/-! ## TypeScript -/

namespace TypeScript

/-- An argument that should be an unsigned integer. -/
inductive UintArg
  | number (n : Int)
  | bigint (n : Int)
  /-- Another type, or a number that is not an integer. -/
  | other

/-- The object `verifyChainHeadAttestation` is given, as far as it is read. -/
structure AttestationObject where
  attestedLen : UintArg
  attestedHead : Bytes
  attestedAt : UintArg
  digestSchema : UintArg
  signature : Bytes
  tenant : Option String

def requireUintArgument : UintArg → Option Int
  | .number n => some n
  | .bigint n => some n
  | .other => none

/-- `Number.MAX_SAFE_INTEGER`. -/
def maxSafeInteger : Int := 9007199254740991

/-- `uintSlot`. A number must be one that a double represents safely. -/
def uintSlot (value : UintArg) (bits : Nat) : Option Nat := do
  let v ← requireUintArgument value
  match value with
  | .number n => guard (-maxSafeInteger ≤ n ∧ n ≤ maxSafeInteger)
  | _ => pure ()
  guard (0 ≤ v ∧ v < 2 ^ bits)
  return v.toNat

def u64leSlot (value : UintArg) : Option Bytes := do return u64le (UInt64.ofNat (← uintSlot value 64))

def u32leArg (value : UintArg) : Option Bytes := do return u32le (UInt32.ofNat (← uintSlot value 32))

variable (x : TypeScript)

/-- The frames do not check their lengths. -/
def chainHeadAttestationDigest (issuerAid : String) (a : AttestationObject) (tenant : Option String) :
    Option Bytes := do
  let attestedLen ← u64leSlot a.attestedLen
  let attestedAt ← u64leSlot a.attestedAt
  let digestSchema ← u32leArg a.digestSchema
  let pre := (attestationSlots attestedLen a.attestedHead attestedAt digestSchema issuerAid tenant).map ByteCodec.frame
  return x.sha256 pre.flatten

/-- Nothing where an argument has a wrong type. Anything thrown further on is a refusal. -/
def verifyChainHeadAttestation (issuerAid : String) (a : AttestationObject) : Option Bool := do
  let _ ← requireUintArgument a.attestedLen
  let _ ← requireUintArgument a.attestedAt
  let _ ← requireUintArgument a.digestSchema
  let tenant ← a.tenant
  let under (framingTenant : Option String) : Option Bool := do
    let digest ← chainHeadAttestationDigest x issuerAid a framingTenant
    let key ← aidToPubkey (fun t => some (x.bufferFrom t)) issuerAid
    return x.ed25519Verify key digest a.signature
  return (under (if tenant ≠ "" then some tenant else none)).getD false

/-- The generated message: 64-bit integers are bigints. It has an `issuerAid` too, which the pin takes the place of. -/
def AttestationObject.ofMessage (m : Attestation) : AttestationObject where
  attestedLen := .bigint m.attestedLen.toNat
  attestedHead := m.attestedHead
  attestedAt := .bigint m.attestedAt.toNat
  digestSchema := .number m.digestSchema.toNat
  signature := m.signature
  tenant := some m.tenant

end TypeScript

/-! ## Three verdicts -/

/-- The three share SHA-256 and Ed25519, and their decoders read what the encoder of keys writes. -/
structure OneSignature (py : Python) (ts : TypeScript) (x : Externs) : Prop where
  pySha256 : py.sha256 = x.sha256
  tsSha256 : ts.sha256 = x.sha256
  pyVerify : py.ed25519Verify = x.ed25519Verify
  tsVerify : ts.ed25519Verify = x.ed25519Verify
  /-- A signature that verifies has 64 bytes. -/
  sigLength : ∀ {key d sig}, x.ed25519Verify key d sig = true → sig.length = 64
  pyDecode : ∀ b, py.urlsafeB64decode (Base64.encodePadded Base64.urlSafe b) = some b
  tsDecode : ∀ b, ts.bufferFrom (b64urlNoPad b) = b

/-- A key that every platform takes as one. -/
structure ValidKey (x : Externs) (key : Bytes) : Prop where
  length : key.length = 32
  point : x.keyError key = none

/-- The fields that are framed fit their length prefix. -/
structure Attestation.Short (m : Attestation) : Prop where
  head : m.attestedHead.length < 2 ^ 32
  aid : (utf8 m.issuerAid).length < 2 ^ 32
  tenant : (utf8 m.tenant).length < 2 ^ 32

/-- The message as it would be in the name of the pin. -/
def Attestation.named (m : Attestation) (aid : String) : Attestation := { m with issuerAid := aid }

/-- The signature verifies over the message in the name of the pin. -/
def Attestation.verifiesUnder (x : Externs) (key : Bytes) (m : Attestation) : Bool :=
  attestationSignatureVerifies x key (m.named (aidFromPubkey key))

section Verdicts

variable {py : Python} {ts : TypeScript} {x : Externs} {key : Bytes} {m : Attestation}

theorem Attestation.Short.parts (h : m.Short) :
    ∀ b ∈ chainHeadAttestationParts m (attestationFraming m), b.length < 2 ^ 32 := by
  have h1 : (utf8 "seam.audit.chain-head-attestation.v1").length < 2 ^ 32 := by decide +kernel
  have h2 : (utf8 "seam.audit.chain-head-attestation.v2").length < 2 ^ 32 := by decide +kernel
  intro b hb
  simp only [chainHeadAttestationParts, mem_append, mem_cons, not_mem_nil, or_false,
    Option.mem_toList, Option.map_eq_some_iff] at hb
  rcases hb with (rfl | rfl | rfl | rfl | rfl | rfl) | ⟨t, ht, rfl⟩
  · split <;> assumption
  · rw [length_u64le]
    decide
  · exact h.head
  · rw [length_u64le]
    decide
  · rw [length_u32le]
    decide
  · exact h.aid
  · unfold attestationFraming at ht
    split at ht
    · cases ht
    · exact Option.some.inj ht ▸ h.tenant

theorem attestationSlots_eq (m : Attestation) (tenant : Option String) :
    attestationSlots (u64le m.attestedLen) m.attestedHead (u64le m.attestedAt) (u32le m.digestSchema) m.issuerAid
      tenant = chainHeadAttestationParts m tenant := rfl

theorem Python.uintSlot_toNat {n bits : Nat} (h : n < 2 ^ bits) : Python.uintSlot n bits = some n := by
  rw [Python.uintSlot, if_pos, Int.toNat_natCast]
  exact ⟨by omega, by exact_mod_cast h⟩

theorem Python.packU64_toNat (n : UInt64) : Python.packU64 n.toNat = some (u64le n) := by
  have hlt := n.toNat_lt
  rw [Python.packU64, if_pos, Int.toNat_natCast, UInt64.ofNat_toNat]
  exact ⟨by omega, by exact_mod_cast hlt⟩

theorem Python.packU32_toNat (n : UInt32) : Python.packU32 n.toNat = some (u32le n) := by
  rw [Python.packU32, if_pos n.toNat_lt, UInt32.ofNat_toNat]

/-- Python digests what the verifier does. -/
theorem Python.chainHeadAttestationDigest_eq (h : py.sha256 = x.sha256) (hm : m.Short) :
    Python.chainHeadAttestationDigest py m.issuerAid (.ofMessage m) (attestationFraming m) =
      some (SeamSdk.framed x (chainHeadAttestationParts m (attestationFraming m))) := by
  have hframed : Python.framed (chainHeadAttestationParts m (attestationFraming m)) =
      some (layout (frames (chainHeadAttestationParts m (attestationFraming m)))) := by
    rw [Python.framed, Python.mapM_frame hm.parts]
    exact congrArg some (flatten_frames _)
  simp only [Python.chainHeadAttestationDigest, Python.AttestationArgs.ofMessage, Python.packU64_toNat,
    Python.uintSlot_toNat m.digestSchema.toNat_lt, Option.bind_eq_bind, Option.bind_some, Python.packU32_toNat,
    attestationSlots_eq, hframed, h]
  rfl

theorem Python.verifyChainHeadAttestation_eq {aid : String} {a : Python.AttestationArgs} {n o p : Nat}
    {key digest : Bytes} (hlen : Python.uintSlot a.attestedLen 64 = some n)
    (hat : Python.uintSlot a.attestedAt 64 = some o) (hschema : Python.uintSlot a.digestSchema 32 = some p)
    (hpub : aidToPubkey (Python.b64urlDecode py) aid = some key) (hkey : key.length = 32)
    (hdigest : Python.chainHeadAttestationDigest py aid a (if a.tenant = "" then none else some a.tenant) =
      some digest) : Python.verifyChainHeadAttestation py aid a = some (py.ed25519Verify key digest a.signature) := by
  have hfilter : (some key).filter (·.length = 32) = some key := Option.filter_some_pos (decide_eq_true hkey)
  rw [Python.verifyChainHeadAttestation, if_neg (by simp [hlen, hat, hschema]), hpub, hfilter]
  dsimp only
  rw [hdigest]
  rfl

theorem Python.verdict (h : OneSignature py ts x) (hkey : key.length = 32) (hm : m.Short) :
    Python.verifyChainHeadAttestationMessage py (aidFromPubkey key) m =
      some (decide (m.issuerAid = aidFromPubkey key) && m.verifiesUnder x key) := by
  unfold Python.verifyChainHeadAttestationMessage
  by_cases hname : m.issuerAid = aidFromPubkey key
  · have hnamed : m.named (aidFromPubkey key) = m := by rw [named, ← hname]
    have hpub : aidToPubkey (Python.b64urlDecode py) m.issuerAid = some key := by
      rw [hname]
      exact aidToPubkey_aidFromPubkey (Python.b64urlDecode_b64urlNoPad h.pyDecode key)
    have hdigest := Python.chainHeadAttestationDigest_eq h.pySha256 hm
    rw [if_neg (not_not.mpr hname), decide_eq_true hname, Bool.true_and, verifiesUnder, hnamed, ← hname,
      Python.verifyChainHeadAttestation_eq (a := .ofMessage m) (Python.uintSlot_toNat m.attestedLen.toNat_lt)
        (Python.uintSlot_toNat m.attestedAt.toNat_lt) (Python.uintSlot_toNat m.digestSchema.toNat_lt) hpub hkey hdigest,
      h.pyVerify]
    rfl
  · rw [if_pos hname, decide_eq_false hname, Bool.false_and]

theorem TypeScript.uintSlot_bigint {n : Nat} {bits : Nat} (h : n < 2 ^ bits) :
    TypeScript.uintSlot (.bigint n) bits = some n := by
  have hn : (0 : Int) ≤ n ∧ (n : Int) < 2 ^ bits := ⟨by omega, by exact_mod_cast h⟩
  simp only [TypeScript.uintSlot, TypeScript.requireUintArgument, guard, if_pos hn, Option.bind_eq_bind,
    Option.bind_some, Option.pure_def, Int.toNat_natCast]

theorem TypeScript.uintSlot_number {n : Nat} {bits : Nat} (h : n < 2 ^ bits) (hsafe : n < 2 ^ 53) :
    TypeScript.uintSlot (.number n) bits = some n := by
  have hn : (0 : Int) ≤ n ∧ (n : Int) < 2 ^ bits := ⟨by omega, by exact_mod_cast h⟩
  have hsafe : -TypeScript.maxSafeInteger ≤ (n : Int) ∧ (n : Int) ≤ TypeScript.maxSafeInteger := by
    unfold TypeScript.maxSafeInteger
    omega
  simp only [TypeScript.uintSlot, TypeScript.requireUintArgument, guard, if_pos hn, if_pos hsafe,
    Option.bind_eq_bind, Option.bind_some, Option.pure_def, Int.toNat_natCast]

/-- TypeScript digests what the verifier would, were the message in the name of the pin. -/
theorem TypeScript.chainHeadAttestationDigest_eq (h : ts.sha256 = x.sha256) (aid : String) :
    TypeScript.chainHeadAttestationDigest ts aid (.ofMessage m) (attestationFraming m) =
      some (framed x (chainHeadAttestationParts (m.named aid) (attestationFraming m))) := by
  have hschema := TypeScript.uintSlot_number m.digestSchema.toNat_lt (lt_trans m.digestSchema.toNat_lt (by decide))
  simp only [TypeScript.chainHeadAttestationDigest, TypeScript.AttestationObject.ofMessage, TypeScript.u64leSlot,
    TypeScript.u32leArg, TypeScript.uintSlot_bigint m.attestedLen.toNat_lt,
    TypeScript.uintSlot_bigint m.attestedAt.toNat_lt, hschema, Option.bind_eq_bind,
    Option.bind_some, Option.pure_def, UInt64.ofNat_toNat, UInt32.ofNat_toNat, h, flatten_frames]
  rfl

theorem TypeScript.verdict (h : OneSignature py ts x) :
    TypeScript.verifyChainHeadAttestation ts (aidFromPubkey key) (.ofMessage m) = some (m.verifiesUnder x key) := by
  have hpub : aidToPubkey (fun t => some (ts.bufferFrom t)) (aidFromPubkey key) = some key :=
    aidToPubkey_aidFromPubkey (congrArg some (h.tsDecode key))
  have hframing : (if m.tenant ≠ "" then some m.tenant else none) = attestationFraming m := ite_not _ _ _
  have hdigest := TypeScript.chainHeadAttestationDigest_eq (m := m) h.tsSha256 (aidFromPubkey key)
  simp only [TypeScript.AttestationObject.ofMessage] at hdigest
  simp only [TypeScript.verifyChainHeadAttestation, TypeScript.AttestationObject.ofMessage,
    TypeScript.requireUintArgument, Option.bind_eq_bind, Option.bind_some, hframing, hdigest, hpub, h.tsVerify,
    Option.pure_def, Option.getD_some]
  rfl

theorem verifyingKey_aidFromPubkey (hkey : ValidKey x key) : verifyingKey x (aidFromPubkey key) = .ok key := by
  have hstrip : stripPrefix "aid:pubkey:ed25519:" (aidFromPubkey key) = some (b64urlNoPad key) :=
    stripPrefix_append _ _
  have hdecode : Base64.decodeUnpadded Base64.urlSafe (b64urlNoPad key) = some key :=
    Base64.decodeUnpadded_encodeUnpadded Base64.urlSafe_lawful key
  have haid : aidToKey x (aidFromPubkey key) = .ok key := by
    simp only [aidToKey, bind_ok, demand_ok, refuse_ok, exists_const, pure_ok, hstrip, Option.some_or]
    exact ⟨_, rfl, key, hdecode, not_not.mpr hkey.length, rfl⟩
  rw [verifyingKey, haid, bind_ok]
  exact ⟨key, rfl, by rw [hkey.point]; rfl⟩

theorem Attestation.named_eq_self {aid : String} (h : m.issuerAid = aid) : m.named aid = m := by
  rw [named, ← h]

theorem of_verifyAnchor (hkey : ValidKey x key) (h : verifyAnchor x m [aidFromPubkey key] = .ok ()) :
    m.issuerAid = aidFromPubkey key ∧ m.verifiesUnder x key = true := by
  obtain ⟨-, ⟨hmem, k, hk, -, hv⟩, -⟩ := verifyAnchor_ok_iff.mp h
  have hname := mem_singleton.mp hmem
  obtain rfl : k = key := Except.ok.inj (hk.symm.trans (hname ▸ verifyingKey_aidFromPubkey hkey))
  exact ⟨hname, by rw [verifiesUnder, named_eq_self hname, hv]⟩

theorem verifyAnchor_verdict (h : OneSignature py ts x) (hkey : ValidKey x key) (hlen : m.attestedLen ≠ 0) :
    (verifyAnchor x m [aidFromPubkey key]).isOk =
      (decide (m.issuerAid = aidFromPubkey key) && m.verifiesUnder x key) := by
  have hvk := verifyingKey_aidFromPubkey hkey
  rw [Bool.eq_iff_iff, Bool.and_eq_true, decide_eq_true_eq]
  constructor
  · intro hok
    obtain ⟨_, hok⟩ := exists_ok_of_isOk hok
    exact of_verifyAnchor hkey hok
  · rintro ⟨hname, hv⟩
    rw [verifiesUnder, named_eq_self hname] at hv
    have hpins : ∀ aid ∈ [aidFromPubkey key], ∃ k, verifyingKey x aid = .ok k := by
      intro aid haid
      rw [mem_singleton.mp haid]
      exact ⟨key, hvk⟩
    have hok : verifyAnchor x m [aidFromPubkey key] = .ok () :=
      verifyAnchor_ok_iff.mpr
        ⟨hpins, ⟨mem_singleton.mpr hname, key, hname ▸ hvk, h.sigLength hv, hv⟩, hlen⟩
    rw [hok]
    rfl

/-- What the three say of a message under a pin. -/
def attestationVerdicts (py : Python) (ts : TypeScript) (x : Externs) (aid : String) (m : Attestation) :
    List (Option Bool) :=
  [Python.verifyChainHeadAttestationMessage py aid m, TypeScript.verifyChainHeadAttestation ts aid (.ofMessage m),
    some (verifyAnchor x m [aid]).isOk]

theorem attestationVerdicts_eq (h : OneSignature py ts x) (hkey : ValidKey x key) (hlen : m.attestedLen ≠ 0)
    (hm : m.Short) : attestationVerdicts py ts x (aidFromPubkey key) m =
      [some (decide (m.issuerAid = aidFromPubkey key) && m.verifiesUnder x key), some (m.verifiesUnder x key),
        some (decide (m.issuerAid = aidFromPubkey key) && m.verifiesUnder x key)] := by
  rw [attestationVerdicts, Python.verdict h hkey.length hm, TypeScript.verdict h, verifyAnchor_verdict h hkey hlen]

/-- Under a key that has signed one digest, a signature that verifies belongs to the message of that digest. -/
theorem Attestation.eq_of_verifies {m' : Attestation} (hm : m.Short) (hm' : m'.Short)
    (honly : ∀ d sig, x.ed25519Verify key d sig = true →
      d = framed x (chainHeadAttestationParts m (attestationFraming m)))
    (hcollision : x.CollisionFree [layout (frames (chainHeadAttestationParts m (attestationFraming m))),
      layout (frames (chainHeadAttestationParts m' (attestationFraming m')))])
    (hsig : m'.signature = m.signature) (hv : attestationSignatureVerifies x key m' = true) : m' = m := by
  have hshort : ∀ {a : Attestation}, a.Short →
      ∀ p ∈ frames (chainHeadAttestationParts a (attestationFraming a)), p.Short := by
    intro a ha p hp
    obtain ⟨b, hb, rfl⟩ := mem_map.mp hp
    exact ha.parts b hb
  have hlayout := hcollision _ (mem_cons_of_mem _ mem_cons_self) _ mem_cons_self (honly _ _ hv)
  have hparts := frames_inj (hshort hm') (hshort hm) hlayout
  have hfields := chainHeadAttestationParts_inj hparts
  cases m
  cases m'
  simp_all

end Verdicts

/-! ## Agreement -/

def Unanimous (verdicts : List (Option Bool)) (b : Bool) : Prop := ∀ v ∈ verdicts, v = some b

/-- **The three agree exactly on the messages that name the pin or do not verify under it.** Under a key that has
signed nothing else, they all refuse a message that was changed, unless the name of the issuer is all that was. -/
theorem attestation_verdicts_agree_iff {py : Python} {ts : TypeScript} {x : Externs} {key : Bytes} {m : Attestation}
    (h : OneSignature py ts x) (hkey : ValidKey x key) (hlen : m.attestedLen ≠ 0) (hm : m.Short) :
    ((∃ b, Unanimous (attestationVerdicts py ts x (aidFromPubkey key) m) b) ↔
      m.issuerAid = aidFromPubkey key ∨ m.verifiesUnder x key = false) ∧
    ∀ m' : Attestation, Unanimous (attestationVerdicts py ts x (aidFromPubkey key) m) true →
      (∀ d sig, x.ed25519Verify key d sig = true →
        d = framed x (chainHeadAttestationParts m (attestationFraming m))) →
      m'.Short → m'.signature = m.signature →
      x.CollisionFree [layout (frames (chainHeadAttestationParts m (attestationFraming m))),
        layout (frames (chainHeadAttestationParts (m'.named m.issuerAid) (attestationFraming m')))] →
      (Unanimous (attestationVerdicts py ts x (aidFromPubkey key) m') false ↔ m'.named m.issuerAid ≠ m) := by
  have hverdicts : ∀ b, Unanimous (attestationVerdicts py ts x (aidFromPubkey key) m) b ↔
      (decide (m.issuerAid = aidFromPubkey key) && m.verifiesUnder x key) = b ∧ m.verifiesUnder x key = b := by
    intro b
    simp only [Unanimous, attestationVerdicts_eq h hkey hlen hm, List.forall_mem_cons, List.not_mem_nil,
      false_implies, implies_true, and_true, Option.some.injEq]
    exact ⟨fun hb => ⟨hb.1, hb.2.1⟩, fun hb => ⟨hb.1, hb.2, hb.1⟩⟩
  constructor
  · simp only [hverdicts]
    cases hv : m.verifiesUnder x key <;> simp
  · intro m' hall honly hm' hsig hcollision
    obtain ⟨hboth, hv⟩ := (hverdicts true).mp hall
    have hname : m.issuerAid = aidFromPubkey key := by simpa [hv] using hboth
    have hv' : m'.verifiesUnder x key = attestationSignatureVerifies x key (m'.named m.issuerAid) := by
      rw [verifiesUnder, hname]
    constructor
    · intro hrefused heq
      have hts : TypeScript.verifyChainHeadAttestation ts (aidFromPubkey key) (.ofMessage m') = some false :=
        hrefused _ (List.mem_cons_of_mem _ List.mem_cons_self)
      rw [TypeScript.verdict h, hv', heq, ← named_eq_self hname] at hts
      exact Bool.noConfusion (hv.symm.trans (Option.some.inj hts))
    · intro hne
      have hshort : (m'.named m.issuerAid).Short := ⟨hm'.head, hm.aid, hm'.tenant⟩
      have hbad : m'.verifiesUnder x key = false := by
        rw [hv', Bool.eq_false_iff]
        exact fun htrue => hne (eq_of_verifies hm hshort honly hcollision hsig htrue)
      have hrust : (verifyAnchor x m' [aidFromPubkey key]).isOk = false := by
        rw [Bool.eq_false_iff]
        intro hok
        obtain ⟨_, hok⟩ := exists_ok_of_isOk hok
        exact Bool.noConfusion (hbad.symm.trans (of_verifyAnchor hkey hok).2)
      simp [Unanimous, attestationVerdicts, Python.verdict h hkey.length hm', TypeScript.verdict h, hbad, hrust]

/-! ## A message under another name -/

/-- The stand-in whose issuer has signed one attestation, and whose signatures have 64 bytes. -/
def Externs.signedOnce (a : Attestation) : Externs :=
  let digest := framed (.sample []) (chainHeadAttestationParts a (attestationFraming a))
  { Externs.sample [] with ed25519Verify := fun _ d sig => decide (sig.length = 64) && d == digest }

/-- The platforms that share it. -/
def Sdk.of (x : Externs) : Sdk where
  sha256 := x.sha256
  ed25519Verify := x.ed25519Verify
  showStr s := s
  showF64 _ := ""
  decimal _ := .finite 0

def Python.of (x : Externs) : Python where
  toSdk := .of x
  urlsafeB64decode := Base64.decodePadded Base64.urlSafe
  jsonLoads _ := none
  time := 0

def TypeScript.of (x : Externs) : TypeScript where
  toSdk := .of x
  bufferFrom s := (Base64.decodeUnpadded Base64.urlSafe s).getD []
  bufferToString b := (ofUtf8? b).getD ""
  jsonParse _ := none
  jsonParseString _ := none
  time := 0

theorem oneSignature_signedOnce (a : Attestation) :
    OneSignature (.of (.signedOnce a)) (.of (.signedOnce a)) (.signedOnce a) where
  pySha256 := rfl
  tsSha256 := rfl
  pyVerify := rfl
  tsVerify := rfl
  sigLength h := of_decide_eq_true (Bool.and_eq_true_iff.mp h).1
  pyDecode := Base64.decodePadded_encodePadded Base64.urlSafe_lawful rfl
  tsDecode b := by
    show (Base64.decodeUnpadded Base64.urlSafe (Base64.encodeUnpadded Base64.urlSafe b)).getD [] = b
    rw [Base64.decodeUnpadded_encodeUnpadded Base64.urlSafe_lawful, Option.getD_some]

theorem signedOnce_only {a : Attestation} {key d sig : Bytes}
    (h : (Externs.signedOnce a).ed25519Verify key d sig = true) :
    d = framed (.signedOnce a) (chainHeadAttestationParts a (attestationFraming a)) :=
  eq_of_beq (Bool.and_eq_true_iff.mp h).2

theorem signedOnce_verifies {a : Attestation} (key : Bytes) (h : a.signature.length = 64) :
    attestationSignatureVerifies (.signedOnce a) key a = true :=
  Bool.and_eq_true_iff.mpr ⟨decide_eq_true h, beq_self_eq_true _⟩

def zeroKey : Bytes := List.replicate 32 0

def acmeAttestation : Attestation := ⟨3, [9], 5, aidFromPubkey zeroKey, 4, List.replicate 64 0, "acme"⟩

theorem acmeAttestation_short : acmeAttestation.Short := ⟨by decide, by decide +kernel, by decide +kernel⟩

theorem acmeAttestation_issuerAid : acmeAttestation.issuerAid = aidFromPubkey zeroKey := rfl

theorem zeroKey_valid (a : Attestation) : ValidKey (.signedOnce a) zeroKey := ⟨rfl, rfl⟩

theorem acmeAttestation_verifiesUnder : acmeAttestation.verifiesUnder (.signedOnce acmeAttestation) zeroKey = true := by
  rw [verifiesUnder, named_eq_self acmeAttestation_issuerAid]
  exact signedOnce_verifies zeroKey rfl

theorem acmeAttestation_accepted :
    Unanimous (attestationVerdicts (.of (.signedOnce acmeAttestation)) (.of (.signedOnce acmeAttestation))
      (.signedOnce acmeAttestation) (aidFromPubkey zeroKey) acmeAttestation) true := by
  rw [attestationVerdicts_eq (oneSignature_signedOnce _) (zeroKey_valid _) (by decide) acmeAttestation_short,
    acmeAttestation_verifiesUnder, decide_eq_true acmeAttestation_issuerAid]
  simp [Unanimous]

theorem attestation_verdicts_agree_acme :
    let x := Externs.signedOnce acmeAttestation
    (∃ b, Unanimous (attestationVerdicts (.of x) (.of x) x (aidFromPubkey zeroKey) acmeAttestation) b) ∧
      Unanimous (attestationVerdicts (.of x) (.of x) x (aidFromPubkey zeroKey)
        { acmeAttestation with tenant := "acmf" }) false := by
  intro x
  have hmain := attestation_verdicts_agree_iff (oneSignature_signedOnce acmeAttestation) (zeroKey_valid _)
    (show acmeAttestation.attestedLen ≠ 0 by decide) acmeAttestation_short
  have htampered := hmain.2 { acmeAttestation with tenant := "acmf" } acmeAttestation_accepted
    (fun _ _ => signedOnce_only) ⟨acmeAttestation_short.head, acmeAttestation_short.aid, by decide +kernel⟩ rfl
    (by decide +kernel)
  refine ⟨hmain.1.mpr (.inl acmeAttestation_issuerAid), htampered.mpr ?_⟩
  intro heq
  exact absurd (congrArg tenant heq) (by decide)

/-- A message under another name: Python and the verifier refuse it, TypeScript does not. -/
theorem another_name_unnoticed :
    let x := Externs.signedOnce acmeAttestation
    let renamed := { acmeAttestation with issuerAid := aidFromPubkey (List.replicate 32 1) }
    Unanimous (attestationVerdicts (.of x) (.of x) x (aidFromPubkey zeroKey) acmeAttestation) true ∧
      attestationVerdicts (.of x) (.of x) x (aidFromPubkey zeroKey) renamed = [some false, some true, some false] := by
  intro x renamed
  have hshort : renamed.Short := ⟨by decide, by decide +kernel, acmeAttestation_short.tenant⟩
  have hother : aidFromPubkey (List.replicate 32 1) ≠ aidFromPubkey zeroKey := by decide +kernel
  have hv : renamed.verifiesUnder x zeroKey = true := acmeAttestation_verifiesUnder
  refine ⟨acmeAttestation_accepted, ?_⟩
  rw [attestationVerdicts_eq (oneSignature_signedOnce _) (zeroKey_valid _) (by decide) hshort, hv,
    decide_eq_false hother]
  rfl

end SeamSdk
