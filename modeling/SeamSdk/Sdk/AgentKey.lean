import SeamSdk.Lib.Decimal
import SeamSdk.Sdk.CallSig
import SeamSdk.Sdk.Issued

/-!
# What the Python SDK signs with an agent key

An agent key signs five kinds of message: the digest of an admission presentation, the two generations of a call
signature, a request credential and an enrolment proof. The last four are frames behind a context of their own. The
first is a bare SHA-256 digest, which is shorter than any of them.

- `Framed.inj`: frames behind contexts determine the context and the fields;
- `message_framed`: every kind with a context writes it first;
- `agent_messages_separate`: one message, one kind, and for credentials and enrolment proofs one tuple of fields.
-/

namespace SeamSdk

open ByteCodec List Option

/-- Ed25519 for the owner of a key. -/
structure Signer where
  /-- `Ed25519PrivateKey.from_private_bytes(seed).public_key().public_bytes_raw()`, which raises on what is no seed. -/
  publicKey : Bytes → Option Bytes
  /-- `sign`, on seed and message. -/
  sign : Bytes → Bytes → Bytes

namespace Python

/-! ## Messages -/

/-- Every part behind its length. -/
def framed (parts : List Bytes) : Option Bytes := do
  let parts ← parts.mapM frame
  return parts.flatten

def callSigContext : String := "seam-authorize-call-v2"

structure CallSigFields where
  ticket : Bytes
  toolInputDigest : String
  toolName : String
  agentId : String

def callSigPayload (f : CallSigFields) : Option Bytes :=
  framed [utf8 callSigContext, f.ticket, utf8 f.toolInputDigest, utf8 f.toolName, utf8 f.agentId]

def requestSigContext : String := "seam-request-call-v1"

structure RequestSigFields where
  ticket : Bytes
  rpcFullName : String
  resourceId : String
  bodyDigest : String

def requestSigPayload (f : RequestSigFields) : Option Bytes :=
  framed [utf8 requestSigContext, f.ticket, utf8 f.rpcFullName, utf8 f.resourceId, utf8 f.bodyDigest]

def enrollPopV1Context : String := "seam-enroll-pop-v1"

structure EnrollPopFields where
  subjectAid : String
  tenant : String
  «namespace» : String
  issuedAtMs : Int
  nonce : String

/-- `_uint_slot` with 64 bits and `struct.pack("<Q", …)`. -/
def packU64 (n : Int) : Option Bytes := if 0 ≤ n ∧ n < 2 ^ 64 then some (u64le (UInt64.ofNat n.toNat)) else none

def enrollPopPayload (f : EnrollPopFields) : Option Bytes := do
  let issuedAt ← packU64 f.issuedAtMs
  framed [utf8 enrollPopV1Context, utf8 f.subjectAid, utf8 f.tenant, utf8 f.namespace, issuedAt, utf8 f.nonce]

section Presentation

variable (x : Python) (k : Signer)

def proofDomain : Bytes := utf8 "aitp-pinned-key-v1" ++ [0]

def popMessageIdTag : String := "seam-pop-mid-v1"

/-- The bytes of a UUID from a hash, with the bits of version 4 and of the variant set. -/
def derivedUuid (tag : String) (data : Bytes) : Option Bytes := do
  let tag ← encodeAscii tag
  let h := (x.sha256 (tag ++ 0 :: data)).take 16
  return (h.modify 6 fun b => b &&& 0x0F ||| 0x40).modify 8 fun b => b &&& 0x3F ||| 0x80

/-- `str` of a UUID. -/
def uuidText (b : Bytes) : String :=
  "-".intercalate [RustText.hex (b.take 4), RustText.hex ((b.drop 4).take 2), RustText.hex ((b.drop 6).take 2),
    RustText.hex ((b.drop 8).take 2), RustText.hex (b.drop 10)]

def popMessageId (popNonce : String) : Option Bytes := (encodeAscii popNonce).bind (derivedUuid x popMessageIdTag)

/-- The digest that `build_presentation` signs. -/
def presentationDigest (agentSeed : Bytes) (receiverAid popNonce : String) (nowMs : Int) : Option Bytes := do
  let pub ← k.publicKey agentSeed
  let senderAid := aidFromPubkey pub
  let mid ← popMessageId x popNonce
  let timestamp := nowMs / 1000
  let nonce ← b64urlDecode x popNonce
  return x.sha256 (proofDomain ++ utf8 senderAid ++ [0] ++ utf8 receiverAid ++ [0] ++ utf8 (uuidText mid) ++ [0] ++
    utf8 (String.ofList (Decimal.intText timestamp)) ++ [0] ++ nonce)

end Presentation

/-! ## Kinds -/

/-- What an agent key is asked to sign. -/
inductive Artifact
  | presentation (agentSeed : Bytes) (receiverAid popNonce : String) (nowMs : Int)
  | callSig (f : CallSigFields)
  | callSigV3 (f : CallSigV3Fields)
  | requestSig (f : RequestSigFields)
  | enrollPop (f : EnrollPopFields)

inductive Kind
  | presentation
  | callSig
  | callSigV3
  | requestSig
  | enrollPop

def Artifact.kind : Artifact → Kind
  | .presentation .. => .presentation
  | .callSig _ => .callSig
  | .callSigV3 _ => .callSigV3
  | .requestSig _ => .requestSig
  | .enrollPop _ => .enrollPop

/-- The bytes that are signed, unless the SDK raises. -/
def Artifact.message (x : Python) (k : Signer) : Artifact → Option Bytes
  | .presentation agentSeed receiverAid popNonce nowMs => presentationDigest x k agentSeed receiverAid popNonce nowMs
  | .callSig f => callSigPayload f
  | .callSigV3 f => callSigV3Payload f
  | .requestSig f => requestSigPayload f
  | .enrollPop f => enrollPopPayload f

def Kind.context : Kind → Option String
  | .presentation => none
  | .callSig => some callSigContext
  | .callSigV3 => some callSigV3Context
  | .requestSig => some requestSigContext
  | .enrollPop => some enrollPopV1Context

/-- The frames behind the context. -/
def Artifact.fields : Artifact → List Bytes
  | .presentation .. => []
  | .callSig f => [f.ticket, utf8 f.toolInputDigest, utf8 f.toolName, utf8 f.agentId]
  | .callSigV3 f => f.parts.tail
  | .requestSig f => [f.ticket, utf8 f.rpcFullName, utf8 f.resourceId, utf8 f.bodyDigest]
  | .enrollPop f => [utf8 f.subjectAid, utf8 f.tenant, utf8 f.namespace, u64le (UInt64.ofNat f.issuedAtMs.toNat),
      utf8 f.nonce]

/-- A kind is told by its context. -/
theorem Kind.context_injective : Function.Injective Kind.context := by
  intro a b h
  cases a <;> cases b <;> first | rfl | exact absurd h (by decide)

/-! ## Frames behind a context -/

/-- `m` is `fields` framed behind `context`. -/
structure Framed (context : String) (fields : List Bytes) (m : Bytes) : Prop where
  short : ∀ b ∈ utf8 context :: fields, b.length < 2 ^ 32
  bytes : layout (frames (utf8 context :: fields)) = m

/-- Only what fits a length is framed. -/
theorem mapM_frame_eq_some : ∀ {ps fs : List Bytes}, ps.mapM frame = some fs →
    (∀ b ∈ ps, b.length < 2 ^ 32) ∧ fs = ps.map ByteCodec.frame
  | [], fs, h => ⟨by simp, (Option.some.inj h).symm⟩
  | p :: ps, fs, h => by
    rw [mapM_cons] at h
    obtain ⟨b, hb, hrest⟩ := bind_eq_some_iff.mp h
    obtain ⟨bs, hbs, heq⟩ := bind_eq_some_iff.mp hrest
    obtain ⟨hshort, rfl⟩ := mapM_frame_eq_some hbs
    unfold frame packU32 at hb
    split_ifs at hb with hp
    · refine ⟨forall_mem_cons.mpr ⟨hp, hshort⟩, ?_⟩
      rw [← Option.some.inj heq, ← Option.some.inj hb]
      rfl
    · cases hb

theorem framed_eq_some {ps : List Bytes} {m : Bytes} (h : framed ps = some m) :
    (∀ b ∈ ps, b.length < 2 ^ 32) ∧ layout (frames ps) = m := by
  obtain ⟨fs, hfs, heq⟩ := bind_eq_some_iff.mp h
  obtain ⟨hshort, rfl⟩ := mapM_frame_eq_some hfs
  exact ⟨hshort, (flatten_frames ps).symm.trans (Option.some.inj heq)⟩

theorem Framed.of_framed {context : String} {fields : List Bytes} {m : Bytes}
    (h : framed (utf8 context :: fields) = some m) : Framed context fields m :=
  ⟨(framed_eq_some h).1, (framed_eq_some h).2⟩

variable {context context' : String} {fields fields' : List Bytes} {m : Bytes}

theorem Framed.inj (h : Framed context fields m) (h' : Framed context' fields' m) :
    context = context' ∧ fields = fields' := by
  have hshort : ∀ {c : String} {fs : List Bytes}, Framed c fs m → ∀ p ∈ frames (utf8 c :: fs), p.Short := by
    intro c fs hf p hp
    obtain ⟨b, hb, rfl⟩ := mem_map.mp hp
    exact hf.short b hb
  have hparts := frames_inj (hshort h) (hshort h') (h.bytes.trans h'.bytes.symm)
  rw [List.cons.injEq, utf8_inj] at hparts
  exact hparts

theorem length_layout_frames (ps : List Bytes) :
    (layout (frames ps)).length = (ps.map List.length).sum + 4 * ps.length := by
  induction ps with
  | nil => rfl
  | cons p ps ih =>
    have hcons : layout (frames (p :: ps)) = ByteCodec.frame p ++ layout (frames ps) := rfl
    rw [hcons, length_append, ih, ByteCodec.frame, length_append, length_u32le, map_cons, sum_cons,
      length_cons]
    omega

theorem Framed.length_le (h : Framed context fields m) :
    (utf8 context).length + 4 * (fields.length + 1) ≤ m.length := by
  rw [← h.bytes, length_layout_frames, map_cons, sum_cons, length_cons]
  omega

/-! ## One message, one kind -/

variable {x : Python} {k : Signer} {a b : Artifact}

theorem callSigV3Payload_framed {f : CallSigV3Fields} (h : callSigV3Payload f = some m) :
    Framed callSigV3Context f.parts.tail m := by
  unfold callSigV3Payload at h
  obtain ⟨n, hn, h⟩ := bind_eq_some_iff.mp h
  obtain ⟨n', hn', h⟩ := bind_eq_some_iff.mp h
  rw [sorted_eq, length_sortedFeatures] at hn'
  rw [sorted_eq] at h
  unfold packU32 at hn hn'
  split_ifs at hn hn'
  obtain rfl := Option.some.inj hn
  obtain rfl := Option.some.inj hn'
  exact Framed.of_framed h

/-- **Every kind with a context writes it first.** -/
theorem message_framed (hc : a.kind.context = some context) (hm : a.message x k = some m) :
    Framed context a.fields m := by
  cases a with
  | presentation => cases hc
  | callSig | requestSig =>
    obtain rfl := Option.some.inj hc
    exact Framed.of_framed hm
  | callSigV3 f =>
    obtain rfl := Option.some.inj hc
    exact callSigV3Payload_framed hm
  | enrollPop f =>
    obtain rfl := Option.some.inj hc
    obtain ⟨t, ht, h⟩ := bind_eq_some_iff.mp hm
    unfold packU64 at ht
    split_ifs at ht
    obtain rfl := Option.some.inj ht
    exact Framed.of_framed h

/-- A framed message is longer than a digest. -/
theorem length_message_of_context (hc : a.kind.context = some context) (hm : a.message x k = some m) :
    32 < m.length := by
  have hlen := (message_framed hc hm).length_le
  have hcontext : 18 ≤ (utf8 context).length ∧ 4 ≤ a.fields.length := by
    cases a with
    | presentation => cases hc
    | callSig | requestSig | enrollPop =>
      obtain rfl := Option.some.inj hc
      exact ⟨by decide, by simp [Artifact.fields]⟩
    | callSigV3 f =>
      obtain rfl := Option.some.inj hc
      refine ⟨by decide, ?_⟩
      simp [Artifact.fields, CallSigV3Fields.parts, callSigParts]
  omega

theorem length_presentation (hsha : ∀ b, (x.sha256 b).length = 32) (hc : a.kind.context = none)
    (hm : a.message x k = some m) : m.length = 32 := by
  cases a with
  | presentation agentSeed receiverAid popNonce nowMs =>
    obtain ⟨pub, -, h⟩ := bind_eq_some_iff.mp hm
    obtain ⟨mid, -, h⟩ := bind_eq_some_iff.mp h
    obtain ⟨nonce, -, h⟩ := bind_eq_some_iff.mp h
    rw [← Option.some.inj h]
    exact hsha _
  | callSig | callSigV3 | requestSig | enrollPop => cases hc

theorem kind_eq_of_message_eq (hsha : ∀ b, (x.sha256 b).length = 32) (ha : a.message x k = some m)
    (hb : b.message x k = some m) : a.kind = b.kind := by
  apply Kind.context_injective
  cases hca : a.kind.context with
  | none =>
    cases hcb : b.kind.context with
    | none => rfl
    | some c =>
      have hshort := length_presentation hsha hca ha
      have hlong := length_message_of_context hcb hb
      omega
  | some c =>
    cases hcb : b.kind.context with
    | none =>
      have hshort := length_presentation hsha hcb hb
      have hlong := length_message_of_context hca ha
      omega
    | some c' => rw [((message_framed hca ha).inj (message_framed hcb hb)).1]

theorem issuedAtMs_of_message {f : EnrollPopFields} (h : (Artifact.enrollPop f).message x k = some m) :
    0 ≤ f.issuedAtMs ∧ f.issuedAtMs < 2 ^ 64 := by
  obtain ⟨t, ht, -⟩ := bind_eq_some_iff.mp h
  unfold packU64 at ht
  split_ifs at ht with hrange
  exact hrange

/-- The message of a request credential is made from one tuple of fields. -/
theorem requestSig_inj {f g : RequestSigFields} (hf : (Artifact.requestSig f).message x k = some m)
    (hg : (Artifact.requestSig g).message x k = some m) : f = g := by
  have hfields := ((message_framed rfl hf).inj (message_framed rfl hg)).2
  simp only [Artifact.fields, List.cons.injEq, utf8_inj, and_true] at hfields
  obtain ⟨hticket, hrpc, hresource, hdigest⟩ := hfields
  cases f
  cases g
  simp_all

/-- So is that of an enrolment proof. -/
theorem enrollPop_inj {f g : EnrollPopFields} (hf : (Artifact.enrollPop f).message x k = some m)
    (hg : (Artifact.enrollPop g).message x k = some m) : f = g := by
  have hfields := ((message_framed rfl hf).inj (message_framed rfl hg)).2
  simp only [Artifact.fields, List.cons.injEq, utf8_inj, u64le_inj, and_true] at hfields
  obtain ⟨haid, htenant, hnamespace, htime, hnonce⟩ := hfields
  have hrange := issuedAtMs_of_message hf
  have hrange' := issuedAtMs_of_message hg
  have hissued : f.issuedAtMs = g.issuedAtMs := by
    have hnat := congrArg UInt64.toNat htime
    simp only [UInt64.toNat_ofNat'] at hnat
    omega
  cases f
  cases g
  simp_all

/-- One kind, and for request credentials and enrolment proofs one tuple of fields. -/
def SameArtifact (a b : Artifact) : Prop := a.kind = b.kind ∧ (a.kind = .requestSig ∨ a.kind = .enrollPop → a = b)

theorem sameArtifact_of_message_eq (hsha : ∀ b, (x.sha256 b).length = 32) (ha : a.message x k = some m)
    (hb : b.message x k = some m) : SameArtifact a b := by
  have hkind := kind_eq_of_message_eq hsha ha hb
  refine ⟨hkind, fun hfields => ?_⟩
  cases a <;> cases b <;> cases hkind
  case requestSig.requestSig f g => rw [requestSig_inj ha hb]
  case enrollPop.enrollPop f g => rw [enrollPop_inj ha hb]
  all_goals rcases hfields with h | h <;> cases h

/-- **Main result.** Two artifacts with one message are of one kind, and the same if they are request credentials or
enrolment proofs. So a signature that verifies only for the message it was made for is good for no other artifact. -/
theorem agent_messages_separate (hsha : ∀ b, (x.sha256 b).length = 32) {m' : Bytes} (ha : a.message x k = some m)
    (hb : b.message x k = some m') :
    (m = m' → SameArtifact a b) ∧
    ∀ seed pub, (∀ p q, x.ed25519Verify pub q (k.sign seed p) = true → q = p) →
      x.ed25519Verify pub m' (k.sign seed m) = true → SameArtifact a b := by
  have hsame : m = m' → SameArtifact a b := by
    rintro rfl
    exact sameArtifact_of_message_eq hsha ha hb
  exact ⟨hsame, fun seed pub hideal hverify => hsame (hideal m m' hverify).symm⟩

/-- A signer whose signature is the message behind the seed, and a platform that checks it. -/
def seedSigner : Signer := ⟨some, fun seed m => seed ++ m⟩

def seedPlatform : Python where
  toSdk := { Sdk.sample [] with ed25519Verify := fun pub m sig => sig == pub ++ m }
  urlsafeB64decode := Base64.decodePadded Base64.urlSafe
  jsonLoads _ := none
  time := 0

theorem agent_messages_separate_request_call :
    let request : Artifact := .requestSig ⟨[1], "/seam.api.v1.SeamCoordination/GetDecision", "d", ""⟩
    let call : Artifact := .callSig ⟨[1], "/seam.api.v1.SeamCoordination/GetDecision", "d", ""⟩
    ∃ m m', request.message seedPlatform seedSigner = some m ∧ call.message seedPlatform seedSigner = some m' ∧
      seedPlatform.ed25519Verify [7] m (seedSigner.sign [7] m) = true ∧
      seedPlatform.ed25519Verify [7] m' (seedSigner.sign [7] m) ≠ true := by
  intro request call
  have hrequest : (request.message seedPlatform seedSigner).isSome = true := by decide +kernel
  have hcall : (call.message seedPlatform seedSigner).isSome = true := by decide +kernel
  obtain ⟨m, hm⟩ := Option.isSome_iff_exists.mp hrequest
  obtain ⟨m', hm'⟩ := Option.isSome_iff_exists.mp hcall
  have hsha : ∀ b, (seedPlatform.sha256 b).length = 32 := fun _ => length_leBytes ..
  have hideal : ∀ p q, seedPlatform.ed25519Verify [7] q (seedSigner.sign [7] p) = true → q = p := by
    intro p q h
    exact (List.append_cancel_left (eq_of_beq h)).symm
  refine ⟨m, m', hm, hm', beq_self_eq_true _, fun hverify => ?_⟩
  have hsame := (agent_messages_separate hsha hm hm').2 [7] [7] hideal hverify
  cases hsame.1

end Python

end SeamSdk
