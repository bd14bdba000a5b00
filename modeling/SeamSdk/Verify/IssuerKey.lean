import SeamSdk.Sdk.Offline

/-!
# What the issuer's key signs

Five kinds of message are checked against the issuer's key: the attestation of a head in the system partition, that of
a tenant's head, an erasure certificate, an evidence binding, and the text a token signs. The first four are hashes of
frames behind a domain of their own; the last is text, and longer than any hash.

- `erasureCertificate_ok_iff`: what is asked of a certificate;
- `chainHeadAttestationParts_inj`, `erasureParts_inj`: the signed parts determine the fields;
- `signingInput_long`: the text an accepted token signs has more than 32 bytes;
- `issuer_messages_separate`: one message is of one kind, and of one artifact up to its signature.
-/

namespace SeamSdk

open ByteCodec Checked

/-! ## The erasure certificate -/

/-- The parts an erasure certificate signs; the counts are frames themselves. -/
def erasureParts (c : Cert) : List Bytes :=
  [utf8 "seam.erasure-certificate.v1", utf8 c.subject, u32le (UInt32.ofNat c.erased.length)] ++ c.erased.map utf8 ++
    [u32le (UInt32.ofNat c.held.length)] ++ c.held.map utf8 ++ [u64le c.erasedAt, c.chainHead, utf8 c.issuerAid]

def erasurePayload (x : Externs) (c : Cert) : Bytes := framed x (erasureParts c)

/-- A certificate is checked against the pinned issuer, and only if it names that issuer. -/
def erasureCertificate (x : Externs) (pinnedAid : String) (c : Cert) : Except String Unit := do
  refuse (pinnedAid ≠ c.issuerAid)
    (s!"the certificate names issuer '{c.issuerAid}', but you pinned '{pinnedAid}'.\n  " ++
      "A signature only means something relative to a key you already trusted.")
  let key ← verifyingKey x pinnedAid
  refuse (c.signature.length ≠ 64) "signature is not 64 bytes"
  refuse (x.ed25519Verify key (erasurePayload x c) c.signature = false)
    ("the signature does not verify against the issuer's public key. The certificate is forged, " ++
      "or its contents were altered after signing.")

/-- **The certificate check.** -/
theorem erasureCertificate_ok_iff {x : Externs} {pinnedAid : String} {c : Cert} {u : Unit} :
    erasureCertificate x pinnedAid c = .ok u ↔ c.issuerAid = pinnedAid ∧ c.signature.length = 64 ∧
      ∃ key, verifyingKey x pinnedAid = .ok key ∧ x.ed25519Verify key (erasurePayload x c) c.signature = true := by
  simp only [erasureCertificate, bind_ok, refuse_ok, exists_const, ne_eq, not_not, Bool.not_eq_false]
  constructor
  · rintro ⟨rfl, key, hkey, hlen, hver⟩
    exact ⟨rfl, hlen, key, hkey, hver⟩
  · rintro ⟨rfl, hlen, key, hkey, hver⟩
    exact ⟨rfl, key, hkey, hlen, hver⟩

theorem erasureParts_eq (c : Cert) : erasureParts c = utf8 "seam.erasure-certificate.v1" :: c.body := by
  simp [erasureParts, Cert.body]

theorem erasureParts_inj {c d : Cert} (hc : c.Counted) (hd : d.Counted) (h : erasureParts c = erasureParts d) :
    { c with signature := [] } = { d with signature := [] } := by
  rw [erasureParts_eq, erasureParts_eq, List.cons.injEq] at h
  exact (Cert.body_split (r := []) (s := []) hc hd (by rw [h.2])).1

/-! ## The attestation -/

theorem attestationFraming_inj {a b : Attestation} (h : attestationFraming a = attestationFraming b) :
    a.tenant = b.tenant := by
  unfold attestationFraming at h
  split_ifs at h with ha hb
  · rw [ha, hb]
  · exact Option.some.inj h

/-- The tenant is behind the other fields, or absent under a domain of its own. -/
theorem chainHeadAttestationParts_inj {a b : Attestation}
    (h : chainHeadAttestationParts a (attestationFraming a) = chainHeadAttestationParts b (attestationFraming b)) :
    { a with signature := [] } = { b with signature := [] } := by
  simp only [chainHeadAttestationParts, List.cons_append, List.nil_append, List.cons.injEq, utf8_inj, u64le_inj,
    u32le_inj] at h
  obtain ⟨-, hlen, hhead, hat, hschema, haid, htenant⟩ := h
  have hframing := congrArg List.head? htenant
  rw [Option.head?_toList, Option.head?_toList, (Option.map_injective utf8_injective).eq_iff] at hframing
  rw [hlen, hhead, hat, hschema, haid, attestationFraming_inj hframing]

/-! ## The token -/

/-- A property of JSON: a string takes as many bytes of the document as it has itself, escaped or not. -/
def Readers.StringsFit (x : Readers) : Prop :=
  ∀ b j, x.jsonValue b = .ok j → ∀ name s, claim j name = some s → (utf8 s).length ≤ b.length

variable {x : Readers}

/-- An AID is longer than a hash, since it has a key and more. -/
theorem length_aid {x : Externs} {aid : String} {key : Bytes} (h : aidToKey x aid = .ok key) :
    32 < aid.toList.length := by
  simp only [aidToKey, bind_ok, demand_ok, refuse_ok, exists_const, pure_ok, ne_eq, not_not] at h
  obtain ⟨rest, hstrip, raw, hraw, hlen, rfl⟩ := h
  have hrest := Base64.length_decodeUnpadded_le hraw
  have hdrop : ∀ p : String, 0 < p.length → stripPrefix p aid = some rest → rest.toList.length < aid.toList.length := by
    intro p hp hs
    simp only [stripPrefix, Option.ite_none_right_eq_some, Option.some.injEq] at hs
    obtain ⟨htake, rfl⟩ := hs
    have htaken := congrArg List.length htake
    rw [List.length_take, String.length_toList, String.length_toList] at htaken
    rw [String.toList_ofList, List.length_drop, String.length_toList]
    omega
  rcases Option.or_eq_some_iff.mp hstrip with hs | ⟨-, hs⟩
  · have := hdrop _ (by decide) hs
    omega
  · have := hdrop _ (by decide) hs
    omega

theorem length_signingInput {token h p s : String} (hseg : jwsSegments token = some (h, p, s)) :
    (utf8 p).length < (signingInput token h p).length := by
  have hdot : (utf8 ".").length = 1 := by decide
  rw [signingInput_eq hseg]
  simp only [utf8_append, List.length_append, hdot]
  omega

/-- The text a token signs holds the issuer's AID, in the payload. -/
theorem signingInput_long (hx : x.StringsFit) {pinnedAid token h p s : String} {digest : Bytes} {now : UInt64}
    (hok : verifyTct x pinnedAid token digest now = .ok ()) (hseg : jwsSegments token = some (h, p, s)) :
    32 < (signingInput token h p).length := by
  obtain ⟨t, key, hok⟩ := verifyTct_ok_iff.mp hok
  obtain ⟨rfl, rfl, rfl⟩ : h = t.h ∧ p = t.p ∧ s = t.s := by
    simpa using hseg.symm.trans hok.segments
  obtain ⟨b, hb, hj, -⟩ := hok.payload
  obtain ⟨raw, hraw, -⟩ : ∃ raw, aidToKey x.toExterns pinnedAid = .ok raw ∧ _ := bind_ok.mp hok.pinned
  have haid := length_aid hraw
  have hchars := length_le_length_utf8 pinnedAid
  have hclaim := hx b t.claims hj "iss" pinnedAid hok.claims.iss
  have hdecoded := Base64.length_decodeUnpadded_le hb
  have hbytes := length_le_length_utf8 t.p
  have hinput := length_signingInput hseg
  omega

/-! ## Artifacts and their messages -/

/-- What the issuer signs. -/
inductive Artifact
  | attestation (a : Attestation)
  | certificate (c : Cert)
  | binding (b : EvidenceBinding)
  | token (t : String)

inductive MessageKind
  | systemHead
  | tenantHead
  | erasure
  | evidence
  | token
  deriving DecidableEq, Repr

namespace Artifact

def kind : Artifact → MessageKind
  | .attestation a => if a.tenant = "" then .systemHead else .tenantHead
  | .certificate _ => .erasure
  | .binding _ => .evidence
  | .token _ => .token

/-- The fields, without the signature on them. -/
def unsigned : Artifact → Artifact
  | .attestation a => .attestation { a with signature := [] }
  | .certificate c => .certificate { c with signature := [] }
  | .binding b => .binding b
  | .token t => .token t

/-- The framed parts of an artifact whose message is a hash. -/
def parts : Artifact → Option (List Bytes)
  | .attestation a => some (chainHeadAttestationParts a (attestationFraming a))
  | .certificate c => some (erasureParts c)
  | .binding b => some b.parts
  | .token _ => none

/-- Every frame fits its length prefix, and every list its count. -/
structure Short (A : Artifact) : Prop where
  frames : ∀ ps ∈ A.parts, ∀ p ∈ ByteCodec.frames ps, p.Short
  counts : ∀ c, A = .certificate c → c.Counted

def preimages (A : Artifact) : List Bytes := A.parts.toList.map fun ps => layout (ByteCodec.frames ps)

end Artifact

/-- The message a signature on the artifact is checked over. -/
inductive Signs (x : Readers) : Artifact → Bytes → Prop
  | attestation (a : Attestation) :
    Signs x (.attestation a) (framed x.toExterns (chainHeadAttestationParts a (attestationFraming a)))
  | certificate (c : Cert) : Signs x (.certificate c) (erasurePayload x.toExterns c)
  | binding (b : EvidenceBinding) : Signs x (.binding b) (b.digest x.toExterns)
  | token {pinnedAid token h p s : String} {digest : Bytes} {now : UInt64}
    (ok : verifyTct x pinnedAid token digest now = .ok ()) (segments : jwsSegments token = some (h, p, s)) :
    Signs x (.token token) (signingInput token h p)

/-- The message of an artifact is the hash of its parts, or the text of a token. -/
theorem Signs.hashed_or_long (hx : x.StringsFit) {A : Artifact} {m : Bytes} (h : Signs x A m) :
    (∃ ps, A.parts = some ps ∧ m = framed x.toExterns ps) ∨ A.kind = .token ∧ 32 < m.length := by
  cases h with
  | attestation | certificate | binding => exact .inl ⟨_, rfl, rfl⟩
  | token ok segments => exact .inr ⟨rfl, signingInput_long hx ok segments⟩

/-- The domain in front of the parts. -/
def MessageKind.domain : MessageKind → String
  | .systemHead => "seam.audit.chain-head-attestation.v1"
  | .tenantHead => "seam.audit.chain-head-attestation.v2"
  | .erasure => "seam.erasure-certificate.v1"
  | .evidence => "seam.evidence-binding.v1"
  | .token => ""

theorem MessageKind.domain_injective : Function.Injective MessageKind.domain := by
  intro k k' h
  cases k <;> cases k' <;> first | rfl | exact absurd h (by decide)

theorem Artifact.head?_parts {A : Artifact} {ps : List Bytes} (h : A.parts = some ps) :
    ps.head? = some (utf8 A.kind.domain) := by
  cases A with
  | attestation a =>
    cases h
    by_cases ht : a.tenant = ""
    · simp [chainHeadAttestationParts, attestationFraming, kind, ht, MessageKind.domain]
    · simp [chainHeadAttestationParts, attestationFraming, kind, ht, MessageKind.domain]
  | certificate c =>
    cases h
    rfl
  | binding b =>
    cases h
    rfl
  | token t => cases h

/-- Equal parts are those of one artifact, up to its signature. -/
theorem Artifact.parts_inj {A B : Artifact} {ps : List Bytes} (hA : A.Short) (hB : B.Short) (h : A.parts = some ps)
    (h' : B.parts = some ps) : A.kind = B.kind ∧ A.unsigned = B.unsigned := by
  have hkind : A.kind = B.kind := by
    have hhead := (head?_parts h).symm.trans (head?_parts h')
    exact MessageKind.domain_injective (utf8_injective (Option.some.inj hhead))
  refine ⟨hkind, ?_⟩
  have heq := h.trans h'.symm
  cases A with
  | attestation a =>
    cases B with
    | attestation b => exact congrArg attestation (chainHeadAttestationParts_inj (Option.some.inj heq))
    | _ =>
      simp only [kind] at hkind
      split at hkind <;> cases hkind
  | certificate c =>
    cases B with
    | certificate d =>
      exact congrArg certificate (erasureParts_inj (hA.counts c rfl) (hB.counts d rfl) (Option.some.inj heq))
    | attestation b =>
      simp only [kind] at hkind
      split at hkind <;> cases hkind
    | _ => cases hkind
  | binding b =>
    cases B with
    | binding b' => exact congrArg binding (EvidenceBinding.parts_inj (Option.some.inj heq))
    | attestation a =>
      simp only [kind] at hkind
      split at hkind <;> cases hkind
    | _ => cases hkind
  | token t => cases h

/-- **Domain separation of the issuer's key.** A message is of one kind, and among the four kinds of hashes it is that
of one artifact, up to the signature. -/
theorem issuer_messages_separate (hx : x.StringsFit) {A B : Artifact} {m : Bytes} (hA : Signs x A m) (hB : Signs x B m)
    (hsA : A.Short) (hsB : B.Short) (hfree : x.CollisionFree (A.preimages ++ B.preimages)) :
    A.kind = B.kind ∧ (A.kind ≠ .token → A.unsigned = B.unsigned) := by
  have hwidth : ∀ ps, (framed x.toExterns ps).length = 32 := fun _ => x.length_sha256 _
  rcases hA.hashed_or_long hx with ⟨ps, hps, rfl⟩ | ⟨hkind, hlong⟩
  · rcases hB.hashed_or_long hx with ⟨qs, hqs, heq⟩ | ⟨-, hlong⟩
    · have hlayout : layout (frames ps) = layout (frames qs) := by
        apply hfree _ _ _ _ heq
        · simp [Artifact.preimages, hps]
        · simp [Artifact.preimages, hqs]
      obtain rfl := frames_inj (hsA.frames ps hps) (hsB.frames qs hqs) hlayout
      obtain ⟨hkind, hfields⟩ := Artifact.parts_inj hsA hsB hps hqs
      exact ⟨hkind, fun _ => hfields⟩
    · rw [hwidth] at hlong
      omega
  · rcases hB.hashed_or_long hx with ⟨qs, -, rfl⟩ | ⟨hkind', -⟩
    · rw [hwidth] at hlong
      omega
    · exact ⟨hkind.trans hkind'.symm, fun h => absurd hkind h⟩

/-- A certificate of two ids, one of them held. -/
def sampleCert (signature : Bytes) : Cert := ⟨"subject", ["a"], ["b"], 0, genesis, sampleAid, signature⟩

theorem short_sampleCert (signature : Bytes) : (Artifact.certificate (sampleCert signature)).Short := by
  have hframes : ∀ p ∈ frames (erasureParts (sampleCert [])), p.Short := by decide +kernel
  refine ⟨?_, ?_⟩
  · intro ps hps
    cases hps
    exact hframes
  · intro c hc
    cases hc
    exact ⟨by simp [sampleCert], by simp [sampleCert]⟩

/-- A claim is a member of the document. -/
theorem claim_fits {ms : List (String × Json)} {n : Nat} (h : ∀ m ∈ ms, ∀ s ∈ m.2.asStr?, (utf8 s).length ≤ n)
    {name s : String} (hs : claim (.obj ms) name = some s) : (utf8 s).length ≤ n := by
  obtain ⟨v, hv, hs⟩ := Option.bind_eq_some_iff.mp hs
  obtain ⟨m, hm, rfl⟩ := Option.map_eq_some_iff.mp hv
  exact h m (List.mem_reverse.mp (List.mem_of_find?_eq_some hm)) s hs

theorem stringsFit_attested : (Issued.attested 1000).readers.StringsFit := by
  intro b j hj name s hs
  obtain ⟨rfl, hfind⟩ := Readers.of_jsonValue_reading hj
  rcases List.mem_pair.mp (List.mem_of_find?_eq_some hfind) with rfl | rfl
  · exact claim_fits (by decide +kernel) hs
  · exact claim_fits (by decide +kernel) hs

/-- What a token signs is no certificate, and two signatures on one certificate are over one message. -/
theorem issuer_messages_separate_token :
    let t := Issued.attested 1000
    let C (b : UInt8) := Artifact.certificate (sampleCert (List.replicate 64 b))
    (∃ m, Signs t.readers (.token t.compact) m ∧
      ∀ c, (Artifact.certificate c).Short → ¬Signs t.readers (.certificate c) m) ∧
    ∃ m, Signs t.readers (C 0) m ∧ Signs t.readers (C 1) m ∧ (C 0).unsigned = (C 1).unsigned := by
  intro t C
  have htct := tctOk_attested (UInt64.zero_le : 0 ≤ (1000 : UInt64))
  have hT := Signs.token (verifyTct_ok_iff.mpr ⟨_, _, htct⟩) t.jwsSegments_compact
  have hshort : (Artifact.token t.compact).Short := ⟨nofun, nofun⟩
  refine ⟨⟨_, hT, fun c hc hC => ?_⟩, _, .certificate _, .certificate _, ?_⟩
  · have hfree : t.readers.CollisionFree ((Artifact.token t.compact).preimages ++ (Artifact.certificate c).preimages) :=
      by simp [Artifact.preimages, Artifact.parts, Externs.CollisionFree]
    cases (issuer_messages_separate stringsFit_attested hT hC hshort hc hfree).1
  · exact (issuer_messages_separate stringsFit_attested (.certificate _) (.certificate _) (short_sampleCert _)
      (short_sampleCert _) (by decide +kernel)).2 (by decide)

end SeamSdk
