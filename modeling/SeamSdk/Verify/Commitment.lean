import SeamSdk.Lib.Binary64
import SeamSdk.Verify.Parse

/-!
# The Commitment and its token

A Commitment is digested in the framing `seam-commitment-digest:v3`, over 64-bit big-endian lengths, with its
explanation digested apart. The token that roots it (TCT) is a compact JWS of the issuer about itself, which carries
the digest in its `ext` claim.

- `explanationDigest_ok_iff`: an explanation is digested when each entry is canonical;
- `commitmentDigest_inj`: a digest commits to every field of the Commitment but the token;
- `verifyTct_ok_iff`: what is asked of a token (`TctOk`).
-/

namespace SeamSdk

open ByteCodec Checked

def explanationKinds : List String := ["vote", "evaluation", "objection", "ballot"]

/-- One sealed entry, with the word of its confidence. An absent confidence is not a confidence of zero. -/
structure ExplanationEntry where
  kind : String
  participant : String
  proposalId : String
  value : String
  reason : String
  confidence : Option UInt64
  rationaleRef : Option String
  deriving DecidableEq, Repr

structure Commitment where
  id : String
  action : String
  authority : String
  supersedes : Option String
  authMethod : String
  trustBasis : String
  committer : String
  explanation : List ExplanationEntry
  /-- The compact JWS; empty for a record sealed under a local identity. -/
  signedArtifact : String
  deriving DecidableEq, Repr

/-! ## Digests -/

def ExplanationEntry.parts (e : ExplanationEntry) : List Part :=
  [.frame64 (utf8 e.kind), .frame64 (utf8 e.participant), .frame64 (utf8 e.proposalId), .frame64 (utf8 e.value),
    .frame64 (utf8 e.reason), .optRaw (e.confidence.map u64be), .opt64 (e.rationaleRef.map utf8)]

def explanationHead (n : Nat) : List Part :=
  [.frame64 (utf8 "seam-explanation-digest:v1"), .raw (u64be (UInt64.ofNat n))]

def explanationParts (entries : List ExplanationEntry) : List Part :=
  explanationHead entries.length ++ entries.flatMap ExplanationEntry.parts

/-- The fields in the order of the framing. Of the optional ones only `supersedes` has a presence byte. -/
def Commitment.parts (c : Commitment) (explanation : Bytes) : List Part :=
  [.frame64 (utf8 "seam-commitment-digest:v3"), .frame64 (utf8 c.id), .frame64 (utf8 c.action),
    .frame64 (utf8 c.authority), .opt64 (c.supersedes.map utf8), .frame64 (utf8 c.authMethod),
    .frame64 (utf8 c.trustBasis), .frame64 (utf8 c.committer), .frame64 explanation]

/-- How an entry that is not canonical is reported, by its position. -/
structure EntryTexts where
  unknownKind : Nat → String → String
  confidence : Nat → UInt64 → String

/-- An unknown kind or a confidence that is not canonical is refused, never hashed. -/
def checkEntry (t : EntryTexts) (i : Nat) (e : ExplanationEntry) : Except String Unit := do
  refuse (e.kind ∉ explanationKinds) (t.unknownKind i e.kind)
  refuseSome (e.confidence.filter fun c => !Binary64.isCanonicalUnit c) (t.confidence i)

def checkEntries (t : EntryTexts) : Nat → List ExplanationEntry → Except String Unit
  | _, [] => return ()
  | i, e :: es => do
    checkEntry t i e
    checkEntries t (i + 1) es

section Digest

variable (x : Readers)

def entryTexts : EntryTexts where
  unknownKind i kind := s!"explanation[{i}]: unknown kind {x.debugStr kind}"
  confidence i c := s!"explanation[{i}]: confidence {x.debugF64 c} is not a canonical value in [0.0, 1.0]"

def explanationDigest (entries : List ExplanationEntry) : Except String Bytes := do
  checkEntries (entryTexts x) 0 entries
  return x.sha256 (layout (explanationParts entries))

def commitmentDigest (c : Commitment) : Except String Bytes := do
  let explanation ← explanationDigest x c.explanation
  return x.sha256 (layout (c.parts explanation))

end Digest

/-! ## The token -/

def tctVer : String := "aitp/0.3"

def attestationGrant : String := "aitp.attestation"

def extNamespace : String := "com.zer07labs.seam"

def extType : String := "seam:commitment"

/-- The thumbprint of an Ed25519 key: the hash of its JWK with sorted members and no blanks. -/
def jwkThumbprint (x : Externs) (key : Bytes) : String :=
  let jwk := Json.obj [("crv", .str "Ed25519"), ("kty", .str "OKP"),
    ("x", .str (Base64.encodeUnpadded Base64.urlSafe key))]
  Base64.encodeUnpadded Base64.urlSafe (x.sha256 (utf8 jwk.text))

/-- The three segments of a compact JWS. -/
def jwsSegments (token : String) : Option (String × String × String) :=
  match RustText.split '.' token with
  | [h, p, s] => some (h, p, s)
  | _ => none

/-- The bytes that are signed: the first two segments with the dot between them. -/
def signingInput (token h p : String) : Bytes := (utf8 token).take ((utf8 h).length + 1 + (utf8 p).length)

def extShapeMessage : String :=
  s!"the TCT's ext.{extNamespace} is not exactly " ++ "\x7b\"type\":\"" ++ extType ++
  "\",\"commitment_digest\":…\x7d"

/-- A string claim. -/
def claim (claims : Json) (name : String) : Option String := (claims.get? name).bind Json.asStr?

/-- A claim in whole seconds. -/
def seconds (claims : Json) (name : String) : Option UInt64 := (claims.get? name).bind Json.asU64?

section Token

variable (x : Readers)

/-- A document in which no object repeats a key: of two equal keys another reader may keep the other one. -/
def parseNoDuplicateKeys (b : Bytes) : Except String Json := do
  let j ← (x.jsonValue b).mapError fun _ => x.strictError b
  refuse (j.distinctKeys = false) (x.strictError b)
  return j

def segment (s what : String) : Except String Bytes :=
  demand (Base64.decodeUnpadded Base64.urlSafe s)
    s!"the TCT's {what} segment is not base64url: {x.base64Error s}"

/-- What the `ext` claim binds: one namespace, in it a commitment statement of two members. -/
def checkExt (claims : Json) (digest : Bytes) : Except String Unit := do
  let ext ← demand ((claims.get? "ext").filter Json.isObj) "the TCT carries no ext object"
  refuse (ext.size ≠ 1)
    s!"the TCT's ext carries a namespace other than {extNamespace} (exactly one is allowed)"
  let binding ← demand ((ext.get? extNamespace).filter Json.isObj) s!"the TCT's ext has no {extNamespace} object"
  refuse (binding.size ≠ 2 ∨ claim binding "type" ≠ some extType) extShapeMessage
  refuse (claim binding "commitment_digest" ≠ some (RustText.hex digest))
    ("the TCT's ext does not bind this Commitment's seam-commitment-digest:v3 (forged " ++
      "token, or an edited field)")

def checkClaims (pinnedAid : String) (key digest : Bytes) (now : UInt64) (claims : Json) : Except String Unit := do
  refuse (claims.isObj = false) "the TCT payload is not a JSON object"
  refuse (claim claims "ver" ≠ some tctVer) s!"the TCT's ver is not {tctVer}"
  refuse (claim claims "iss" ≠ some pinnedAid) "the TCT's iss is not the pinned issuer"
  refuse (claim claims "aud" ≠ some pinnedAid ∨ claim claims "sub" ≠ some pinnedAid)
    "the TCT is not self-issued to the pinned issuer (aud/sub)"
  let iat ← demand (seconds claims "iat") "the TCT's iat/exp are not integer seconds"
  let exp ← demand (seconds claims "exp") "the TCT's iat/exp are not integer seconds"
  refuse (exp < now) s!"the TCT expired at {exp} (now {now})"
  refuse (now < iat) s!"the TCT is not valid until {iat} (now {now})"
  refuse ((claims.pointer ["cnf", "jkt"]).bind Json.asStr? ≠ some (jwkThumbprint x.toExterns key))
    "the TCT's cnf.jkt is not the thumbprint of the issuer key"
  refuse ((claims.get? "grants").bind Json.strList? ≠ some [attestationGrant])
    (s!"the TCT's grants are not exactly [\"{attestationGrant}\"] (a commitment TCT is a " ++
      "self-attestation and carries no other grant)")
  checkExt claims digest

/-- A token is checked against the pinned issuer and the digest of one Commitment. -/
def verifyTct (pinnedAid token : String) (digest : Bytes) (now : UInt64) : Except String Unit := do
  let (h, p, s) ← demand (jwsSegments token) "the TCT is not a compact JWS (three segments)"
  refuse (h = "" ∨ p = "" ∨ s = "") "the TCT has an empty JWS segment"
  let headerBytes ← segment x h "header"
  let header ← (parseNoDuplicateKeys x headerBytes).mapError fun e => s!"the TCT header is not strict JSON: {e}"
  let payloadBytes ← segment x p "payload"
  let sig ← segment x s "signature"
  refuse (sig.length ≠ 64) "the TCT signature is not 64 bytes"
  refuse (claim header "typ" ≠ some "aitp-tct+jwt") "the TCT header's typ is not aitp-tct+jwt"
  refuse (claim header "alg" ≠ some "EdDSA") "the TCT header's alg is not EdDSA"
  let key ← verifyingKey x.toExterns pinnedAid
  refuse (x.ed25519Verify key (signingInput token h p) sig = false)
    "the TCT signature does not verify against the pinned issuer"
  let claims ← (parseNoDuplicateKeys x payloadBytes).mapError fun e => s!"the TCT payload is not strict JSON: {e}"
  checkClaims x pinnedAid key digest now claims

end Token

/-! ## What is digested -/

/-- A known kind, and a canonical confidence if any. -/
def ExplanationEntry.Canonical (e : ExplanationEntry) : Prop :=
  e.kind ∈ explanationKinds ∧ ∀ c ∈ e.confidence, c ≤ Binary64.one

variable {es : List ExplanationEntry} {b : Bytes} {c : Commitment} {u : Unit} {token : String}

theorem checkEntry_ok_iff {t : EntryTexts} {i : Nat} {e : ExplanationEntry} :
    checkEntry t i e = .ok u ↔ e.Canonical := by
  simp [checkEntry, bind_ok, refuse_ok, refuseSome_ok, ExplanationEntry.Canonical, Binary64.isCanonicalUnit_iff]

theorem checkEntries_ok_iff {t : EntryTexts} {i : Nat} : checkEntries t i es = .ok u ↔ ∀ e ∈ es, e.Canonical := by
  induction es generalizing i with
  | nil => simp [checkEntries, pure_ok]
  | cons e es ih =>
    simp [checkEntries, bind_ok, checkEntry_ok_iff, ih]

variable {x : Readers}

theorem explanationDigest_ok_iff :
    explanationDigest x es = .ok b ↔ (∀ e ∈ es, e.Canonical) ∧ x.sha256 (layout (explanationParts es)) = b := by
  simp only [explanationDigest, bind_ok, checkEntries_ok_iff, exists_const, pure_ok]

theorem ExplanationEntry.parts_sameShape (e e' : ExplanationEntry) :
    List.Forall₂ Part.SameShape e.parts e'.parts := by
  have hwidth : ∀ a ∈ e.confidence.map u64be, ∀ b ∈ e'.confidence.map u64be, a.length = b.length := by
    intro a ha b hb
    obtain ⟨c, -, rfl⟩ := Option.map_eq_some_iff.mp ha
    obtain ⟨c', -, rfl⟩ := Option.map_eq_some_iff.mp hb
    simp
  simp only [parts, List.forall₂_cons, List.Forall₂.nil, Part.SameShape, true_and, and_true]
  exact hwidth

theorem ExplanationEntry.parts_inj {e e' : ExplanationEntry} (h : e.parts = e'.parts) : e = e' := by
  have hword : ∀ {a b : UInt64}, u64be a = u64be b → a = b := u64be_inj.mp
  cases e
  cases e'
  simp only [parts, List.cons.injEq, Part.frame64.injEq, Part.optRaw.injEq, Part.opt64.injEq, utf8_inj, and_true,
    (Option.map_injective fun _ _ => hword).eq_iff, (Option.map_injective utf8_injective).eq_iff] at h
  simp [h]

theorem ExplanationEntry.layout_parts_ne_nil (e : ExplanationEntry) : layout e.parts ≠ [] := by
  intro h
  have := congrArg List.length h
  simp [parts, Part.bytes, frame64] at this

/-- The entries close the layout, so their number need not be read. -/
theorem explanationParts_inj {es' : List ExplanationEntry} (hs : ∀ p ∈ explanationParts es, p.Short)
    (hs' : ∀ p ∈ explanationParts es', p.Short) (h : layout (explanationParts es) = layout (explanationParts es')) :
    es = es' := by
  simp only [explanationParts, List.forall_mem_append, layout_append] at hs hs' h
  have hshape : List.Forall₂ Part.SameShape (explanationHead es.length) (explanationHead es'.length) := by
    simp [explanationHead, Part.SameShape]
  obtain ⟨-, htail⟩ := layout_split hshape hs.1 hs'.1 h
  exact records_inj ExplanationEntry.parts_sameShape (fun _ _ => ExplanationEntry.parts_inj)
    ExplanationEntry.layout_parts_ne_nil hs.2 hs'.2 htail

theorem Commitment.parts_inj {c' : Commitment} {b' : Bytes} (h : c.parts b = c'.parts b') :
    c.id = c'.id ∧ c.action = c'.action ∧ c.authority = c'.authority ∧ c.supersedes = c'.supersedes ∧
      c.authMethod = c'.authMethod ∧ c.trustBasis = c'.trustBasis ∧ c.committer = c'.committer ∧ b = b' := by
  simpa [parts, (Option.map_injective utf8_injective).eq_iff] using h

/-- Every length of a Commitment fits its prefix. -/
structure Commitment.Short (c : Commitment) : Prop where
  explanation : ∀ p ∈ explanationParts c.explanation, p.Short
  fields : ∀ b, b.length = 32 → ∀ p ∈ c.parts b, p.Short

theorem commitmentDigest_ok_iff : commitmentDigest x c = .ok b ↔ (∀ e ∈ c.explanation, e.Canonical) ∧
      x.sha256 (layout (c.parts (x.sha256 (layout (explanationParts c.explanation))))) = b := by
  simp only [commitmentDigest, bind_ok, explanationDigest_ok_iff, pure_ok]
  constructor
  · intro h
    rcases h with ⟨_, ⟨hcan, rfl⟩, hb⟩
    exact ⟨hcan, hb⟩
  · intro h
    rcases h with ⟨hcan, hb⟩
    exact ⟨_, ⟨hcan, rfl⟩, hb⟩

/-- The inputs hashed for a Commitment. -/
def commitmentInputs (x : Externs) (c : Commitment) : List Bytes :=
  [layout (explanationParts c.explanation), layout (c.parts (x.sha256 (layout (explanationParts c.explanation))))]

/-- **A digest commits to the whole Commitment**, the token aside. -/
theorem commitmentDigest_inj {c' : Commitment} (h : commitmentDigest x c = .ok b) (h' : commitmentDigest x c' = .ok b)
    (hc : c.Short) (hc' : c'.Short)
    (hfree : x.CollisionFree (commitmentInputs x.toExterns c ++ commitmentInputs x.toExterns c')) :
    { c with signedArtifact := "" } = { c' with signedArtifact := "" } := by
  obtain ⟨-, rfl⟩ := commitmentDigest_ok_iff.mp h
  obtain ⟨-, heq⟩ := commitmentDigest_ok_iff.mp h'
  have hlayout := hfree _ (by simp [commitmentInputs]) _ (by simp [commitmentInputs]) heq
  have hshape : List.Forall₂ Part.SameShape
      (c'.parts (x.sha256 (layout (explanationParts c'.explanation))))
      (c.parts (x.sha256 (layout (explanationParts c.explanation)))) := by
    simp [Commitment.parts, Part.SameShape]
  have hparts := layout_inj hshape (hc'.fields _ (x.length_sha256 _)) (hc.fields _ (x.length_sha256 _)) hlayout
  obtain ⟨hid, haction, hauthority, hsup, hmethod, hbasis, hcommitter, hexp⟩ := Commitment.parts_inj hparts
  have hexp := hfree _ (by simp [commitmentInputs]) _ (by simp [commitmentInputs]) hexp
  have hentries := explanationParts_inj hc'.explanation hc.explanation hexp
  cases c
  cases c'
  simp_all

/-! ## What is asked of a token -/

/-- The claims of a token about a Commitment: self-issued, in force, and binding the digest. -/
structure ClaimsOk (x : Externs) (pinnedAid : String) (key digest : Bytes) (now : UInt64) (claims : Json) : Prop where
  object : claims.isObj = true
  ver : claim claims "ver" = some tctVer
  iss : claim claims "iss" = some pinnedAid
  aud : claim claims "aud" = some pinnedAid
  sub : claim claims "sub" = some pinnedAid
  inForce : ∃ iat exp, seconds claims "iat" = some iat ∧ seconds claims "exp" = some exp ∧ now ≤ exp ∧ iat ≤ now
  jkt : (claims.pointer ["cnf", "jkt"]).bind Json.asStr? = some (jwkThumbprint x key)
  grants : (claims.get? "grants").bind Json.strList? = some [attestationGrant]
  ext : ∃ ext binding, (claims.get? "ext").filter Json.isObj = some ext ∧ ext.size = 1 ∧
    (ext.get? extNamespace).filter Json.isObj = some binding ∧ binding.size = 2 ∧
    claim binding "type" = some extType ∧ claim binding "commitment_digest" = some (RustText.hex digest)

/-- A token taken apart: its segments, and what they hold. -/
structure Jws where
  h : String
  p : String
  s : String
  header : Json
  claims : Json
  sig : Bytes

/-- A segment holds a document that repeats no key. -/
def Holds (x : Readers) (seg : String) (j : Json) : Prop :=
  ∃ b, Base64.decodeUnpadded Base64.urlSafe seg = some b ∧ x.jsonValue b = .ok j ∧ j.distinctKeys = true

/-- A token of the pinned issuer that binds the digest. -/
structure TctOk (x : Readers) (pinnedAid token : String) (digest : Bytes) (now : UInt64) (t : Jws) (key : Bytes) :
    Prop where
  segments : jwsSegments token = some (t.h, t.p, t.s)
  nonempty : t.h ≠ "" ∧ t.p ≠ "" ∧ t.s ≠ ""
  header : Holds x t.h t.header
  payload : Holds x t.p t.claims
  signature : Base64.decodeUnpadded Base64.urlSafe t.s = some t.sig ∧ t.sig.length = 64
  typ : claim t.header "typ" = some "aitp-tct+jwt"
  alg : claim t.header "alg" = some "EdDSA"
  pinned : verifyingKey x.toExterns pinnedAid = .ok key
  verifies : x.ed25519Verify key (signingInput token t.h t.p) t.sig = true
  claims : ClaimsOk x.toExterns pinnedAid key digest now t.claims

/-- The segments are the token between its dots. -/
theorem eq_of_jwsSegments {h p s : String} (hseg : jwsSegments token = some (h, p, s)) :
    token = h ++ "." ++ p ++ ("." ++ s) := by
  have hsplit : RustText.split '.' token = [h, p, s] := by
    unfold jwsSegments at hseg
    split at hseg
    · rename_i hl
      simp only [Option.some.injEq, Prod.mk.injEq] at hseg
      obtain ⟨rfl, rfl, rfl⟩ := hseg
      exact hl
    · cases hseg
  have htext := RustText.intercalate_split '.' token
  rw [hsplit] at htext
  apply String.toList_inj.mp
  rw [← htext]
  simp [List.intercalate]

theorem signingInput_eq {h p s : String} (hseg : jwsSegments token = some (h, p, s)) :
    signingInput token h p = utf8 (h ++ "." ++ p) := by
  have hdot : (utf8 ".").length = 1 := by decide
  have hlen : (utf8 h).length + 1 + (utf8 p).length = (utf8 (h ++ "." ++ p)).length := by
    simp only [utf8_append, List.length_append, hdot]
  rw [signingInput, hlen, eq_of_jwsSegments hseg, utf8_append (h ++ "." ++ p), List.take_left]

theorem parseNoDuplicateKeys_ok {j : Json} :
    parseNoDuplicateKeys x b = .ok j ↔ x.jsonValue b = .ok j ∧ j.distinctKeys = true := by
  simp only [parseNoDuplicateKeys, bind_ok, mapError_ok, refuse_ok, exists_const, pure_ok, Bool.not_eq_false]
  constructor
  · intro h
    rcases h with ⟨_, hj, hd, rfl⟩
    exact ⟨hj, hd⟩
  · intro h
    rcases h with ⟨hj, hd⟩
    exact ⟨j, hj, hd, rfl⟩

theorem checkClaims_ok_iff {pinnedAid : String} {key digest : Bytes} {now : UInt64} {claims : Json} :
    checkClaims x pinnedAid key digest now claims = .ok u ↔ ClaimsOk x.toExterns pinnedAid key digest now claims := by
  simp only [checkClaims, checkExt, bind_ok, refuse_ok, exists_const, demand_ok, not_or, ne_eq, not_not,
    Bool.not_eq_false, UInt64.not_lt]
  constructor
  · rintro ⟨hobj, hver, hiss, ⟨haud, hsub⟩, iat, hiat, exp, hexp, hle, hge, hjkt, hgrants, ext, hext, hsize, b, hb,
      ⟨hbsize, htype⟩, hdigest⟩
    exact ⟨hobj, hver, hiss, haud, hsub, ⟨iat, exp, hiat, hexp, hle, hge⟩, hjkt, hgrants,
      ⟨ext, b, hext, hsize, hb, hbsize, htype, hdigest⟩⟩
  · rintro ⟨hobj, hver, hiss, haud, hsub, ⟨iat, exp, hiat, hexp, hle, hge⟩, hjkt, hgrants,
      ⟨ext, b, hext, hsize, hb, hbsize, htype, hdigest⟩⟩
    exact ⟨hobj, hver, hiss, ⟨haud, hsub⟩, iat, hiat, exp, hexp, hle, hge, hjkt, hgrants, ext, hext, hsize, b, hb,
      ⟨hbsize, htype⟩, hdigest⟩

/-- **The token check.** -/
theorem verifyTct_ok_iff {pinnedAid : String} {digest : Bytes} {now : UInt64} :
    verifyTct x pinnedAid token digest now = .ok u ↔
      ∃ t key, TctOk x pinnedAid token digest now t key := by
  simp only [verifyTct, segment, bind_ok, refuse_ok, exists_const, demand_ok, mapError_ok, parseNoDuplicateKeys_ok,
    checkClaims_ok_iff, not_or, ne_eq, not_not, Bool.not_eq_false, Prod.exists]
  constructor
  · rintro ⟨h, p, s, hseg, hne, hb, hhb, header, hheader, pb, hpb, sig, hsig, hlen, htyp, halg, key, hkey, hver, claims,
      hclaims, hok⟩
    exact ⟨⟨h, p, s, header, claims, sig⟩, key, hseg, hne, ⟨hb, hhb, hheader⟩, ⟨pb, hpb, hclaims⟩, ⟨hsig, hlen⟩,
      htyp, halg, hkey, hver, hok⟩
  · intro hx
    rcases hx with ⟨t, key, hseg, hne, ⟨hb, hhb, hheader⟩, ⟨pb, hpb, hclaims⟩, ⟨hsig, hlen⟩, htyp, halg, hkey, hver, hok⟩
    exact ⟨t.h, t.p, t.s, hseg, hne, hb, hhb, t.header, hheader, pb, hpb, t.sig, hsig, hlen, htyp, halg, key, hkey,
      hver, t.claims, hclaims, hok⟩

end SeamSdk
