import SeamSdk.Verify.Commitment

/-!
# The SDKs and their Commitment digest

Each SDK computes `seam-commitment-digest:v3` for itself. The framing is that of the verifier. What differs is how a
published explanation digest is read: Python takes it as it stands, TypeScript takes an empty one as absent, Go and
Java ask for 32 bytes.

- `boundExplanation_ok_iff`: which explanation digest a Commitment binds;
- `seamCommitmentDigest_agree`: with nothing or 32 bytes published, the four SDKs give one digest;
- `seamCommitmentDigest_verifier`: on the Commitment of the verifier it is the verifier's digest.
-/

namespace SeamSdk

open ByteCodec Checked

/-! ## Platforms -/

/-- What an SDK takes from its platform. -/
structure Sdk where
  sha256 : Bytes → Bytes
  /-- Ed25519 on key, message and signature; a key or a signature that is not one does not verify. -/
  ed25519Verify : Bytes → Bytes → Bytes → Bool
  /-- A string and a double as messages show them. -/
  showStr : String → String
  showF64 : UInt64 → String
  /-- What a number with a fraction or an exponent is read as. -/
  decimal : JsonNumber → Binary64.Value

structure Python extends Sdk where
  /-- `base64.urlsafe_b64decode`. -/
  urlsafeB64decode : String → Option Bytes
  /-- `json.loads`, without a hook. -/
  jsonLoads : Bytes → Option Json
  /-- `int(time.time())`. -/
  time : Int

structure TypeScript extends Sdk where
  /-- `Buffer.from(s, "base64url")`, which skips what it cannot decode. -/
  bufferFrom : String → Bytes
  /-- `Buffer.toString()`, with a replacement character for what is not UTF-8. -/
  bufferToString : Bytes → String
  /-- `JSON.parse`. -/
  jsonParse : String → Option Json
  /-- `JSON.parse` on the text of one string, its quotes included, in UTF-16 units. -/
  jsonParseString : List UInt16 → Option (List UInt16)
  /-- `Math.floor(Date.now() / 1000)`. -/
  time : Int

structure Go extends Sdk where
  /-- `base64.RawURLEncoding.DecodeString`. -/
  decodeString : String → Option Bytes
  /-- The value the tokens of a `json.Decoder` spell, when nothing follows it. -/
  tokens : Bytes → Option Json
  /-- `json.Unmarshal` into a map. -/
  unmarshal : Bytes → Option Json

structure Java extends Sdk where
  /-- `Base64.getUrlDecoder().decode`. -/
  urlDecode : String → Option Bytes
  /-- `new String(b, UTF_8)`, with a replacement character for what is not UTF-8. -/
  newString : Bytes → String
  /-- The value a strict `JsonReader` reads up to the end of the document. -/
  strictReader : String → Option Json
  /-- `GSON.fromJson` into a map. -/
  fromJson : String → Option Json

/-! ## Digests -/

/-- The fields the digest binds. The entries and their published digest are given or not. -/
structure SdkCommitment where
  id : String
  action : String
  authority : String
  supersedes : Option String
  authMethod : String
  trustBasis : String
  committer : String
  explanationDigest : Option Bytes
  explanation : Option (List ExplanationEntry)
  deriving DecidableEq, Repr

def SdkCommitment.parts (c : SdkCommitment) (explanation : Bytes) : List Part :=
  [.frame64 (utf8 "seam-commitment-digest:v3"), .frame64 (utf8 c.id), .frame64 (utf8 c.action),
    .frame64 (utf8 c.authority), .opt64 (c.supersedes.map utf8), .frame64 (utf8 c.authMethod),
    .frame64 (utf8 c.trustBasis), .frame64 (utf8 c.committer), .frame64 explanation]

namespace Sdk

variable (x : Sdk) (t : EntryTexts)

def explanationDigest (entries : List ExplanationEntry) : Except String Bytes := do
  checkEntries t 0 entries
  return x.sha256 (layout (explanationParts entries))

/-- The explanation digest that is bound: that of the entries if there are any, with which a published one must agree;
else the published one; else that of no entries. -/
def boundExplanation (published : Option Bytes) : Option (List ExplanationEntry) → Except String Bytes
  | none =>
    match published with
    | some p => return p
    | none => explanationDigest x t []
  | some entries => do
    let computed ← explanationDigest x t entries
    refuse (∃ p ∈ published, p ≠ computed) "explanation_digest does not match the explanation entries"
    return computed

/-- The same, when a published digest must have 32 bytes. -/
def sizedExplanation (message : Bytes → String) (c : SdkCommitment) : Except String Bytes := do
  refuseSome (c.explanationDigest.filter fun b => b.length ≠ 32) message
  boundExplanation x t c.explanationDigest c.explanation

/-- The digest in hexadecimal, over the explanation digest that is bound. -/
def commitmentHex (c : SdkCommitment) (explanation : Except String Bytes) : Except String String := do
  let e ← explanation
  return RustText.hex (x.sha256 (layout (c.parts e)))

end Sdk

namespace Python

variable (x : Python)

def entryTexts : EntryTexts where
  unknownKind _ kind := s!"unknown explanation kind {x.showStr kind}"
  confidence _ c := s!"non-canonical confidence {x.showF64 c}"

def commitmentExplanationDigest (c : SdkCommitment) : Except String Bytes :=
  x.boundExplanation (entryTexts x) c.explanationDigest c.explanation

def seamCommitmentDigest (c : SdkCommitment) : Except String String :=
  x.commitmentHex c (commitmentExplanationDigest x c)

end Python

namespace TypeScript

variable (x : TypeScript)

def entryTexts : EntryTexts where
  unknownKind _ kind := s!"unknown explanation kind {x.showStr kind}"
  confidence _ c := s!"non-canonical confidence {x.showF64 c}"

/-- An empty digest is one that was not published. -/
def publishedExplanationDigest (published : Option Bytes) : Option Bytes := published.filter fun b => b ≠ []

def commitmentExplanationDigest (c : SdkCommitment) : Except String Bytes :=
  x.boundExplanation (entryTexts x) (publishedExplanationDigest c.explanationDigest) c.explanation

def seamCommitmentDigest (c : SdkCommitment) : Except String String :=
  x.commitmentHex c (commitmentExplanationDigest x c)

end TypeScript

namespace Go

variable (x : Go)

def entryTexts : EntryTexts where
  unknownKind i kind := s!"explanation entry {i}: unknown kind {x.showStr kind}"
  confidence i c := s!"explanation entry {i}: non-canonical confidence {x.showF64 c}"

def commitmentExplanationDigest (c : SdkCommitment) : Except String Bytes :=
  x.sizedExplanation (entryTexts x) (fun b => s!"explanation_digest must be 32 bytes, got {b.length}") c

def seamCommitmentDigest (c : SdkCommitment) : Except String String :=
  x.commitmentHex c (commitmentExplanationDigest x c)

end Go

namespace Java

variable (x : Java)

def entryTexts : EntryTexts where
  unknownKind _ kind := s!"unknown explanation kind {kind}"
  confidence _ c := s!"non-canonical confidence {x.showF64 c}"

def commitmentExplanationDigest (c : SdkCommitment) : Except String Bytes :=
  x.sizedExplanation (entryTexts x) (fun _ => "explanation_digest must be 32 bytes") c

def seamCommitmentDigest (c : SdkCommitment) : Except String String :=
  x.commitmentHex c (commitmentExplanationDigest x c)

end Java

/-! ## What is bound -/

/-- The explanation digest `b` is the one to bind, under a hash. -/
def Bound (sha256 : Bytes → Bytes) (published : Option Bytes) : Option (List ExplanationEntry) → Bytes → Prop
  | none, b => published.getD (sha256 (layout (explanationParts []))) = b
  | some entries, b =>
    (∀ e ∈ entries, e.Canonical) ∧ sha256 (layout (explanationParts entries)) = b ∧ ∀ p ∈ published, p = b

variable {c : SdkCommitment} {s : String}

section Bound

variable {x : Sdk} {t : EntryTexts}

variable {b : Bytes}

theorem Sdk.explanationDigest_ok_iff {es : List ExplanationEntry} :
    x.explanationDigest t es = .ok b ↔ (∀ e ∈ es, e.Canonical) ∧ x.sha256 (layout (explanationParts es)) = b := by
  simp only [Sdk.explanationDigest, bind_ok, checkEntries_ok_iff, exists_const, pure_ok]

theorem Sdk.boundExplanation_ok_iff {published : Option Bytes} {es : Option (List ExplanationEntry)} :
    x.boundExplanation t published es = .ok b ↔ Bound x.sha256 published es b := by
  cases es with
  | none =>
    cases published with
    | none => simp [boundExplanation, explanationDigest_ok_iff, Bound]
    | some p => simp [boundExplanation, pure_ok, Bound]
  | some es =>
    simp only [boundExplanation, bind_ok, explanationDigest_ok_iff, refuse_ok, exists_const, pure_ok, Bound, not_exists,
      not_and, not_not]
    constructor
    · intro h
      rcases h with ⟨_, ⟨hcan, rfl⟩, hp, rfl⟩
      exact ⟨hcan, rfl, hp⟩
    · intro h
      rcases h with ⟨hcan, rfl, hp⟩
      exact ⟨_, ⟨hcan, rfl⟩, hp, rfl⟩

/-- The hexadecimal digest over the explanation digest that is bound. -/
def BoundHex (sha256 : Bytes → Bytes) (c : SdkCommitment) (published : Option Bytes) (s : String) : Prop :=
  ∃ b, Bound sha256 published c.explanation b ∧ RustText.hex (sha256 (layout (c.parts b))) = s

theorem Python.seamCommitmentDigest_ok_iff {x : Python} :
    x.seamCommitmentDigest c = .ok s ↔ BoundHex x.sha256 c c.explanationDigest s := by
  simp only [seamCommitmentDigest, commitmentExplanationDigest, Sdk.commitmentHex, bind_ok,
    Sdk.boundExplanation_ok_iff, pure_ok, BoundHex]

theorem TypeScript.seamCommitmentDigest_ok_iff {x : TypeScript} :
    x.seamCommitmentDigest c = .ok s ↔ BoundHex x.sha256 c (publishedExplanationDigest c.explanationDigest) s := by
  simp only [seamCommitmentDigest, commitmentExplanationDigest, Sdk.commitmentHex, bind_ok,
    Sdk.boundExplanation_ok_iff, pure_ok, BoundHex]

/-- Nothing is published, or 32 bytes. -/
def SdkCommitment.WellPublished (c : SdkCommitment) : Prop := ∀ p ∈ c.explanationDigest, p.length = 32

theorem Sdk.sizedExplanation_ok_iff {message : Bytes → String} :
    x.sizedExplanation t message c = .ok b ↔ c.WellPublished ∧ Bound x.sha256 c.explanationDigest c.explanation b := by
  simp [sizedExplanation, bind_ok, refuseSome_ok, boundExplanation_ok_iff, SdkCommitment.WellPublished]

theorem Go.seamCommitmentDigest_ok_iff {x : Go} :
    x.seamCommitmentDigest c = .ok s ↔ c.WellPublished ∧ BoundHex x.sha256 c c.explanationDigest s := by
  simp only [seamCommitmentDigest, commitmentExplanationDigest, Sdk.commitmentHex, bind_ok,
    Sdk.sizedExplanation_ok_iff, pure_ok, BoundHex, and_assoc, exists_and_left]

theorem Java.seamCommitmentDigest_ok_iff {x : Java} :
    x.seamCommitmentDigest c = .ok s ↔ c.WellPublished ∧ BoundHex x.sha256 c c.explanationDigest s := by
  simp only [seamCommitmentDigest, commitmentExplanationDigest, Sdk.commitmentHex, bind_ok,
    Sdk.sizedExplanation_ok_iff, pure_ok, BoundHex, and_assoc, exists_and_left]

end Bound

/-! ## Agreement -/

section Agreement

variable {py : Python} {ts : TypeScript} {go : Go} {jv : Java}

theorem SdkCommitment.WellPublished.published_eq (h : c.WellPublished) :
    TypeScript.publishedExplanationDigest c.explanationDigest = c.explanationDigest := by
  unfold TypeScript.publishedExplanationDigest
  cases hp : c.explanationDigest with
  | none => rfl
  | some p =>
    have hne : p ≠ [] := by
      intro hempty
      have := h p hp
      rw [hempty] at this
      cases this
    exact Option.filter_some_pos (decide_eq_true hne)

/-- **One digest in every SDK**, when nothing or 32 bytes are published. -/
theorem seamCommitmentDigest_agree (hc : c.WellPublished) (hts : ts.sha256 = py.sha256) (hgo : go.sha256 = py.sha256)
    (hjv : jv.sha256 = py.sha256) (s : String) :
    (ts.seamCommitmentDigest c = .ok s ↔ py.seamCommitmentDigest c = .ok s) ∧
      (go.seamCommitmentDigest c = .ok s ↔ py.seamCommitmentDigest c = .ok s) ∧
      (jv.seamCommitmentDigest c = .ok s ↔ py.seamCommitmentDigest c = .ok s) := by
  simp [Python.seamCommitmentDigest_ok_iff, TypeScript.seamCommitmentDigest_ok_iff, Go.seamCommitmentDigest_ok_iff,
    Java.seamCommitmentDigest_ok_iff, hc.published_eq, hts, hgo, hjv, hc]

/-- The Commitment of the verifier as an SDK is given it: the entries, and nothing published. -/
def Commitment.toSdk (c : Commitment) : SdkCommitment where
  id := c.id
  action := c.action
  authority := c.authority
  supersedes := c.supersedes
  authMethod := c.authMethod
  trustBasis := c.trustBasis
  committer := c.committer
  explanationDigest := none
  explanation := some c.explanation

/-- **The SDKs and the verifier compute one digest.** -/
theorem seamCommitmentDigest_verifier {r : Readers} (h : py.sha256 = r.sha256) {c : Commitment} :
    py.seamCommitmentDigest c.toSdk = .ok s ↔ ∃ b, commitmentDigest r c = .ok b ∧ RustText.hex b = s := by
  have hparts : ∀ e, c.toSdk.parts e = c.parts e := fun _ => rfl
  simp only [Python.seamCommitmentDigest_ok_iff, BoundHex, commitmentDigest_ok_iff, hparts, h]
  constructor
  · intro hx
    rcases hx with ⟨_, ⟨hcan, rfl, -⟩, hs⟩
    exact ⟨_, ⟨hcan, rfl⟩, hs⟩
  · intro hx
    rcases hx with ⟨_, ⟨hcan, rfl⟩, hs⟩
    refine ⟨_, ⟨hcan, rfl, ?_⟩, hs⟩
    intro p hp
    cases hp

end Agreement

end SeamSdk
