import SeamSdk.Verify.BundleMembers

/-!
# The manifest of an evidence bundle

The manifest is unsigned: an index, never a reason to trust anything. `checkManifest` compares what it says with the
pinned issuer and with the files it lists.

- `checkFile_ok_iff`, `checkFiles_ok_iff`: what is asked of a listed file, and of all of them;
- `checkManifest_ok_iff`: the whole step (`ManifestOk`).
-/

namespace SeamSdk

open ByteCodec Checked

/-- The only format this build knows. -/
def bundleFormat : String := "seam-evidence-bundle.v1"

/-- The items whose disclosure must agree with the files, each with its file. -/
def disclosable : List (String × String) :=
  [("commitment", "commitment.json"), ("binding", "binding.json"), ("context", "context.json"),
    ("policy", "policy.json")]

/-- A file name of the manifest with what is said of the file. -/
abbrev Listing := List (String × Json)

def lists (files : Listing) (name : String) : Bool := files.any fun f => f.1 == name

/-- A name that stays inside the directory. -/
def isPlainName (name : String) : Bool :=
  !(name == "" || RustText.contains name "/" || RustText.contains name "\\" || RustText.startsWith name "." ||
    name == "manifest.json")

/-- What a listing says of a file. -/
def statedSha256 (info : Json) : String := ((info.get? "sha256").bind Json.asStr?).getD ""

def statedSize (info : Json) : Option UInt64 := (info.get? "bytes").bind Json.asU64?

def statedIssuer (m : Json) : String := ((m.pointer ["issuer", "aid"]).bind Json.asStr?).getD ""

/-- The items a manifest says it discloses; what is no string is passed over. -/
def statedDisclosed (m : Json) : List String := (((m.get? "disclosed").bind Json.asArr?).getD []).filterMap Json.asStr?

section Check

variable (x : Readers) (dir : BundleDir) (pinned : String)

def checkFormat (m : Json) : Except BundleError Unit := do
  let format ← strField m "format" "manifest.json" 1
  refuse (format ≠ bundleFormat)
    (.failed 1 s!"manifest.json: format '{format}' is not '{bundleFormat}' — a verifier refuses a format it does not know")

def checkIssuer (m : Json) : Except BundleError Unit :=
  refuse (statedIssuer m ≠ pinned)
    (.failed 1 (s!"the bundle names issuer '{statedIssuer m}', but you pinned '{pinned}' — trust comes from the " ++
      "pin, never from the bundle, so a bundle naming another issuer is refused"))

/-- The copy of the issuer's key is optional, and checked when present. -/
def checkIssuerKey (m : Json) : Except BundleError Unit :=
  match m.pointer ["issuer", "ed25519_public_key"] with
  | none => return ()
  | some k => do
    let key ← (aidToKey x.toExterns pinned).mapError .usage
    refuse (k.asStr? ≠ some (RustText.hex key))
      (.failed 1 "manifest.json: issuer.ed25519_public_key is not the pinned AID's key")

/-- The window is required; a Commitment and its binding come together. -/
def checkMembers (files : Listing) : Except BundleError Unit := do
  refuseSome (["events.jsonl", "anchor.json"].find? fun r => !lists files r) fun r =>
    .failed 1 s!"manifest.json: required file '{r}' is not listed"
  refuse (lists files "commitment.json" ≠ lists files "binding.json")
    (.failed 1 ("commitment.json and binding.json must come as a pair: a Commitment without its binding " ++
      "is unlinked from the chain, and a binding without its Commitment proves nothing"))

/-- A listed file has a plain name, and the hash and size the manifest states. -/
def checkFile (name : String) (info : Json) : Except BundleError Unit := do
  refuse (isPlainName name = false) (.failed 1 s!"manifest.json: file name '{name}' is not a plain member name")
  let bytes ← readMember dir name 1
  let got := RustText.hex (x.sha256 bytes)
  refuse (got ≠ statedSha256 info)
    (.failed 1 s!"{name}: sha256 {got} does not match the manifest's {statedSha256 info}")
  refuse (statedSize info ≠ some (UInt64.ofNat bytes.length))
    (.failed 1 s!"{name}: size {bytes.length} does not match the manifest")

def checkFiles : Listing → Except BundleError Unit
  | [] => return ()
  | (name, info) :: files => do
    checkFile x dir name info
    checkFiles files

def checkDisclosed (m : Json) (files : Listing) : Except BundleError Unit :=
  refuseSome (disclosable.find? fun d => (statedDisclosed m).contains d.1 != lists files d.2) fun d =>
    .failed 1 s!"manifest.json: 'disclosed' and 'files' disagree about {d.1} ({d.2})"

/-- The first step. A directory without a readable manifest is no bundle; a listed file that is missing is a
refusal. -/
def checkManifest : Except BundleError Json := do
  let raw ← (dir.read "manifest.json").mapError fun e =>
    .usage s!"{dir.path}: cannot read manifest.json ({e}) — is this a seam-evidence-bundle.v1 directory?"
  let m ← parseJson x raw "manifest.json" 1
  checkFormat m
  checkIssuer pinned m
  checkIssuerKey x pinned m
  let files ← demand ((m.get? "files").bind Json.asObj?) (.failed 1 "manifest.json: missing object 'files'")
  checkMembers files
  checkFiles x dir files
  checkDisclosed m files
  return m

end Check

/-! ## What the step asks -/

variable {x : Readers} {dir : BundleDir} {pinned : String}

/-- A file as the manifest lists it. -/
structure FileOk (x : Externs) (dir : BundleDir) (name : String) (info : Json) : Prop where
  plain : isPlainName name = true
  stated : ∃ b, dir.read name = .ok b ∧ RustText.hex (x.sha256 b) = statedSha256 info ∧
    statedSize info = some (UInt64.ofNat b.length)

theorem checkFile_ok_iff {name : String} {info : Json} {u : Unit} :
    checkFile x dir name info = .ok u ↔ FileOk x.toExterns dir name info := by
  simp only [checkFile, readMember, bind_ok, refuse_ok, exists_const, mapError_ok, ne_eq, not_not, Bool.not_eq_false]
  exact ⟨fun h => ⟨h.1, h.2⟩, fun h => ⟨h.plain, h.stated⟩⟩

theorem checkFiles_ok_iff {files : Listing} {u : Unit} :
    checkFiles x dir files = .ok u ↔ ∀ f ∈ files, FileOk x.toExterns dir f.1 f.2 := by
  induction files with
  | nil => simp [checkFiles, pure_ok]
  | cons f files ih =>
    simp [checkFiles, bind_ok, checkFile_ok_iff, ih]

theorem checkIssuerKey_ok_iff {m : Json} {u : Unit} :
    checkIssuerKey x pinned m = .ok u ↔ ∀ k, m.pointer ["issuer", "ed25519_public_key"] = some k →
      ∃ key, aidToKey x.toExterns pinned = .ok key ∧ k.asStr? = some (RustText.hex key) := by
  unfold checkIssuerKey
  cases m.pointer ["issuer", "ed25519_public_key"] with
  | none => simp [pure_ok]
  | some k => simp [bind_ok, mapError_ok, refuse_ok]

/-- **What the first step asks of a manifest.** -/
structure ManifestOk (x : Readers) (dir : BundleDir) (pinned : String) (m : Json) : Prop where
  read : ∃ raw, dir.read "manifest.json" = .ok raw ∧ x.jsonValue raw = .ok m
  format : (m.get? "format").bind Json.asStr? = some bundleFormat
  issuer : statedIssuer m = pinned
  issuerKey : ∀ k, m.pointer ["issuer", "ed25519_public_key"] = some k →
    ∃ key, aidToKey x.toExterns pinned = .ok key ∧ k.asStr? = some (RustText.hex key)
  files : ∃ files, (m.get? "files").bind Json.asObj? = some files ∧ lists files "events.jsonl" = true ∧
    lists files "anchor.json" = true ∧ lists files "commitment.json" = lists files "binding.json" ∧
    (∀ f ∈ files, FileOk x.toExterns dir f.1 f.2) ∧
    ∀ d ∈ disclosable, (statedDisclosed m).contains d.1 = lists files d.2

/-- **The first step.** -/
theorem checkManifest_ok_iff {m : Json} : checkManifest x dir pinned = .ok m ↔ ManifestOk x dir pinned m := by
  simp only [checkManifest, checkFormat, checkIssuer, checkMembers, checkDisclosed, parseJson, strField, bind_ok,
    mapError_ok, refuse_ok, refuseSome_ok, demand_ok, exists_const, pure_ok, checkIssuerKey_ok_iff, checkFiles_ok_iff,
    List.find?_eq_none, List.forall_mem_cons, List.not_mem_nil, false_imp_iff, implies_true, and_true, ne_eq, not_not,
    Bool.not_eq_true, Bool.not_eq_false', bne_eq_false_iff_eq]
  constructor
  · intro h
    rcases h with ⟨raw, hraw, _, hm, ⟨_, hfmt, rfl⟩, hissuer, hkey, files, hfiles, ⟨⟨hev, han⟩, hpair⟩, hall, hdis, rfl⟩
    exact ⟨⟨raw, hraw, hm⟩, hfmt, hissuer, hkey, files, hfiles, hev, han, hpair, hall, hdis⟩
  · intro h
    rcases h with ⟨⟨raw, hraw, hm⟩, hfmt, hissuer, hkey, files, hfiles, hev, han, hpair, hall, hdis⟩
    exact ⟨raw, hraw, m, hm, ⟨_, hfmt, rfl⟩, hissuer, hkey, files, hfiles, ⟨⟨hev, han⟩, hpair⟩, hall, hdis, rfl⟩

end SeamSdk
