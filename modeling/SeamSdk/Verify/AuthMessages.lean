import SeamSdk.Verify.RecordDigest

/-!
# Reports and refusals of the authenticity check

The data `verifyAuthenticityAnchoredWith` works on and the texts it refuses with.
-/

namespace SeamSdk

open ByteCodec

/-- A chained link there is no preimage for. -/
structure Uncovered where
  seq : UInt64
  tenant : String
  kind : String
  action : Option String
  deriving DecidableEq, Repr

structure IssuerReport where
  attestations : Nat
  coveredPrefix : UInt64
  recordsRecomputed : Nat
  entriesRecomputed : Nat
  uncovered : List Uncovered
  covering : Nat
  belowWindow : Nat
  deriving DecidableEq, Repr

structure AuthOptions where
  allowUncovered : Bool
  deriving DecidableEq, Repr

/-- The strict default. -/
def AuthOptions.default : AuthOptions := ⟨false⟩

/-- What attestations are checked against: a start and the running heads and schema maxima past it. -/
structure Window where
  heads : List Bytes
  maxSchemaByLink : List UInt32
  baseLen : UInt64
  baseHead : Bytes

/-- The counts of the first pass. -/
structure Recount where
  records : Nat
  entries : Nat
  uncovered : List Uncovered

/-- The counts of the second pass. -/
structure Coverage where
  attestations : Nat
  coveredPrefix : UInt64
  covering : Nat
  belowWindow : Nat

section Messages

variable (x : Externs)

def Uncovered.describe (u : Uncovered) : String :=
  s!"seq {u.seq}, tenant {x.debugStr u.tenant}, kind {x.debugStr u.kind}, action " ++
    (u.action.map x.debugStr).getD "(none)"

def uncoveredEntry : String := "UNCOVERED ENTRY"

def uncoveredRefusal (entries : List Uncovered) : String :=
  let one := entries.length = 1
  let ending := if one then "y" else "ies"
  let carry := if one then "ies" else "y"
  let whose := if one then "its" else "their"
  (s!"{uncoveredEntry} — {entries.length} chained entr{ending} carr{carry} an action or kind this build cannot " ++
    s!"recompute, so {whose} content is unverified, and --issuer refuses to report a green chain over content it " ++
    "never checked (spec (b′): uncovered is REFUSED under --issuer). A rewritten entry relabelled " ++
    "to an unknown action would otherwise verify. A newer producer needs a newer seam-verify.") ++
  String.join (entries.map fun u => "\n  " ++ u.describe x)

def entryRewriteMessage (e : Event) (what : String) : String :=
  if what.endsWith "classification" then
    s!"seq {e.seq}: ENTRY REWRITE — the chained {what} ({x.debugStr e.classification}) is not the label its action " ++
    "or kind fixes.\n  The envelope classification sits outside the digest, so a " ++
    "relabel leaves the link hashing; it is bound to the action or kind instead, and " ++
    "this one was changed after the entry was chained."
  else
    s!"seq {e.seq}: ENTRY REWRITE — the chained {what}'s fields do not recompute the " ++
    "digest the chain links.\n  A field (e.g. an actor, a session, an attested head or an " ++
    "erased id) was rewritten after the entry was chained: the link still hashes, but " ++
    "the entry no longer matches it."

def unknownSchemaMessage (d : Decision) : String :=
  let relation := if d.schemaVersion > recordDigestSchema then "NEWER THAN THIS VERIFIER"
    else "RETIRED (v1-v3 were retired by P7)"
  (s!"CANNOT VERIFY: a DECISION_SEALED ({d.decisionId}) declares schema_version {d.schemaVersion}, which is " ++
    s!"{relation}.\n  This build implements only the v{recordDigestSchema} record-digest formula; it cannot " ++
    "prove a record matches a digest computed under a formula it does not have. Refused " ++
    "rather than skipped — treating an unknown version as cannot-recompute-so-pass is how a " ++
    "downgrade gets through.")

def noCiphertextDigestMessage (d : Decision) : String :=
  s!"a v{d.schemaVersion} DECISION_SEALED ({d.decisionId}) carries NO ciphertext_digest (tag 10).\n  " ++
  "Every record is required to commit its SHA256(ciphertext); an absent tag 10 is a " ++
  "strip/downgrade attack (rewrite a field, drop the commitment, leave the " ++
  "(prev,digest,checksum) triple intact so the signed head still matches) — refused, not " ++
  "treated as cannot-recompute-so-pass."

def recordMismatchMessage (d : Decision) (recomputed wire : Bytes) : String :=
  s!"a v{d.schemaVersion} DECISION_SEALED ({d.decisionId}) does NOT match its own digest.\n  " ++
  s!"recomputed {RustText.hex recomputed}\n  wire       {RustText.hex wire}\n  " ++
  "A structural column (e.g. outcome) was rewritten after sealing: the chain link still " ++
  "hashes, but the record digest no longer matches the payload it commits to."

def tenantMismatchMessage (e : Event) (a : Attestation) : String :=
  s!"ATTESTATION TENANT MISMATCH — a CHAIN_HEAD_ATTESTATION over len {a.attestedLen} carries payload " ++
  s!"tenant '{a.tenant}', but its own envelope tenant is '{e.tenant}'.\n  " ++
  "The envelope is set by the transport, the payload tenant by the signer's own record " ++
  "of which tenant it was attesting (and, since #835 step 4, signed); a genuine " ++
  "attestation always agrees with itself. An empty payload tenant under a named " ++
  "envelope (minted before U-RT-3 Phase 2) is this same refusal, with or without " ++
  "--strict. Refused outright, never silently trusted on either field alone."

def unpinnedIssuerMessage (a : Attestation) (pinnedAids : List String) : String :=
  s!"a CHAIN_HEAD_ATTESTATION names issuer '{a.issuerAid}', but you pinned [{joinAids pinnedAids}].\n  " ++
  "A signature only means something relative to a key you already trusted; deriving the key " ++
  "from the attestation's own issuer would let a forgery verify against its forger."

def badSignatureMessage (a : Attestation) : String :=
  s!"a CHAIN_HEAD_ATTESTATION over len {a.attestedLen} (tenant {x.debugStr a.tenant}) does not verify against the " ++
  "pinned issuer's key under the one framing its tenant selects (v1 for the empty tenant, v2 for " ++
  "a named one — #835 step 4, no fallback). The attestation is forged, or its (len, head, " ++
  "tenant) was altered after signing, or it is a v1 signature carrying a tenant (minted " ++
  "before #835 step 3: verify from a v2 anchor onward) — or it was signed under a framing " ++
  "newer than this verifier, in which case upgrade seam-verify before concluding forgery."

def vacuousMessage (a : Attestation) : String :=
  "a CHAIN_HEAD_ATTESTATION is VACUOUS — attested_len is 0, a signed claim about the " ++
  "empty prefix.\n  " ++
  "It claims nothing (a conforming producer never signs the empty chain), so its very " ++
  "presence on the wire means a non-conforming or rolled-back producer signed with " ++
  s!"issuer '{a.issuerAid}'. Refused outright per spec clause (d) — it can never be the attestation " ++
  "that authenticates a stream."

def anchorSpliceMessage (a : Attestation) (w : Window) : String :=
  s!"a CHAIN_HEAD_ATTESTATION attests head {RustText.hex a.attestedHead} at len {a.attestedLen}, this window's anchor " ++
  s!"position, but the anchor's head there is {RustText.hex w.baseHead}.\n  " ++
  "The signature is authentic, so this is an issuer-signed head SPLICED onto a " ++
  "different (forged or diverged) chain — exactly what the position check exists to " ++
  "catch."

def pastWindowMessage (a : Attestation) (w : Window) : String :=
  s!"a CHAIN_HEAD_ATTESTATION attests len {a.attestedLen}, but the window (anchored at {w.baseLen}) has only " ++
  s!"{w.heads.length - 1} chained links — it cannot be covering this window."

def spliceMessage (a : Attestation) (want : Bytes) : String :=
  s!"a CHAIN_HEAD_ATTESTATION attests head {RustText.hex a.attestedHead} at len {a.attestedLen}, but this window's " ++
  s!"head there is {RustText.hex want}.\n  " ++
  "The signature is authentic, so this is an issuer-signed head SPLICED onto a different " ++
  "(forged or diverged) chain — exactly what the position check exists to catch."

def shortSchemaMessage (a : Attestation) (w : Window) (rel : Nat) : String :=
  s!"internal: max_schema_by_link has {w.maxSchemaByLink.length} entries but an attestation covers len " ++
  s!"{a.attestedLen} (window position {rel}).\n  " ++
  "This cannot happen for a report produced by `chain_anchored()` — the two vectors are " ++
  "built together and are always the same length. It means a caller passed a `heads` and " ++
  "a `max_schema_by_link` from different reports. Refusing rather than skipping the " ++
  "ceiling check: a verifier that silently drops a refusal is worse than one that stops."

def ceilingMessage (a : Attestation) (maxCovered : UInt32) : String :=
  s!"a CHAIN_HEAD_ATTESTATION claims digest_schema {a.digestSchema} at len {a.attestedLen}, but a DECISION_SEALED " ++
  s!"in the window it covers is schema_version {maxCovered}.\n  " ++
  "The signature is authentic, so the ISSUER signed a false ceiling: the attestation " ++
  "understates the verification regime of the very records it attests. This is a " ++
  "SIGNED DOWNGRADE claim — distinct from a payload rewrite (the records are intact) " ++
  "and from a tag-10 strip (nothing is missing). The usual cause is a rolled-back " ++
  "producer whose CURRENT_SCHEMA_VERSION regressed while the chain ahead of it did not."

def noCoverageMessage (baseLen : UInt64) : String :=
  "--issuer was given, but the window carries NO chain-head attestation covering it " ++
  s!"(attested_len strictly greater than {baseLen}).\n  " ++
  "An issuer-signed head cannot be minted without the issuer key, so its absence over a " ++
  "window you asked to authenticate is the fabricated-window tell. The start's own anchor " ++
  "cannot satisfy this by itself — spec clause (f4): the anchor feed is public, so a " ++
  "fabricated window appended to a genuine anchor would otherwise authenticate with zero " ++
  "issuer coverage of its own — refusing rather than reporting a green window no issuer " ++
  "ever signed."

end Messages

end SeamSdk
