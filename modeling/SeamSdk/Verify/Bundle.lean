import SeamSdk.Verify.CmdChain
import SeamSdk.Verify.Manifest

/-!
# Verifying an evidence bundle

`verifyBundle` takes the six steps of the specification in order and stops at the first refusal: the manifest, the
window of the chain, the decision's link in it, the Commitment and its token, the binding, the disclosures.

- `checkWindow_ok_iff`: what is asked of `anchor.json` and `events.jsonl` (`WindowOk`);
- `findSealed_ok_iff`: the decision's link is the only one of its decision;
- `verifyBundle_checked`: what an accepted bundle has been checked for, the last three steps aside.
-/

namespace SeamSdk

open ByteCodec Checked

structure BundleReport where
  decisionId : String
  tenant : String
  windowEvents : Nat
  windowLinks : Nat
  attestations : Nat
  covering : Nat
  anchorLen : UInt64
  head : Bytes
  /-- Whether a token was verified; absent when no Commitment was disclosed. -/
  tctVerified : Option Bool
  checks : List String
  withheld : List (String × String)

/-! ## The window -/

/-- What the second step hands on. -/
structure BundleWindow where
  events : List Event
  report : ChainReport
  issuer : IssuerReport
  anchor : Attestation

section Steps

variable (x : Readers) (dir : BundleDir) (pinned : String) (now : UInt64)

/-- A member as text. -/
def readText (name : String) (step : Nat) : Except BundleError String := do
  let raw ← readMember dir name step
  demand (ofUtf8? raw) (.failed step s!"{name} is not UTF-8")

def readAnchor : Except BundleError Attestation := do
  let raw ← readText dir "anchor.json" 2
  let anchor ← (Attestation.parseDocument x raw).mapError fun e => .failed 2 s!"anchor.json: {e}"
  (verifyAnchor x.toExterns anchor [pinned]).mapError fun e => .failed 2 s!"ANCHOR REJECTED: {e}"
  return anchor

/-- The events of the window, line by line. -/
def readEvents : Except BundleError (List Event) := do
  let raw ← readText dir "events.jsonl" 2
  let events ← (parseLines x "events.jsonl line" (eventLines raw)).mapError (.failed 2 ·)
  refuse (events = []) (.failed 2 "events.jsonl holds no events")
  return events

def unconsumedWindowMessage (x : Externs) (anchor : Attestation) : String :=
  s!"the anchor seeds tenant {x.debugStr anchor.tenant}, which this window has no chained event for (an anchor " ++
  "with no tenant is v1 and seeds only the system partition, never a tenant's chain)"

def spanMessage (n : Nat) : String :=
  s!"the window's chained events span {n} tenants — an evidence bundle's window is exactly " ++
  "one tenant's, the one its anchor names"

def strictWindowMessage (unverifiable : List UInt64) : String :=
  s!"REFUSED (--strict): {unverifiable.length} event(s) carry no digest/checksum and are not advisory (first " ++
  s!"seq {unverifiable.headD 0})"

/-- The window is walked as `chain --issuer --from-anchor --strict` walks it. -/
def walkWindow (x : Externs) (anchor : Attestation) (events : List Event) : Except BundleError BundleWindow := do
  let (kept, duplicates) ← (dedup events).mapError (.failed 2 ·)
  let events := sortBySeq kept
  let report ← (chainAnchored x events anchor.tenant anchor.attestedLen anchor.attestedHead).mapError (.failed 2 ·)
  let report := { report with duplicates }
  refuse (report.unconsumedAnchors.isEmpty = false) (.failed 2 (unconsumedWindowMessage x anchor))
  refuse (report.tenants.size ≠ 1) (.failed 2 (spanMessage report.tenants.size))
  refuse (report.unverifiable ≠ []) (.failed 2 (strictWindowMessage report.unverifiable))
  let issuer ← (verifyAuthenticityAnchored x events report.heads report.maxSchemaByLink [pinned] anchor.attestedLen
    anchor.attestedHead).mapError (.failed 2 ·)
  return ⟨events, report, issuer, anchor⟩

/-- The second step. -/
def checkWindow : Except BundleError BundleWindow := do
  let anchor ← readAnchor x dir pinned
  let events ← readEvents x dir
  walkWindow pinned x.toExterns anchor events

/-! ## Inclusion -/

/-- A link of the decision named. -/
def isDecisionLink (decisionId : String) (e : Event) : Bool :=
  e.isLink && e.decision.any fun d => d.decisionId == decisionId

def sealedStep (decisionId : String) (found : Option Event) (e : Event) : Except BundleError (Option Event) :=
  if isDecisionLink decisionId e then do
    refuse (found.isSome = true)
      (.failed 3 s!"the window carries two chained DECISION_SEALED links for '{decisionId}'")
    return some e
  else return found

/-- The one link of the decision. -/
def findSealed (events : List Event) (decisionId : String) : Except BundleError Event := do
  let found ← events.foldlM (sealedStep decisionId) none
  demand found (.failed 3 s!"the window carries no chained DECISION_SEALED for '{decisionId}'")

/-- What the manifest says of the inclusion. -/
def statedAnchorLen (m : Json) : Option UInt64 := (m.pointer ["inclusion", "anchor_attested_len"]).bind Json.asU64?

def statedChecksum (m : Json) : Option Bytes :=
  ((m.pointer ["inclusion", "record_checksum"]).bind Json.asStr?).bind b64Std

/-- The decision's link, as the manifest describes it. -/
def checkInclusion (m : Json) (decisionId tenant : String) (events : List Event) : Except BundleError Event := do
  let sealed ← findSealed events decisionId
  refuse (sealed.tenant ≠ tenant)
    (.failed 3 s!"the decision is in tenant '{sealed.tenant}', the manifest says '{tenant}'")
  refuse ((statedChecksum m).getD [] ≠ sealed.checksum.getD [])
    (.failed 3 "manifest.json: inclusion.record_checksum is not the decision link's checksum")
  return sealed

/-! ## The Commitment and its binding -/

def tctMessage (e : String) : String :=
  "commitment.json: the TCT does not verify against the pinned issuer for this " ++ s!"Commitment: {e}"

/-- A Commitment without a token was sealed under a local identity. The step gives its digest, and whether a token
was verified. -/
def checkCommitment (supersedes : Option String) : Except BundleError (Bytes × Bool) := do
  let raw ← readMember dir "commitment.json" 4
  let j ← parseJson x raw "commitment.json" 4
  let c ← (parseCommitment x j).mapError (.failed 4 ·)
  let digest ← (commitmentDigest x c).mapError (.failed 4 ·)
  if c.signedArtifact ≠ "" then
    (verifyTct x pinned c.signedArtifact digest now).mapError fun e => .failed 4 (tctMessage e)
  refuse (c.supersedes ≠ supersedes) (.failed 4 "commitment.json: supersedes differs from the chained record's")
  return (digest, decide (c.signedArtifact ≠ ""))

/-- The signed binding names this decision, tenant, link and Commitment. -/
def checkBinding (key : Bytes) (decisionId tenant : String) (checksum digest : Bytes) : Except BundleError Unit := do
  let raw ← readMember dir "binding.json" 5
  let b ← parseJson x raw "binding.json" 5
  let bIssuer ← strField b "issuer_aid" "binding.json" 5
  refuse (bIssuer ≠ pinned)
    (.failed 5 s!"binding.json: it names issuer '{bIssuer}', but you pinned '{pinned}'")
  let bDecision ← strField b "decision_id" "binding.json" 5
  let bTenant ← strField b "tenant" "binding.json" 5
  let bChecksumText ← strField b "record_checksum" "binding.json" 5
  let bChecksum ← demand (b64Std bChecksumText) (.failed 5 "binding.json: record_checksum is not base64")
  let bDigestText ← strField b "commitment_digest" "binding.json" 5
  let bDigest ← demand (hexDecode bDigestText) (.failed 5 "binding.json: commitment_digest is not hex")
  let boundAt ← demand ((b.get? "bound_at").bind Json.asU64?) (.failed 5 "binding.json: missing u64 'bound_at'")
  let sigText ← strField b "signature" "binding.json" 5
  let sig ← demand ((b64Std sigText).filter fun s => s.length == 64)
    (.failed 5 "binding.json: signature is not 64 base64 bytes")
  refuseSome (x.keyError key) fun e => .usage s!"bad issuer key: {e}"
  refuse (x.ed25519Verify key
      (evidenceBindingDigest x.toExterns bDecision bTenant bChecksum bDigest boundAt bIssuer) sig = false)
    (.failed 5 "binding.json: the signature does not verify against the pinned issuer")
  refuse (bDecision ≠ decisionId ∨ bTenant ≠ tenant ∨ bChecksum ≠ checksum)
    (.failed 5 "binding.json: it binds a different decision, tenant or chain link")
  refuse (bDigest ≠ digest) (.failed 5 "binding.json: it binds a different Commitment than commitment.json")

/-! ## Disclosures -/

def checkContext (payload : Decision) : Except BundleError Unit := do
  let raw ← readMember dir "context.json" 6
  let ctx ← parseJson x raw "context.json" 6
  let got ← (contextDigest x ctx).mapError (.failed 6 ·)
  refuse (got ≠ payload.contextDigest) (.failed 6 "context.json does not recompute the chained context_digest")

def checkPolicy (payload : Decision) : Except BundleError Unit := do
  let raw ← readMember dir "policy.json" 6
  refuse (x.sha256 raw ≠ payload.policyRulesDigest)
    (.failed 6 "SHA-256(policy.json) is not the chained policy_rules_digest")

/-- The manifest's list of what was left out, verbatim. -/
def statedWithheld (m : Json) : List (String × String) :=
  let text (w : Json) (k : String) : String := ((w.get? k).bind Json.asStr?).getD ""
  (((m.get? "withheld").bind Json.asArr?).getD []).map fun w => (text w "item", text w "reason")

/-- A file the manifest lists. -/
def hasFile (m : Json) (f : String) : Bool := (m.pointer ["files", f]).isSome

end Steps

/-! ## The whole verification -/

/-- One line for each check that passed. -/
def checkLines (w : BundleWindow) (decisionId tenant : String) (tct : Option Bool) (context policy : Bool) :
    List String :=
  [s!"manifest: {bundleFormat}, issuer is the pinned AID, every listed file matches its SHA-256 and size",
    s!"window authenticated from the issuer-signed anchor (base_len {w.anchor.attestedLen}): {w.report.links} link(s), " ++
      s!"{w.issuer.covering} covering attestation(s)",
    s!"decision '{decisionId}' is a chained link of tenant '{tenant}' inside the authenticated window"] ++
  (match tct with
  | none => []
  | some verified =>
    [if verified then "the Commitment's TCT verifies against the pinned issuer and binds its seam-commitment-digest:v3"
      else "the Commitment has no TCT (sealed under `identity: local-sealed`); it is bound to the " ++
        "chain by the issuer's binding signature only",
      "the issuer's signed binding ties this Commitment to the decision's chain link"]) ++
  (if context then ["context.json recomputes the chained context_digest"] else []) ++
  if policy then ["SHA-256(policy.json) is the chained policy_rules_digest"] else []

/-- The report of an accepted bundle. -/
def bundleReport (m : Json) (w : BundleWindow) (decisionId tenant : String) (tct : Option Bool) : BundleReport where
  decisionId := decisionId
  tenant := tenant
  windowEvents := w.report.events
  windowLinks := w.report.links
  attestations := w.issuer.attestations
  covering := w.issuer.covering
  anchorLen := w.anchor.attestedLen
  head := w.report.head
  tctVerified := tct
  checks := checkLines w decisionId tenant tct (hasFile m "context.json") (hasFile m "policy.json")
  withheld := statedWithheld m

section Verify

variable (x : Readers) (dir : BundleDir) (pinned : String) (now : UInt64)

/-- The steps after the inclusion: whether a token was verified, if there is a Commitment. -/
def checkDisclosures (key : Bytes) (m : Json) (decisionId tenant : String) (checksum : Bytes) (payload : Decision) :
    Except BundleError (Option Bool) := do
  let tct ← if hasFile m "commitment.json" then do
      let (digest, verified) ← checkCommitment x dir pinned now payload.supersedes
      checkBinding x dir pinned key decisionId tenant checksum digest
      pure (some verified)
    else pure none
  if hasFile m "context.json" then checkContext x dir payload
  if hasFile m "policy.json" then checkPolicy x dir payload
  return tct

/-- `seam-verify bundle`. -/
def verifyBundle : Except BundleError BundleReport := do
  let key ← (aidToKey x.toExterns pinned).mapError fun e => .usage s!"--issuer is not a usable AID: {e}"
  let m ← checkManifest x dir pinned
  let decisionId ← strField m "decision_id" "manifest.json" 1
  let tenant ← strField m "tenant" "manifest.json" 1
  let w ← checkWindow x dir pinned
  refuseSome ((statedAnchorLen m).filter fun n => n != w.anchor.attestedLen) fun _ =>
    .failed 2 "manifest.json: inclusion.anchor_attested_len is not anchor.json's attested_len"
  let sealed ← checkInclusion m decisionId tenant w.events
  let payload ← demand sealed.decision (.failed 3 "is_it requires a decision payload")
  let tct ← checkDisclosures x dir pinned now key m decisionId tenant (sealed.checksum.getD []) payload
  return bundleReport m w decisionId tenant tct

end Verify

/-! ## The window that was checked -/

variable {x : Readers} {dir : BundleDir} {pinned : String} {now : UInt64}

/-- A member that is UTF-8 text. -/
def HasText (dir : BundleDir) (name text : String) : Prop :=
  ∃ raw, dir.read name = .ok raw ∧ ofUtf8? raw = some text

theorem readText_ok_iff {name text : String} {step : Nat} :
    readText dir name step = .ok text ↔ HasText dir name text := by
  simp only [readText, readMember, bind_ok, mapError_ok, demand_ok, HasText]

theorem readAnchor_ok_iff {a : Attestation} :
    readAnchor x dir pinned = .ok a ↔ ∃ text, HasText dir "anchor.json" text ∧
      Attestation.parseDocument x text = .ok a ∧ verifyAnchor x.toExterns a [pinned] = .ok () := by
  simp only [readAnchor, bind_ok, mapError_ok, readText_ok_iff, pure_ok]
  constructor
  · intro h
    rcases h with ⟨text, htext, _, hparse, _, hv, rfl⟩
    exact ⟨text, htext, hparse, hv⟩
  · intro h
    rcases h with ⟨text, htext, hparse, hv⟩
    exact ⟨text, htext, a, hparse, (), hv, rfl⟩

theorem readEvents_ok_iff {es : List Event} :
    readEvents x dir = .ok es ↔ es ≠ [] ∧ ∃ text, HasText dir "events.jsonl" text ∧
      parseLines x "events.jsonl line" (eventLines text) = .ok es := by
  simp only [readEvents, bind_ok, mapError_ok, readText_ok_iff, refuse_ok, pure_ok, exists_const]
  constructor
  · intro h
    rcases h with ⟨text, htext, _, hparse, hne, rfl⟩
    exact ⟨hne, text, htext, hparse⟩
  · intro h
    rcases h with ⟨hne, text, htext, hparse⟩
    exact ⟨text, htext, es, hparse, hne, rfl⟩

/-- The flags the window is walked with. -/
def bundleFlags (pinned : String) : ChainFlags :=
  { path := "events.jsonl", strict := true, json := false, issuers := [pinned], fromAnchor := some "anchor.json"
    expectAnchor := none, allowUncovered := false }

/-- **What the second step asks of the window**: what `chain` asks of its stream, for one tenant. -/
structure WindowOk (x : Externs) (pinned : String) (es : List Event) (w : BundleWindow) (n : Nat) (r : ChainReport) :
    Prop where
  deduped : ∃ kept, dedup es = .ok (kept, n) ∧ w.events = sortBySeq kept
  stream : StreamOk x (bundleFlags pinned) (some w.anchor) none w.events r
  single : r.tenants.size = 1
  report : w.report = { r with duplicates := n }
  issuer : w.issuer = issuerReport x (r.window (baseOf (some w.anchor))) w.events

theorem isEmpty_iff {α : Type} {m : TenantMap α} : m.isEmpty = true ↔ ∀ t : String, m[t]? = none := by
  rw [← head?_toList_eq_none, List.head?_eq_none_iff, ← List.isEmpty_iff, Std.ExtTreeMap.isEmpty_toList]

theorem walkWindow_ok_iff {x : Externs} {anchor : Attestation} {es : List Event} {w : BundleWindow} :
    walkWindow pinned x anchor es = .ok w ↔ w.anchor = anchor ∧ ∃ n r, WindowOk x pinned es w n r := by
  simp only [walkWindow, bind_ok, mapError_ok, refuse_ok, exists_const, pure_ok, Bool.not_eq_false, isEmpty_iff,
    ne_eq, not_not, Prod.exists]
  constructor
  · intro h
    rcases h with ⟨kept, n, hd, r, hwalk, hcons, hsingle, hstrict, ir, hauth, rfl⟩
    have hsize : ¬1 < r.tenants.size := by omega
    obtain ⟨hok, hunc, hir⟩ := (verifyAuthenticity_eq_ok_iff (w := r.window (baseOf (some anchor)))).mp hauth
    refine ⟨rfl, n, r, ⟨kept, hd, rfl⟩, ⟨hwalk, hcons, by simp, fun _ => hstrict, fun _ => ?_⟩, hsingle, rfl, hir.symm⟩
    rw [AuthenticOk, if_neg hsize]
    exact ⟨hok, hunc.resolve_left (by simp [AuthOptions.default])⟩
  · intro h
    rcases h with ⟨rfl, n, r, ⟨kept, hd, hev⟩, hok, hsingle, hrep, hir⟩
    have hsize : ¬1 < r.tenants.size := by omega
    have hauth := hok.authentic (List.cons_ne_nil _ _)
    rw [AuthenticOk, if_neg hsize] at hauth
    have hcheck := (@verifyAuthenticity_eq_ok_iff x (r.window (baseOf (some w.anchor))) w.events [pinned] .default
      w.issuer).mpr ⟨hauth.1, .inr hauth.2, hir.symm⟩
    refine ⟨kept, n, hd, r, ?_, hok.consumed, hsingle, hok.strict rfl, w.issuer, ?_, ?_⟩
    · rw [← hev]
      exact hok.walk
    · rw [← hev]
      exact hcheck
    · rw [← hev, ← hrep]

/-- **The second step.** -/
theorem checkWindow_ok_iff {w : BundleWindow} :
    checkWindow x dir pinned = .ok w ↔ readAnchor x dir pinned = .ok w.anchor ∧
      ∃ es n r, readEvents x dir = .ok es ∧ WindowOk x.toExterns pinned es w n r := by
  simp only [checkWindow, bind_ok, walkWindow_ok_iff]
  constructor
  · intro h
    rcases h with ⟨anchor, ha, es, hes, rfl, n, r, hok⟩
    exact ⟨ha, es, n, r, hes, hok⟩
  · intro h
    rcases h with ⟨ha, es, n, r, hes, hok⟩
    exact ⟨w.anchor, ha, es, hes, rfl, n, r, hok⟩

/-! ## Inclusion -/

theorem sealedStep_ok_iff {decisionId : String} {found found' : Option Event} {e : Event} :
    sealedStep decisionId found e = .ok found' ↔ (isDecisionLink decisionId e = true → found = none) ∧
      (if isDecisionLink decisionId e then some e else found) = found' := by
  unfold sealedStep
  cases isDecisionLink decisionId e with
  | false => simp [pure_ok]
  | true =>
    simp only [if_true, bind_ok, refuse_ok, exists_const, pure_ok, Bool.not_eq_true, Option.isSome_eq_false_iff,
      Option.isNone_iff_eq_none, forall_const]

/-- The search finds the only link of the decision. -/
theorem findSealed_ok_iff {es : List Event} {decisionId : String} {e : Event} :
    findSealed es decisionId = .ok e ↔ es.filter (isDecisionLink decisionId) = [e] := by
  have hrun := foldlM_from_start (f := sealedStep decisionId) (s := none)
    (P := fun pre found => pre.filter (isDecisionLink decisionId) = found.toList)
    (Q := fun pre a => isDecisionLink decisionId a = true → pre.filter (isDecisionLink decisionId) = [])
    (R := fun l => (l.filter (isDecisionLink decisionId)).length ≤ 1) ?_ ?_ ?_ rfl (by simp) es
  · simp only [findSealed, bind_ok, demand_ok, exists_eq_right]
    constructor
    · intro h
      exact (hrun.2 _ h).2
    · intro h
      obtain ⟨found, hfound, hp⟩ := hrun.1 (by simp [h])
      rw [h] at hp
      cases found with
      | none => cases hp
      | some e' =>
        obtain rfl : e = e' := List.singleton_inj.mp hp
        exact hfound
  -- a step puts a link of the decision into an empty result, or keeps the result
  · intro pre found a hp hq
    refine ⟨_, sealedStep_ok_iff.mpr ⟨fun ha => ?_, rfl⟩, ?_⟩
    · rw [hq ha] at hp
      exact Option.toList_eq_nil_iff.mp hp.symm
    · rw [List.filter_append, List.filter_singleton]
      cases ha : isDecisionLink decisionId a with
      | false => simpa using hp
      | true => simp [hq ha]
  · intro pre found a found' hp h ha
    rw [hp, (sealedStep_ok_iff.mp h).1 ha]
    rfl
  · intro pre a
    rw [List.filter_append, List.length_append, List.filter_singleton, ← List.length_eq_zero_iff]
    cases isDecisionLink decisionId a with
    | false => simp
    | true =>
      simp only [cond_true, List.length_singleton, forall_const]
      omega

/-- **What an accepted bundle has been checked for**, the last three steps aside. -/
structure BundleChecked (x : Readers) (dir : BundleDir) (pinned decisionId tenant : String) (m : Json)
    (w : BundleWindow) (e : Event) : Prop where
  manifest : ManifestOk x dir pinned m
  statesDecision : (m.get? "decision_id").bind Json.asStr? = some decisionId
  statesTenant : (m.get? "tenant").bind Json.asStr? = some tenant
  window : checkWindow x dir pinned = .ok w
  anchorLen : ∀ n, statedAnchorLen m = some n → n = w.anchor.attestedLen
  only : w.events.filter (isDecisionLink decisionId) = [e]
  inTenant : e.tenant = tenant
  checksum : (statedChecksum m).getD [] = e.checksum.getD []

/-- **The whole verification.** -/
theorem verifyBundle_ok_iff {r : BundleReport} :
    verifyBundle x dir pinned now = .ok r ↔ ∃ key m decisionId tenant w e payload tct,
      aidToKey x.toExterns pinned = .ok key ∧ BundleChecked x dir pinned decisionId tenant m w e ∧
      e.decision = some payload ∧
      checkDisclosures x dir pinned now key m decisionId tenant (e.checksum.getD []) payload = .ok tct ∧
      bundleReport m w decisionId tenant tct = r := by
  simp only [verifyBundle, checkInclusion, strField, bind_ok, mapError_ok, checkManifest_ok_iff, demand_ok,
    refuse_ok, refuseSome_ok, exists_const, pure_ok, findSealed_ok_iff, Option.filter_eq_none_iff, bne_iff_ne, ne_eq,
    not_not]
  constructor
  · rintro ⟨key, hkey, m, hm, id, hid, tenant, htenant, w, hw, hlen, _, ⟨e, he, het, hsum, rfl⟩, payload, hp, tct, htct,
      rfl⟩
    exact ⟨key, m, id, tenant, w, e, payload, tct, hkey, ⟨hm, hid, htenant, hw, hlen, he, het, hsum⟩, hp, htct, rfl⟩
  · intro h
    rcases h with ⟨key, m, id, tenant, w, e, payload, tct, hkey, ⟨hm, hid, htenant, hw, hlen, he, het, hsum⟩, hp, htct, rfl⟩
    exact ⟨key, hkey, m, hm, id, hid, tenant, htenant, w, hw, hlen, e, ⟨e, he, het, hsum, rfl⟩, payload, hp, tct, htct,
      rfl⟩

end SeamSdk
