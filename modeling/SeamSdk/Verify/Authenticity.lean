import SeamSdk.Verify.AuthMessages
import SeamSdk.Verify.Chain
import SeamSdk.Verify.Entry

/-!
# Authenticity under pinned issuers

`verifyAuthenticityAnchoredWith` makes two passes over a window. The first recomputes the digest of every record and
every chained entry (`recordStep`); the second checks every attestation against the pinned keys and the window's
running heads (`attestStep`). It then asks for a covering attestation and refuses uncovered entries.

- `recordStep_ok_iff`, `attestStep_ok_iff`: what each pass asks of one event (`RecordOk`, `AttestOk`), and what it
  counts;
- `verifyAuthenticity_eq_ok_iff`: the whole check as a condition on the window (`AuthOk`);
- `verifyAnchor_ok_iff`: what is asked of an anchor before a window starts from it.
-/

namespace SeamSdk

open ByteCodec Checked

/-! ## The attestation's signature -/

/-- The parts an attestation signs. The tenant is signed under the second domain only. -/
def chainHeadAttestationParts (a : Attestation) (tenant : Option String) : List Bytes :=
  [utf8 (if tenant.isSome then "seam.audit.chain-head-attestation.v2" else "seam.audit.chain-head-attestation.v1"),
    u64le a.attestedLen, a.attestedHead, u64le a.attestedAt, u32le a.digestSchema, utf8 a.issuerAid] ++
    (tenant.map utf8).toList

/-- The one framing the payload tenant selects. -/
def attestationFraming (a : Attestation) : Option String := if a.tenant = "" then none else some a.tenant

section Check

variable (x : Externs)

def attestationSignatureVerifies (key : Bytes) (a : Attestation) : Bool :=
  x.ed25519Verify key (framed x (chainHeadAttestationParts a (attestationFraming a))) a.signature

/-! ## The first pass: records and entries -/

/-- A link without a decision is recomputed from its own fields. -/
def recordEntry (s : Recount) (e : Event) : Except String Recount :=
  if e.isLink = true ∧ e.decision = none then
    match recompute x e with
    | .recomputed => return { s with entries := s.entries + 1 }
    | .uncovered =>
      return { s with uncovered := s.uncovered ++ [⟨e.seq, e.tenant, e.kind, e.audit.map AuditEntry.action⟩] }
    | .rewritten what => throw (entryRewriteMessage x e what)
  else return s

/-- A decision, chained or not, has the one schema, commits to its ciphertext, and matches the digest it carries. -/
def recordDecision (s : Recount) (e : Event) : Except String Recount :=
  match e.decision with
  | none => return s
  | some d => do
    refuse (d.schemaVersion ≠ recordDigestSchema) (unknownSchemaMessage d)
    refuse (d.ciphertextDigest = []) (noCiphertextDigestMessage d)
    match e.digest with
    | none => return s
    | some wire =>
      let recomputed ← recordDigestV4 x d
      refuse (wire ≠ recomputed) (recordMismatchMessage d recomputed wire)
      return { s with records := s.records + 1 }

def recordStep (s : Recount) (e : Event) : Except String Recount := do
  let s ← recordEntry x s e
  recordDecision x s e

/-! ## The second pass: attestations -/

/-- Where an attestation lies against the window. Below it the window holds no head: the attestation is signed and
reported, and no evidence for this window. -/
def attestPosition (w : Window) (s : Coverage) (a : Attestation) : Except String Coverage :=
  if a.attestedLen < w.baseLen then return { s with belowWindow := s.belowWindow + 1 }
  else if a.attestedLen = w.baseLen then do
    refuse (a.attestedHead ≠ w.baseHead) (anchorSpliceMessage a w)
    return s
  else do
    let rel := (a.attestedLen - w.baseLen).toNat
    let want ← demand w.heads[rel]? (pastWindowMessage a w)
    refuse (want ≠ a.attestedHead) (spliceMessage a want)
    let maxCovered ← demand w.maxSchemaByLink[rel]? (shortSchemaMessage a w rel)
    refuse (a.digestSchema < maxCovered) (ceilingMessage a maxCovered)
    return { s with covering := s.covering + 1 }

def attestStep (pinnedAids : List String) (keys : List (String × Bytes)) (w : Window) (s : Coverage) (e : Event) :
    Except String Coverage :=
  match e.attestation with
  | none => return s
  | some a => do
    refuse (a.tenant ≠ e.tenant) (tenantMismatchMessage e a)
    let key ← demand (keys.find? fun k => k.1 == a.issuerAid) (unpinnedIssuerMessage a pinnedAids)
    refuse (a.signature.length ≠ 64) "attestation signature is not 64 bytes"
    refuse (attestationSignatureVerifies x key.2 a = false) (badSignatureMessage x a)
    refuse (a.attestedLen = 0) (vacuousMessage a)
    attestPosition w
      { s with attestations := s.attestations + 1, coveredPrefix := max s.coveredPrefix a.attestedLen } a

/-! ## The whole check -/

def verifyAuthenticityAnchoredWith (events : List Event) (heads : List Bytes) (maxSchemaByLink : List UInt32)
    (pinnedAids : List String) (baseLen : UInt64) (baseHead : Bytes) (opts : AuthOptions) :
    Except String IssuerReport := do
  let keys ← pinnedKeys x pinnedAids
  let r ← events.foldlM (recordStep x) ⟨0, 0, []⟩
  let c ← events.foldlM (attestStep x pinnedAids keys ⟨heads, maxSchemaByLink, baseLen, baseHead⟩) ⟨0, 0, 0, 0⟩
  refuse (c.covering = 0) (noCoverageMessage baseLen)
  refuse (r.uncovered ≠ [] ∧ opts.allowUncovered = false) (uncoveredRefusal x r.uncovered)
  return ⟨c.attestations, c.coveredPrefix, r.records, r.entries, r.uncovered, c.covering, c.belowWindow⟩

def verifyAuthenticityAnchored (events : List Event) (heads : List Bytes) (maxSchemaByLink : List UInt32)
    (pinnedAids : List String) (baseLen : UInt64) (baseHead : Bytes) : Except String IssuerReport :=
  verifyAuthenticityAnchoredWith x events heads maxSchemaByLink pinnedAids baseLen baseHead .default

/-- The check from genesis. -/
def verifyAuthenticity (events : List Event) (heads : List Bytes) (maxSchemaByLink : List UInt32)
    (pinnedAids : List String) : Except String IssuerReport :=
  verifyAuthenticityAnchored x events heads maxSchemaByLink pinnedAids 0 genesis

end Check

/-! ## What the passes ask of one event -/

/-- A link without a decision that no preimage is known for. -/
def isUncovered (x : Externs) (e : Event) : Bool :=
  e.isLink && e.decision.isNone && decide (recompute x e = .uncovered)

/-- A link without a decision that recomputes. -/
def isRecomputed (x : Externs) (e : Event) : Bool :=
  e.isLink && e.decision.isNone && decide (recompute x e = .recomputed)

/-- A decision with a digest to compare with. -/
def isRecord (e : Event) : Bool := e.decision.isSome && e.digest.isSome

/-- What the first pass asks of an event. -/
structure RecordOk (x : Externs) (e : Event) : Prop where
  entry : e.isLink = true → e.decision = none → ∀ what, recompute x e ≠ .rewritten what
  decision : ∀ d, e.decision = some d → d.schemaVersion = recordDigestSchema ∧ d.ciphertextDigest ≠ [] ∧
    ∀ wire, e.digest = some wire → recordDigestV4 x d = .ok wire

/-- The uncovered entry an event is reported as. -/
def Event.asUncovered (e : Event) : Uncovered := ⟨e.seq, e.tenant, e.kind, e.audit.map AuditEntry.action⟩

def Recount.add (x : Externs) (s : Recount) (e : Event) : Recount where
  records := s.records + (isRecord e).toNat
  entries := s.entries + (isRecomputed x e).toNat
  uncovered := s.uncovered ++ if isUncovered x e then [e.asUncovered] else []

/-- The attestation names a pin and its signature verifies under that pin's key. -/
def SignedBy (x : Externs) (pinnedAids : List String) (a : Attestation) : Prop :=
  a.issuerAid ∈ pinnedAids ∧ ∃ key, verifyingKey x a.issuerAid = .ok key ∧ a.signature.length = 64 ∧
    attestationSignatureVerifies x key a = true

/-- The running head at an attested position inside the window, under the attested schema ceiling. -/
def Window.Covers (w : Window) (a : Attestation) : Prop :=
  w.baseLen < a.attestedLen ∧ w.heads[(a.attestedLen - w.baseLen).toNat]? = some a.attestedHead ∧
    ∃ m, w.maxSchemaByLink[(a.attestedLen - w.baseLen).toNat]? = some m ∧ m ≤ a.digestSchema

/-- Below the window there is nothing to compare with, at its start the base head, inside it the running head. -/
def Window.Holds (w : Window) (a : Attestation) : Prop :=
  a.attestedLen < w.baseLen ∨ (a.attestedLen = w.baseLen ∧ a.attestedHead = w.baseHead) ∨ w.Covers a

/-- What the second pass asks of an attestation in an event of tenant `t`. -/
structure AttestationOk (x : Externs) (pinnedAids : List String) (w : Window) (t : String) (a : Attestation) :
    Prop where
  tenant : a.tenant = t
  signed : SignedBy x pinnedAids a
  nonvacuous : a.attestedLen ≠ 0
  position : w.Holds a

def AttestOk (x : Externs) (pinnedAids : List String) (w : Window) (e : Event) : Prop :=
  ∀ a, e.attestation = some a → AttestationOk x pinnedAids w e.tenant a

def Coverage.add (w : Window) (s : Coverage) (e : Event) : Coverage :=
  match e.attestation with
  | none => s
  | some a =>
    { attestations := s.attestations + 1
      coveredPrefix := max s.coveredPrefix a.attestedLen
      covering := s.covering + if w.baseLen < a.attestedLen then 1 else 0
      belowWindow := s.belowWindow + if a.attestedLen < w.baseLen then 1 else 0 }

variable {x : Externs}

variable {w : Window} {es : List Event} {pinnedAids : List String} {e : Event}

theorem recordEntry_ok_iff {s s' : Recount} : recordEntry x s e = .ok s' ↔
      (e.isLink = true → e.decision = none → ∀ what, recompute x e ≠ .rewritten what) ∧
      { s with
        entries := s.entries + (isRecomputed x e).toNat
        uncovered := s.uncovered ++ if isUncovered x e then [e.asUncovered] else [] } = s' := by
  unfold recordEntry isRecomputed isUncovered Event.asUncovered
  split
  · rename_i h
    cases hr : recompute x e <;> simp [h.1, h.2, pure_ok, throw_ok]
  · rename_i h
    have hf : (e.isLink && e.decision.isNone) = false := by
      rw [Bool.eq_false_iff]
      simpa using h
    simp only [hf, Bool.false_and, Bool.false_eq_true, if_false, List.append_nil, Bool.toNat_false, Nat.add_zero,
      pure_ok]
    exact ⟨fun hs => ⟨fun hl hd => absurd ⟨hl, hd⟩ h, hs⟩, fun hs => hs.2⟩

theorem recordDecision_ok_iff {s s' : Recount} : recordDecision x s e = .ok s' ↔
      (∀ d, e.decision = some d → d.schemaVersion = recordDigestSchema ∧ d.ciphertextDigest ≠ [] ∧
        ∀ wire, e.digest = some wire → recordDigestV4 x d = .ok wire) ∧
      { s with records := s.records + (isRecord e).toNat } = s' := by
  unfold recordDecision isRecord
  cases hd : e.decision with
  | none => simp [pure_ok]
  | some d =>
    cases hw : e.digest with
    | none =>
      simp only [bind_ok, refuse_ok, exists_const, ne_eq, not_not, pure_ok]
      simp [and_assoc]
    | some wire =>
      simp only [bind_ok, refuse_ok, exists_const, ne_eq, not_not, pure_ok, Option.some.injEq, forall_eq',
        Option.isSome_some, Bool.and_self, Bool.toNat_true]
      constructor
      · intro h
        rcases h with ⟨hs, hc, b, hb, rfl, rfl⟩; exact ⟨⟨hs, hc, hb⟩, rfl⟩
      · intro h
        rcases h with ⟨⟨hs, hc, hb⟩, rfl⟩; exact ⟨hs, hc, wire, hb, rfl, rfl⟩

/-- One step of the first pass. -/
theorem recordStep_ok_iff {s s' : Recount} : recordStep x s e = .ok s' ↔ RecordOk x e ∧ s.add x e = s' := by
  simp only [recordStep, bind_ok, recordEntry_ok_iff, recordDecision_ok_iff]
  constructor
  · intro h
    rcases h with ⟨t, ⟨he, rfl⟩, hd, rfl⟩; exact ⟨⟨he, hd⟩, rfl⟩
  · intro h
    rcases h with ⟨⟨he, hd⟩, rfl⟩; exact ⟨_, ⟨he, rfl⟩, hd, rfl⟩

theorem attestPosition_ok_iff {s s' : Coverage} {a : Attestation} : attestPosition w s a = .ok s' ↔ w.Holds a ∧
      { s with
        covering := s.covering + if w.baseLen < a.attestedLen then 1 else 0
        belowWindow := s.belowWindow + if a.attestedLen < w.baseLen then 1 else 0 } = s' := by
  unfold attestPosition Window.Holds Window.Covers
  by_cases hlt : a.attestedLen < w.baseLen
  · simp [hlt, UInt64.lt_asymm hlt, pure_ok]
  by_cases heq : a.attestedLen = w.baseLen
  · simp only [heq, UInt64.lt_irrefl, if_false, if_true, bind_ok, refuse_ok, exists_const, ne_eq, not_not, pure_ok]
    simp
  · have hgt : w.baseLen < a.attestedLen := UInt64.lt_of_le_of_ne (UInt64.not_lt.mp hlt) (Ne.symm heq)
    simp only [if_neg hlt, if_neg heq, if_pos hgt, bind_ok, demand_ok, refuse_ok, exists_const,
      ne_eq, not_not, pure_ok, UInt32.not_lt]
    constructor
    · intro hx
      rcases hx with ⟨_, hh, rfl, m, hm, hle, rfl⟩
      exact ⟨.inr (.inr ⟨hgt, hh, m, hm, hle⟩), rfl⟩
    · intro hx
      rcases hx with ⟨h | ⟨h, -⟩ | ⟨-, hh, m, hm, hle⟩, rfl⟩
      · exact absurd h hlt
      · exact absurd h heq
      · exact ⟨_, hh, rfl, m, hm, hle, rfl⟩

/-- Past the start, an attestation holds by covering. -/
theorem Window.Holds.covers {a : Attestation} (h : w.Holds a) (hlt : w.baseLen < a.attestedLen) : w.Covers a := by
  rcases h with h | ⟨h, -⟩ | h
  · exact absurd h (UInt64.lt_asymm hlt)
  · exact absurd (h ▸ hlt) (UInt64.lt_irrefl _)
  · exact h

/-- One step of the second pass. -/
theorem attestStep_ok_iff {keys : List (String × Bytes)}
    (hkeys : pinnedKeys x pinnedAids = .ok keys) {s s' : Coverage} :
    attestStep x pinnedAids keys w s e = .ok s' ↔ AttestOk x pinnedAids w e ∧ s.add w e = s' := by
  unfold attestStep AttestOk Coverage.add
  cases ha : e.attestation with
  | none => simp [pure_ok]
  | some a =>
    simp only [bind_ok, refuse_ok, exists_const, demand_ok, find_pinnedKeys hkeys, attestPosition_ok_iff, ne_eq,
      not_not, Bool.not_eq_false, Option.some.injEq, forall_eq']
    constructor
    · intro h
      rcases h with ⟨ht, k, ⟨hmem, -, hk⟩, hlen, hv, h0, hpos, rfl⟩
      exact ⟨⟨ht, ⟨hmem, k.2, hk, hlen, hv⟩, h0, hpos⟩, rfl⟩
    · intro h
      rcases h with ⟨⟨ht, ⟨hmem, k, hk, hlen, hv⟩, h0, hpos⟩, rfl⟩
      exact ⟨ht, (a.issuerAid, k), ⟨hmem, rfl, hk⟩, hlen, hv, h0, hpos, rfl⟩

/-- A whole first pass. -/
theorem foldlM_recordStep_ok_iff {s s' : Recount} :
    es.foldlM (recordStep x) s = .ok s' ↔ (∀ e ∈ es, RecordOk x e) ∧ es.foldl (Recount.add x) s = s' :=
  foldlM_ok_iff (f := recordStep x) (Q := RecordOk x) (g := Recount.add x) fun _ _ _ => recordStep_ok_iff

/-- A whole second pass. -/
theorem foldlM_attestStep_ok_iff {keys : List (String × Bytes)} (hkeys : pinnedKeys x pinnedAids = .ok keys)
    {s s' : Coverage} : es.foldlM (attestStep x pinnedAids keys w) s = .ok s' ↔
      (∀ e ∈ es, AttestOk x pinnedAids w e) ∧ es.foldl (Coverage.add w) s = s' :=
  foldlM_ok_iff (f := attestStep x pinnedAids keys w) (Q := AttestOk x pinnedAids w) (g := Coverage.add w)
    fun _ _ _ => attestStep_ok_iff hkeys

/-! ## The whole check as a condition on the window -/

/-- **What the authenticity check asks of a window**, uncovered entries aside. -/
structure AuthOk (x : Externs) (pinnedAids : List String) (w : Window) (es : List Event) : Prop where
  pins : ∀ aid ∈ pinnedAids, ∃ k, verifyingKey x aid = .ok k
  records : ∀ e ∈ es, RecordOk x e
  attests : ∀ e ∈ es, AttestOk x pinnedAids w e
  covered : ∃ e ∈ es, ∃ a, e.attestation = some a ∧ w.baseLen < a.attestedLen

/-- The report over a window that passes. -/
def issuerReport (x : Externs) (w : Window) (es : List Event) : IssuerReport :=
  let r := es.foldl (Recount.add x) ⟨0, 0, []⟩
  let c := es.foldl (Coverage.add w) ⟨0, 0, 0, 0⟩
  ⟨c.attestations, c.coveredPrefix, r.records, r.entries, r.uncovered, c.covering, c.belowWindow⟩

theorem foldl_recount (es : List Event) (s : Recount) : es.foldl (Recount.add x) s =
      ⟨s.records + es.countP isRecord, s.entries + es.countP (isRecomputed x),
        s.uncovered ++ (es.filter (isUncovered x)).map Event.asUncovered⟩ := by
  induction es generalizing s with
  | nil => simp
  | cons e es ih =>
    rw [List.foldl_cons, ih, Recount.add, List.countP_cons, List.countP_cons, List.filter_cons]
    cases isRecord e <;> cases isRecomputed x e <;> cases isUncovered x e <;> simp [Nat.add_assoc, Nat.add_comm 1]

/-- The number of covering attestations a pass counts. -/
theorem foldl_covering (w : Window) (es : List Event) (s : Coverage) : (es.foldl (Coverage.add w) s).covering =
      s.covering + es.countP fun e => e.attestation.any fun a => decide (w.baseLen < a.attestedLen) := by
  induction es generalizing s with
  | nil => simp
  | cons e es ih =>
    rw [List.foldl_cons, ih, List.countP_cons]
    cases ha : e.attestation with
    | none => simp [Coverage.add, ha]
    | some a => simp [Coverage.add, ha]; omega

theorem covering_eq_zero_iff : (es.foldl (Coverage.add w) ⟨0, 0, 0, 0⟩).covering = 0 ↔
      ¬∃ e ∈ es, ∃ a, e.attestation = some a ∧ w.baseLen < a.attestedLen := by
  rw [foldl_covering, Nat.zero_add, List.countP_eq_zero]
  constructor
  · rintro h ⟨e, he, a, ha, hlt⟩
    exact h e he (by simp [ha, hlt])
  · intro h e he hany
    cases ha : e.attestation with
    | none => simp [ha] at hany
    | some a => exact h ⟨e, he, a, ha, by simpa [ha] using hany⟩

theorem issuerReport_uncovered (w : Window) (es : List Event) :
    (issuerReport x w es).uncovered = (es.filter (isUncovered x)).map Event.asUncovered := by
  rw [issuerReport, foldl_recount, List.nil_append]

theorem issuerReport_uncovered_eq_nil : (issuerReport x w es).uncovered = [] ↔ ∀ e ∈ es, isUncovered x e = false := by
  simp [issuerReport_uncovered]

/-- **The authenticity check.** It passes exactly the windows that meet `AuthOk`, under the strict options only those
without an uncovered entry, and reports what it counted. -/
theorem verifyAuthenticity_eq_ok_iff {opts : AuthOptions} {r : IssuerReport} :
    verifyAuthenticityAnchoredWith x es w.heads w.maxSchemaByLink pinnedAids w.baseLen w.baseHead opts = .ok r ↔
      AuthOk x pinnedAids w es ∧ (opts.allowUncovered = true ∨ ∀ e ∈ es, isUncovered x e = false) ∧
      issuerReport x w es = r := by
  have hallow : ∀ l : List Uncovered,
      ¬(l ≠ [] ∧ opts.allowUncovered = false) ↔ opts.allowUncovered = true ∨ l = [] := by
    intro l
    cases opts.allowUncovered <;> simp
  simp only [verifyAuthenticityAnchoredWith, bind_ok, refuse_ok, exists_const, pure_ok, hallow]
  constructor
  · intro hx
    rcases hx with ⟨keys, hkeys, r', hr', c, hc, hcov, hunc, rfl⟩
    obtain ⟨hrec, rfl⟩ := foldlM_recordStep_ok_iff.mp hr'
    obtain ⟨hatt, rfl⟩ := (foldlM_attestStep_ok_iff hkeys).mp hc
    rw [covering_eq_zero_iff, not_not] at hcov
    exact ⟨⟨pinnedKeys_ok_iff.mp ⟨keys, hkeys⟩, hrec, hatt, hcov⟩,
      hunc.imp id (issuerReport_uncovered_eq_nil (w := w)).mp, rfl⟩
  · intro hx
    rcases hx with ⟨⟨hpins, hrec, hatt, hcov⟩, hunc, rfl⟩
    obtain ⟨keys, hkeys⟩ := pinnedKeys_ok_iff.mpr hpins
    exact ⟨keys, hkeys, _, foldlM_recordStep_ok_iff.mpr ⟨hrec, rfl⟩,
      _, (foldlM_attestStep_ok_iff hkeys).mpr ⟨hatt, rfl⟩,
      fun h => covering_eq_zero_iff.mp h hcov, hunc.imp id (issuerReport_uncovered_eq_nil (w := w)).mpr, rfl⟩

theorem verifyAuthenticityAnchored_ok_iff :
    (∃ r, verifyAuthenticityAnchored x es w.heads w.maxSchemaByLink pinnedAids w.baseLen w.baseHead = .ok r) ↔
      AuthOk x pinnedAids w es ∧ ∀ e ∈ es, isUncovered x e = false := by
  simp [verifyAuthenticityAnchored, verifyAuthenticity_eq_ok_iff, AuthOptions.default]

/-! ## The anchor -/

def unpinnedAnchorMessage (anchor : Attestation) (pinnedAids : List String) : String :=
  s!"the anchor names issuer '{anchor.issuerAid}', but you pinned [{joinAids pinnedAids}].\n  " ++
  "A signature only means something relative to a key you already trusted; deriving the key " ++
  "from the anchor's own issuer would let a forged anchor verify against its forger."

def badAnchorSignatureMessage (x : Externs) (anchor : Attestation) : String :=
  s!"the anchor's signature (tenant {x.debugStr anchor.tenant}) does not verify against the pinned issuer's key under " ++
  "the one framing its tenant selects (v1 for the empty tenant, v2 for a named one — #835 " ++
  "step 4, no fallback). It is forged, or its (len, head, tenant) was altered after signing, " ++
  "or it is a v1 signature carrying a tenant (minted before #835 step 3: use a v2 anchor) — " ++
  "or it was signed under a framing newer than this verifier, in which case upgrade " ++
  "seam-verify before concluding forgery."

def vacuousAnchorMessage (anchor : Attestation) : String :=
  "the anchor is VACUOUS — attested_len is 0, a signed claim about the empty prefix.\n  " ++
  "It claims nothing (a conforming producer never signs the empty chain), so accepting it " ++
  "as an anchored start would re-create genesis seeding through the back door, under an " ++
  s!"artifact no conforming producer emits, signed by issuer '{anchor.issuerAid}'."

/-- An anchor is validated before a window is seeded with it. -/
def verifyAnchor (x : Externs) (anchor : Attestation) (pinnedAids : List String) : Except String Unit := do
  let keys ← pinnedKeys x pinnedAids
  let key ← demand (keys.find? fun k => k.1 == anchor.issuerAid) (unpinnedAnchorMessage anchor pinnedAids)
  refuse (anchor.signature.length ≠ 64) "anchor signature is not 64 bytes"
  refuse (attestationSignatureVerifies x key.2 anchor = false) (badAnchorSignatureMessage x anchor)
  refuse (anchor.attestedLen = 0) (vacuousAnchorMessage anchor)

theorem verifyAnchor_ok_iff {anchor : Attestation} {u : Unit} : verifyAnchor x anchor pinnedAids = .ok u ↔
      (∀ aid ∈ pinnedAids, ∃ k, verifyingKey x aid = .ok k) ∧ SignedBy x pinnedAids anchor ∧
      anchor.attestedLen ≠ 0 := by
  simp only [verifyAnchor, bind_ok, refuse_ok, exists_const, demand_ok, ne_eq, not_not, Bool.not_eq_false]
  constructor
  · intro h
    rcases h with ⟨keys, hkeys, k, hfind, hlen, hv, h0⟩
    obtain ⟨hmem, -, hk⟩ := (find_pinnedKeys hkeys).mp hfind
    exact ⟨pinnedKeys_ok_iff.mp ⟨keys, hkeys⟩, ⟨hmem, k.2, hk, hlen, hv⟩, h0⟩
  · intro h
    rcases h with ⟨hpins, ⟨hmem, k, hk, hlen, hv⟩, h0⟩
    obtain ⟨keys, hkeys⟩ := pinnedKeys_ok_iff.mpr hpins
    exact ⟨keys, hkeys, (anchor.issuerAid, k), (find_pinnedKeys hkeys).mpr ⟨hmem, rfl, hk⟩, hlen, hv, h0⟩

/-! ## A window to evaluate the check on -/

/-- The AID of the key of 32 zero bytes. -/
def sampleAid : String := "aid:pubkey:AAAAAAAAAAAAAAAAAAAAAAAAAAAAAAAAAAAAAAAAAAA"

/-- An attestation in the name of `sampleAid`. -/
def sampleAttestation (tenant : String) (len : UInt64) (head : Bytes) : Attestation :=
  ⟨len, head, 0, sampleAid, 4, List.replicate 64 0, tenant⟩

/-- The stand-in whose issuer has signed exactly the attestations given. -/
def Externs.signing (as : List Attestation) : Externs :=
  .sample (as.map fun a => framed (.sample []) (chainHeadAttestationParts a (attestationFraming a)))

/-- A link of a `hold_placed` entry. -/
def Event.holdPlaced (tenant : String) (seq : UInt64) (prev : Bytes) : Event :=
  let entry : AuditEntry := ⟨"hold_placed", "subject", "reason", none⟩
  let e := { Event.bare tenant "AUDIT_ENTRY" seq with classification := "Internal", audit := some entry }
  e.chainedTo (.sample []) prev (auditEntryDigest (.sample []) e entry "seam.audit.legal-hold.v1")

/-- A decision with every mandatory column. -/
def sampleDecision (id tenant : String) : Decision where
  decisionId := id
  tenant := tenant
  nameSpace := ""
  mode := none
  policyVersion := none
  outcome := "approved"
  supersedes := none
  sealedAt := 0
  schemaVersion := 4
  ciphertextDigest := List.replicate 32 1
  contextDigest := List.replicate 32 2
  participationDigest := List.replicate 32 3
  policyRulesDigest := []
  classification := "Internal"
  participantsDigest := List.replicate 32 4
  trustBasisCommitment := "basis"
  authMethod := "method"

/-- A link of a decision. Its digest commits to the tenant of the payload, not to the envelope's. -/
def Event.sealing (tenant : String) (seq : UInt64) (prev : Bytes) (d : Decision) : Event :=
  { Event.bare tenant "DECISION_SEALED" seq with eventId := d.decisionId, decision := some d }.chainedTo (.sample [])
    prev (((recordDigestV4 (.sample []) d).toOption).getD [])

/-- An attestation that is not a link itself. -/
def Event.attesting (seq : UInt64) (a : Attestation) : Event :=
  { Event.bare a.tenant "CHAIN_HEAD_ATTESTATION" seq with
    eventId := "attestation", classification := "Internal", attestation := some a }

/-- An attestation that is a link itself. -/
def Event.attestingLink (seq : UInt64) (prev : Bytes) (a : Attestation) : Event :=
  (Event.attesting seq a).chainedTo (.sample []) prev (chainAttestDigest (.sample []) a)

end SeamSdk
