import SeamSdk.Verify.Inclusion

/-!
# What a binding ties together

A bundle that discloses its Commitment also carries a binding: the issuer's signature over the decision, its tenant,
the checksum of its link and the digest of the Commitment. The fourth and fifth steps compare each signed field with
what the window and `commitment.json` give.

- `checkCommitment_ok_iff`, `checkBinding_ok_iff`: what the two steps ask;
- `Disclosing.agrees`: in an accepted bundle the signed fields are those of the report, the link and the Commitment;
- `binding_sound`: one signed digest stands for one decision, one link and one Commitment.
-/

namespace SeamSdk

open ByteCodec Checked Base64 List

/-! ## The signed fields -/

/-- The fields of `binding.json` under the signature. -/
structure EvidenceBinding where
  decisionId : String
  tenant : String
  recordChecksum : Bytes
  commitmentDigest : Bytes
  boundAt : UInt64
  issuerAid : String
  deriving DecidableEq, Repr

variable {b b' : EvidenceBinding} {j : Json} {name : String} {sig : Bytes}

namespace EvidenceBinding

def parts (b : EvidenceBinding) : List Bytes :=
  evidenceBindingParts b.decisionId b.tenant b.recordChecksum b.commitmentDigest b.boundAt b.issuerAid

def digest (x : Externs) (b : EvidenceBinding) : Bytes :=
  evidenceBindingDigest x b.decisionId b.tenant b.recordChecksum b.commitmentDigest b.boundAt b.issuerAid

theorem parts_inj (h : b.parts = b'.parts) : b = b' := by
  cases b
  cases b'
  simpa [parts, evidenceBindingParts] using h

/-- Every field fits its length prefix. -/
def Short (b : EvidenceBinding) : Prop := ∀ p ∈ frames b.parts, p.Short

instance : DecidablePred Short := fun b => inferInstanceAs (Decidable (∀ p ∈ frames b.parts, p.Short))

/-- A digest commits to every field. -/
theorem digest_inj {x : Externs} (hs : b.Short) (hs' : b'.Short)
    (hfree : x.CollisionFree [layout (frames b.parts), layout (frames b'.parts)]) (h : b.digest x = b'.digest x) :
    b = b' := by
  have hlayout : layout (frames b.parts) = layout (frames b'.parts) := by
    apply hfree _ _ _ _ h
    · exact mem_cons_self
    · exact mem_cons_of_mem _ mem_cons_self
  exact parts_inj (frames_inj hs hs' hlayout)

/-- What a document says of the binding, with the signature on it. -/
structure Reads (j : Json) (b : EvidenceBinding) (sig : Bytes) : Prop where
  issuerAid : (j.get? "issuer_aid").bind Json.asStr? = some b.issuerAid
  decisionId : (j.get? "decision_id").bind Json.asStr? = some b.decisionId
  tenant : (j.get? "tenant").bind Json.asStr? = some b.tenant
  recordChecksum : ((j.get? "record_checksum").bind Json.asStr?).bind b64Std = some b.recordChecksum
  commitmentDigest : ((j.get? "commitment_digest").bind Json.asStr?).bind hexDecode = some b.commitmentDigest
  boundAt : (j.get? "bound_at").bind Json.asU64? = some b.boundAt
  signature : ((j.get? "signature").bind Json.asStr?).bind b64Std = some sig
  sigLength : sig.length = 64

/-- A document says one thing of the binding. -/
theorem Reads.unique {sig' : Bytes} (h : b.Reads j sig) (h' : b'.Reads j sig') : b = b' ∧ sig = sig' := by
  refine ⟨?_, Option.some.inj (h.signature.symm.trans h'.signature)⟩
  cases b
  cases b'
  simp only [mk.injEq]
  exact ⟨Option.some.inj (h.decisionId.symm.trans h'.decisionId), Option.some.inj (h.tenant.symm.trans h'.tenant),
    Option.some.inj (h.recordChecksum.symm.trans h'.recordChecksum),
    Option.some.inj (h.commitmentDigest.symm.trans h'.commitmentDigest),
    Option.some.inj (h.boundAt.symm.trans h'.boundAt), Option.some.inj (h.issuerAid.symm.trans h'.issuerAid)⟩

end EvidenceBinding

/-! ## The fourth and fifth steps -/

variable {x : Readers} {dir dir' : BundleDir} {pinned : String} {now now' : UInt64}

/-- A member that is a JSON document. -/
def HasDocument (x : Readers) (dir : BundleDir) (name : String) (j : Json) : Prop :=
  ∃ raw, dir.read name = .ok raw ∧ x.jsonValue raw = .ok j

theorem HasDocument.unique {j' : Json} (h : HasDocument x dir name j) (h' : HasDocument x dir name j') : j = j' := by
  obtain ⟨raw, hraw, hj⟩ := h
  obtain ⟨raw', hraw', hj'⟩ := h'
  obtain rfl : raw = raw' := Except.ok.inj (hraw.symm.trans hraw')
  exact Except.ok.inj (hj.symm.trans hj')

/-- The Commitment of a bundle. -/
def HasCommitment (x : Readers) (dir : BundleDir) (c : Commitment) : Prop :=
  ∃ j, HasDocument x dir "commitment.json" j ∧ parseCommitment x j = .ok c

theorem HasCommitment.unique {c c' : Commitment} (h : HasCommitment x dir c) (h' : HasCommitment x dir c') : c = c' := by
  obtain ⟨j, hj, hc⟩ := h
  obtain ⟨j', hj', hc'⟩ := h'
  obtain rfl := hj.unique hj'
  exact Except.ok.inj (hc.symm.trans hc')

/-- The binding of a bundle, with its signature. -/
def HasBinding (x : Readers) (dir : BundleDir) (b : EvidenceBinding) (sig : Bytes) : Prop :=
  ∃ j, HasDocument x dir "binding.json" j ∧ b.Reads j sig

theorem HasBinding.unique {sig' : Bytes} (h : HasBinding x dir b sig) (h' : HasBinding x dir b' sig') :
    b = b' ∧ sig = sig' := by
  obtain ⟨j, hj, hb⟩ := h
  obtain ⟨j', hj', hb'⟩ := h'
  obtain rfl := hj.unique hj'
  exact hb.unique hb'

/-- **The fourth step.** -/
theorem checkCommitment_ok_iff {supersedes : Option String} {digest : Bytes} {verified : Bool} :
    checkCommitment x dir pinned now supersedes = .ok (digest, verified) ↔ ∃ c, HasCommitment x dir c ∧
      commitmentDigest x c = .ok digest ∧
      (c.signedArtifact ≠ "" → verifyTct x pinned c.signedArtifact digest now = .ok ()) ∧
      c.supersedes = supersedes ∧ verified = decide (c.signedArtifact ≠ "") := by
  simp only [checkCommitment, readMember, parseJson, bind_ok, ite_bind_ok, mapError_ok, refuse_ok, exists_const, pure_ok,
    ne_eq, not_not, Prod.mk.injEq, HasCommitment, HasDocument]
  constructor
  · rintro ⟨raw, hraw, j, hj, c, hc, d, hd, htct, hsup, rfl, rfl⟩
    exact ⟨c, ⟨j, ⟨raw, hraw, hj⟩, hc⟩, hd, htct, hsup, rfl⟩
  · rintro ⟨c, ⟨j, ⟨raw, hraw, hj⟩, hc⟩, hd, htct, hsup, rfl⟩
    exact ⟨raw, hraw, j, hj, c, hc, digest, hd, htct, hsup, rfl, rfl⟩

/-- **The fifth step.** -/
theorem checkBinding_ok_iff {key checksum digest : Bytes} {decisionId tenant : String} {u : Unit} :
    checkBinding x dir pinned key decisionId tenant checksum digest = .ok u ↔ ∃ b sig, HasBinding x dir b sig ∧
      b = ⟨decisionId, tenant, checksum, digest, b.boundAt, pinned⟩ ∧ x.keyError key = none ∧
      x.ed25519Verify key (b.digest x.toExterns) sig = true := by
  simp only [checkBinding, readMember, parseJson, strField, bind_ok, mapError_ok, demand_ok, refuse_ok, refuseSome_ok,
    exists_const, ne_eq, not_not, not_or, Bool.not_eq_false, Option.filter_eq_some_iff, beq_iff_eq]
  constructor
  · rintro ⟨raw, hraw, j, hj, _, hissuer, rfl, id, hid, t, ht, sum, hsum, sumBytes, hsumBytes, dig, hdig, digBytes,
      hdigBytes, at', hat, sigText, hsigText, sig, ⟨hsig, hlen⟩, hkey, hver, ⟨rfl, rfl, rfl⟩, rfl⟩
    refine ⟨⟨id, t, sumBytes, digBytes, at', _⟩, sig, ⟨j, ⟨raw, hraw, hj⟩, hissuer, hid, ht, ?_, ?_, hat, ?_, hlen⟩, rfl,
      hkey, hver⟩
    · rw [hsum]; exact hsumBytes
    · rw [hdig]; exact hdigBytes
    · rw [hsigText]; exact hsig
  · rintro ⟨b, sig, ⟨j, ⟨raw, hraw, hj⟩, hb⟩, hfields, hkey, hver⟩
    obtain ⟨sum, hsum, hsumBytes⟩ := Option.bind_eq_some_iff.mp hb.recordChecksum
    obtain ⟨dig, hdig, hdigBytes⟩ := Option.bind_eq_some_iff.mp hb.commitmentDigest
    obtain ⟨sigText, hsigText, hsig⟩ := Option.bind_eq_some_iff.mp hb.signature
    refine ⟨raw, hraw, j, hj, b.issuerAid, hb.issuerAid, ?_, _, hb.decisionId, _, hb.tenant, sum, hsum, _, hsumBytes,
      dig, hdig, _, hdigBytes, _, hb.boundAt, sigText, hsigText, sig, ⟨hsig, hb.sigLength⟩, hkey, hver, ?_, ?_⟩
    all_goals rw [hfields]
    exact ⟨rfl, rfl, rfl⟩

/-- **The last three steps.** -/
theorem checkDisclosures_ok_iff {key checksum : Bytes} {m : Json} {decisionId tenant : String} {payload : Decision}
    {tct : Option Bool} : checkDisclosures x dir pinned now key m decisionId tenant checksum payload = .ok tct ↔
      (if hasFile m "commitment.json" then ∃ digest verified,
          checkCommitment x dir pinned now payload.supersedes = .ok (digest, verified) ∧
          checkBinding x dir pinned key decisionId tenant checksum digest = .ok () ∧ tct = some verified
        else tct = none) ∧
      (hasFile m "context.json" = true → checkContext x dir payload = .ok ()) ∧
      (hasFile m "policy.json" = true → checkPolicy x dir payload = .ok ()) := by
  simp only [checkDisclosures]
  by_cases hlisted : hasFile m "commitment.json" = true
  · rw [if_pos hlisted, if_pos hlisted]
    simp only [bind_ok, Prod.exists, ite_bind_ok, pure_ok]
    constructor
    · rintro ⟨digest, verified, hcommit, _, hbind, _, rfl, hcontext, hpolicy, rfl⟩
      exact ⟨⟨digest, verified, hcommit, hbind, rfl⟩, hcontext, hpolicy⟩
    · rintro ⟨⟨digest, verified, hcommit, hbind, rfl⟩, hcontext, hpolicy⟩
      exact ⟨digest, verified, hcommit, (), hbind, _, rfl, hcontext, hpolicy, rfl⟩
  · rw [if_neg hlisted, if_neg hlisted]
    simp only [bind_ok, ite_bind_ok, pure_ok, exists_eq_left']
    constructor
    · rintro ⟨hcontext, hpolicy, rfl⟩
      exact ⟨rfl, hcontext, hpolicy⟩
    · rintro ⟨rfl, hcontext, hpolicy⟩
      exact ⟨hcontext, hpolicy, rfl⟩

/-! ## Bundles with a Commitment -/

/-- An accepted bundle that carries a Commitment and its binding: the report, the decision's link, and what the two
members say. -/
structure Disclosing (x : Readers) (dir : BundleDir) (pinned : String) (now : UInt64) (r : BundleReport) (e : Event)
    (c : Commitment) (b : EvidenceBinding) (sig : Bytes) : Prop where
  accepted : verifyBundle x dir pinned now = .ok r
  listed : ∃ m, HasDocument x dir "manifest.json" m ∧ hasFile m "commitment.json" = true
  link : ∃ w, checkWindow x dir pinned = .ok w ∧ findSealed w.events r.decisionId = .ok e
  commitment : HasCommitment x dir c
  binding : HasBinding x dir b sig

/-- **The signed fields are those of the bundle**, and the signature on them is the pinned issuer's. -/
theorem Disclosing.agrees {r : BundleReport} {e : Event} {c : Commitment}
    (h : Disclosing x dir pinned now r e c b sig) :
    b.decisionId = r.decisionId ∧ b.tenant = r.tenant ∧ e.checksum = some b.recordChecksum ∧
      commitmentDigest x c = .ok b.commitmentDigest ∧ b.issuerAid = pinned ∧
      ∃ key, aidToKey x.toExterns pinned = .ok key ∧ x.ed25519Verify key (b.digest x.toExterns) sig = true := by
  obtain ⟨key, m, id, tenant, w, e', payload, tct, hkey, hchecked, hpayload, hdis, rfl⟩ :=
    verifyBundle_ok_iff.mp h.accepted
  obtain ⟨m', hm', hlisted⟩ := h.listed
  obtain rfl : m' = m := hm'.unique hchecked.manifest.read
  obtain ⟨w', hw', hsealed⟩ := h.link
  obtain rfl : w' = w := Except.ok.inj (hw'.symm.trans hchecked.window)
  obtain rfl : e' = e := singleton_inj.mp (hchecked.only.symm.trans (findSealed_ok_iff.mp hsealed))
  have hmem : e' ∈ w'.events.filter (isDecisionLink id) := hchecked.only ▸ mem_singleton_self e'
  obtain ⟨_, sum, -, hsum⟩ := Event.isLink_iff.mp (Bool.and_eq_true_iff.mp (mem_filter.mp hmem).2).1
  obtain ⟨hcommitted, -⟩ := checkDisclosures_ok_iff.mp hdis
  rw [if_pos hlisted] at hcommitted
  obtain ⟨digest, verified, hcommit, hbind, -⟩ := hcommitted
  obtain ⟨c', hc', hdigest, -⟩ := checkCommitment_ok_iff.mp hcommit
  obtain rfl := h.commitment.unique hc'
  obtain ⟨b', sig', hb', hfields, -, hver⟩ := checkBinding_ok_iff.mp hbind
  obtain ⟨rfl, rfl⟩ := h.binding.unique hb'
  rw [hsum, Option.getD_some] at hfields
  rw [hfields]
  refine ⟨rfl, rfl, hsum, hdigest, rfl, key, hkey, ?_⟩
  rw [← hfields]
  exact hver

/-- The inputs of the three digests of a bundle. -/
def disclosedInputs (x : Externs) (c : Commitment) (b : EvidenceBinding) : List Bytes :=
  layout (frames b.parts) :: commitmentInputs x c

/-- **Binding soundness.** Two accepted bundles of one issuer, whose signatures are over one digest, report the same
decision of the same tenant, at links with the same checksum, and carry the same Commitment up to its token. -/
theorem binding_sound {r r' : BundleReport} {e e' : Event} {c c' : Commitment} {b b' : EvidenceBinding}
    {sig sig' : Bytes} (h : Disclosing x dir pinned now r e c b sig)
    (h' : Disclosing x dir' pinned now' r' e' c' b' sig') (hdigest : b.digest x.toExterns = b'.digest x.toExterns)
    (hc : c.Short) (hc' : c'.Short) (hb : b.Short) (hb' : b'.Short)
    (hfree : x.CollisionFree (disclosedInputs x.toExterns c b ++ disclosedInputs x.toExterns c' b')) :
    r.decisionId = r'.decisionId ∧ r.tenant = r'.tenant ∧ e.checksum = e'.checksum ∧
      c.id = c'.id ∧ c.action = c'.action ∧ c.authority = c'.authority ∧ c.supersedes = c'.supersedes ∧
      c.authMethod = c'.authMethod ∧ c.trustBasis = c'.trustBasis ∧ c.committer = c'.committer ∧
      c.explanation = c'.explanation := by
  obtain ⟨hid, htenant, hsum, hcommit, -⟩ := h.agrees
  obtain ⟨hid', htenant', hsum', hcommit', -⟩ := h'.agrees
  have hsame : b = b' := EvidenceBinding.digest_inj hb hb' (hfree.mono (by simp [disclosedInputs])) hdigest
  subst hsame
  have hinputs : commitmentInputs x.toExterns c ++ commitmentInputs x.toExterns c' ⊆
      disclosedInputs x.toExterns c b ++ disclosedInputs x.toExterns c' b :=
    List.append_subset.mpr ⟨fun _ hp => List.mem_append_left _ (List.mem_cons_of_mem _ hp),
      fun _ hp => List.mem_append_right _ (List.mem_cons_of_mem _ hp)⟩
  have heq := commitmentDigest_inj hcommit hcommit' hc hc' (hfree.mono hinputs)
  simp only [Commitment.mk.injEq] at heq
  obtain ⟨h1, h2, h3, h4, h5, h6, h7, h8, -⟩ := heq
  exact ⟨hid.symm.trans hid', htenant.symm.trans htenant', hsum.trans hsum'.symm, h1, h2, h3, h4, h5, h6, h7, h8⟩

/-! ## Two bundles to compare -/

/-- Readers for the events and the documents given, with an issuer that has signed the messages given. -/
def Readers.reading (signed : List Bytes) (table : List Event) (docs : List Json) : Readers :=
  { Readers.sample [] table with
    toExterns := .sample signed
    jsonValue := fun b =>
      match docs.find? fun j => utf8 j.text == b with
      | some j => .ok j
      | none => .error "expected value" }

def disclosedEntry : ExplanationEntry := ⟨"vote", "p", "", "yes", "", some 0, some "r"⟩

def disclosedCommitment : Commitment := ⟨"c", "pay", "board", none, "method", "basis", "", [disclosedEntry], ""⟩

def disclosedCommitmentDoc : Json :=
  .obj [("action", .str "pay"), ("id", .str "c"), ("authority", .str "board"), ("supersedes", .null),
    ("auth_method", .str "method"), ("trust_basis", .str "basis"), ("committer", .str ""),
    ("explanation", .arr [.obj [("kind", .str "vote"), ("participant", .str "p"), ("value", .str "yes"),
      ("confidence", .num (.int false 0)), ("rationale_ref", .str "r")]]), ("signed_artifact", .str "")]

def disclosedCommitmentDigest : Bytes :=
  let x := Externs.sample []
  x.sha256 (layout (disclosedCommitment.parts (x.sha256 (layout (explanationParts disclosedCommitment.explanation)))))

/-- The binding of `disclosedCommitment` to the first link past the anchor. -/
def disclosedBinding : EvidenceBinding := ⟨"d", "t", linkTwo.linkHead, disclosedCommitmentDigest, 0, sampleAid⟩

/-- One binding under two signatures. -/
def disclosedSignature (k : Bool) : Bytes := List.replicate 64 (if k then 1 else 0)

/-- The members of an object in one of two orders. -/
def ordered (k : Bool) (first second : String × Json) (ms : List (String × Json)) : Json :=
  .obj (if k then second :: first :: ms else first :: second :: ms)

def disclosedBindingDoc (k : Bool) : Json :=
  ordered k ("signature", .str (encodePadded standard (disclosedSignature k))) ("issuer_aid", .str sampleAid)
    [("decision_id", .str "d"), ("tenant", .str "t"),
      ("record_checksum", .str (encodePadded standard linkTwo.linkHead)),
      ("commitment_digest", .str (RustText.hex disclosedCommitmentDigest)), ("bound_at", .num (.int false 0))]

def disclosedMembers (k : Bool) : List (String × Bytes) :=
  [("anchor.json", utf8 (Event.attesting 0 anchorOne).protobufLine), ("binding.json", utf8 (disclosedBindingDoc k).text),
    ("commitment.json", utf8 disclosedCommitmentDoc.text),
    ("events.jsonl", utf8 (RustText.unlines ([linkTwo, linkThree].map Event.protobufLine)))]

def disclosingManifest (k : Bool) : Json :=
  ordered k ("format", .str bundleFormat) ("disclosed", .arr [.str "commitment", .str "binding"])
    [("issuer", .obj [("aid", .str sampleAid)]), ("decision_id", .str "d"), ("tenant", .str "t"),
      ("files", .obj ((disclosedMembers k).map fun f => (f.1, sampleListing f.2))),
      ("inclusion", .obj [("record_checksum", .str (encodePadded standard linkTwo.linkHead))])]

def disclosingDir (k : Bool) : BundleDir := .sample (disclosingManifest k) (disclosedMembers k)

def disclosedDocs : List Json :=
  [disclosingManifest false, disclosingManifest true, disclosedBindingDoc false, disclosedBindingDoc true,
    disclosedCommitmentDoc]

/-- What the issuer has signed: two attestations and the binding. -/
def disclosingSigned : List Bytes :=
  ([anchorOne, attestationTwo].map fun a => framed (.sample []) (chainHeadAttestationParts a (attestationFraming a))) ++
    [disclosedBinding.digest (.sample [])]

def disclosingReaders : Readers :=
  .reading disclosingSigned [.attesting 0 anchorOne, linkTwo, linkThree] disclosedDocs

variable {signed : List Bytes} {table : List Event} {docs : List Json}

/-- Objects that start differently are read from their texts. -/
theorem Readers.jsonValue_reading (hnd : (docs.map Json.lead).Nodup) (hne : [] ∉ docs.map Json.lead) (hj : j ∈ docs) :
    (Readers.reading signed table docs).jsonValue (utf8 j.text) = .ok j := by
  have hlead : ∀ i ∈ docs, i.lead ≠ [] := fun i hi h => hne (h ▸ mem_map_of_mem hi)
  have hfind : docs.find? (fun i => utf8 i.text == utf8 j.text) = some j := by
    cases hf : docs.find? fun i => utf8 i.text == utf8 j.text with
    | none => exact absurd (List.find?_eq_none.mp hf j hj) (by simp)
    | some i =>
      have hi := mem_of_find?_eq_some hf
      have htext := List.find?_some hf
      rw [beq_iff_eq, utf8_inj] at htext
      rw [inj_on_of_nodup_map hnd hi hj (Json.lead_eq_of_text (hlead i hi) (hlead j hj) htext)]
  simp only [Readers.reading, hfind]

theorem Readers.of_jsonValue_reading {b : Bytes} (h : (Readers.reading signed table docs).jsonValue b = .ok j) :
    utf8 j.text = b ∧ docs.find? (fun i => utf8 i.text == b) = some j := by
  simp only [Readers.reading] at h
  split at h
  · rename_i hfind
    cases h
    have htext := List.find?_some hfind
    exact ⟨beq_iff_eq.mp htext, hfind⟩
  · cases h

/-- A document that lists no anchors is not taken for a feed of them. -/
theorem Readers.not_isAnchorFeed_reading (h : ∀ j ∈ docs, j.get? "anchors" = none) (line : String) :
    isAnchorFeed (.reading signed table docs) line = false := by
  simp only [isAnchorFeed, Readers.reading]
  cases hf : docs.find? fun j => utf8 j.text == utf8 line with
  | none => rfl
  | some j => simp [h j (mem_of_find?_eq_some hf)]

theorem disclosedDocs_read (hj : j ∈ disclosedDocs) : disclosingReaders.jsonValue (utf8 j.text) = .ok j := by
  have hlead : disclosedDocs.map Json.lead = [['"', 'f'], ['"', 'd'], ['"', 's'], ['"', 'i'], ['"', 'a']] := by rfl
  unfold disclosingReaders
  apply Readers.jsonValue_reading _ _ hj
  · rw [hlead]
    decide
  · rw [hlead]
    decide

theorem read_disclosing {k : Bool} {b : Bytes} (h : (name, b) ∈ disclosedMembers k) :
    (disclosingDir k).read name = .ok b := by
  have hread : ∀ f ∈ disclosedMembers k, (disclosingDir k).read f.1 = .ok f.2 := by
    simp [disclosedMembers, disclosingDir, BundleDir.sample]
  exact hread (name, b) h

theorem manifestOk_disclosing (k : Bool) :
    ManifestOk disclosingReaders (disclosingDir k) sampleAid (disclosingManifest k) := by
  have hfiles : ((disclosingManifest k).get? "files").bind Json.asObj? =
      some ((disclosedMembers k).map fun f => (f.1, sampleListing f.2)) := by
    have hget : (disclosingManifest k).get? "files" =
        some (.obj ((disclosedMembers k).map fun f => (f.1, sampleListing f.2))) := by cases k <;> rfl
    rw [hget]
    apply Json.asObj?_of_sorted
    · have hnd : ["anchor.json", "binding.json", "commitment.json", "events.jsonl"].Nodup := by decide
      exact hnd
    · simp [disclosedMembers]
  refine ⟨⟨utf8 (disclosingManifest k).text, rfl, disclosedDocs_read ?_⟩, ?_, ?_, ?_, _, hfiles, rfl, rfl, rfl,
    fileOk_sample ?_ ?_ (fun _ => read_disclosing), ?_⟩
  · cases k <;> simp [disclosedDocs]
  · cases k <;> rfl
  · cases k <;> rfl
  · intro key hkey
    cases k <;> cases hkey
  · rfl
  · have hplain : ∀ name ∈ ["anchor.json", "binding.json", "commitment.json", "events.jsonl"],
        isPlainName name = true := by decide +kernel
    exact hplain
  · intro d hd
    simp only [disclosable, mem_cons, not_mem_nil, or_false] at hd
    rcases hd with rfl | rfl | rfl | rfl <;> cases k <;> rfl

theorem hasCommitment_disclosing (k : Bool) : HasCommitment disclosingReaders (disclosingDir k) disclosedCommitment := by
  have hread : (disclosingDir k).read "commitment.json" = .ok (utf8 disclosedCommitmentDoc.text) :=
    read_disclosing (.tail _ (.tail _ (.head _)))
  have hparse : parseCommitment disclosingReaders disclosedCommitmentDoc = .ok disclosedCommitment := by rfl
  exact ⟨disclosedCommitmentDoc, ⟨_, hread, disclosedDocs_read (by simp [disclosedDocs])⟩, hparse⟩

theorem hasBinding_disclosing (k : Bool) :
    HasBinding disclosingReaders (disclosingDir k) disclosedBinding (disclosedSignature k) := by
  have hb64 : ∀ b, b64Std (encodePadded standard b) = some b :=
    decodePadded_encodePadded standard_lawful rfl
  have hsum : ((disclosedBindingDoc k).get? "record_checksum").bind Json.asStr? =
      some (encodePadded standard linkTwo.linkHead) := by cases k <;> rfl
  have hdigest : ((disclosedBindingDoc k).get? "commitment_digest").bind Json.asStr? =
      some (RustText.hex disclosedCommitmentDigest) := by cases k <;> rfl
  have hsig : ((disclosedBindingDoc k).get? "signature").bind Json.asStr? =
      some (encodePadded standard (disclosedSignature k)) := by cases k <;> rfl
  have hread : (disclosingDir k).read "binding.json" = .ok (utf8 (disclosedBindingDoc k).text) :=
    read_disclosing (.tail _ (.head _))
  refine ⟨disclosedBindingDoc k, ⟨_, hread, disclosedDocs_read ?_⟩, ?_, ?_, ?_, ?_, ?_, ?_, ?_, ?_⟩
  · cases k <;> simp [disclosedDocs]
  · cases k <;> rfl
  · cases k <;> rfl
  · cases k <;> rfl
  · simp [hsum, hb64, disclosedBinding]
  · simp [hdigest, hexDecode_hex, disclosedBinding]
  · cases k <;> rfl
  · rw [hsig, Option.bind_some, hb64]
  · simp [disclosedSignature]

theorem hasText_disclosing {k : Bool} {t : String} (h : (name, utf8 t) ∈ disclosedMembers k) :
    HasText (disclosingDir k) name t :=
  ⟨utf8 t, read_disclosing h, ofUtf8?_utf8 t⟩

/-- The window of both bundles. -/
theorem checkWindow_disclosing (k : Bool) : ∃ w, checkWindow disclosingReaders (disclosingDir k) sampleAid = .ok w ∧
      w.events.filter (isDecisionLink "d") = [linkTwo.withIdentity] := by
  have hdec : Decodes disclosingReaders [.attesting 0 anchorOne, linkTwo, linkThree] := Readers.sample_decodes [] _
  have hv : verifyAnchor disclosingReaders.toExterns anchorOne [sampleAid] = .ok () := by
    obtain ⟨_, hv⟩ : ∃ u, verifyAnchor disclosingReaders.toExterns anchorOne [sampleAid] = .ok u :=
      exists_ok_of_isOk (by decide +kernel)
    exact hv
  have hanchor : readAnchor disclosingReaders (disclosingDir k) sampleAid = .ok anchorOne := by
    have hnone : ∀ j ∈ disclosedDocs, j.get? "anchors" = none := by
      simp [disclosedDocs, disclosingManifest, disclosedBindingDoc, disclosedCommitmentDoc, ordered, Json.get?]
    refine readAnchor_line ?_ (hasText_disclosing (.head _)) (Readers.not_isAnchorFeed_reading hnone _) hv
    intro e he
    obtain rfl := mem_singleton.mp he
    exact hdec _ mem_cons_self
  have hevents : readEvents disclosingReaders (disclosingDir k) = .ok ([linkTwo, linkThree].map Event.withIdentity) := by
    refine readEvents_lines (by simp) (by decide) ?_ (hasText_disclosing (.tail _ (.tail _ (.tail _ (.head _)))))
    intro e he
    exact hdec e (mem_cons_of_mem _ he)
  obtain ⟨w, hw, honly⟩ :
      ∃ w, walkWindow sampleAid disclosingReaders.toExterns anchorOne ([linkTwo, linkThree].map Event.withIdentity) =
          .ok w ∧ w.events.filter (isDecisionLink "d") = [linkTwo.withIdentity] :=
    exists_ok_of_any (by decide +kernel)
  refine ⟨w, ?_, honly⟩
  simp only [checkWindow, bind_ok]
  exact ⟨_, hanchor, _, hevents, hw⟩

/-- Both bundles are accepted, and say the same of the decision. -/
theorem disclosing_sample (k : Bool) :
    ∃ r, r.decisionId = "d" ∧ Disclosing disclosingReaders (disclosingDir k) sampleAid 0 r linkTwo.withIdentity
      disclosedCommitment disclosedBinding (disclosedSignature k) := by
  obtain ⟨w, hw, honly⟩ := checkWindow_disclosing k
  obtain ⟨key, hkey⟩ : ∃ key, aidToKey disclosingReaders.toExterns sampleAid = .ok key :=
    exists_ok_of_isOk (by decide +kernel)
  have hmanifest := manifestOk_disclosing k
  have hlisted : hasFile (disclosingManifest k) "commitment.json" = true := by cases k <;> rfl
  have hstated : statedChecksum (disclosingManifest k) = some linkTwo.linkHead := by
    have hget : ((disclosingManifest k).pointer ["inclusion", "record_checksum"]).bind Json.asStr? =
        some (encodePadded standard linkTwo.linkHead) := by cases k <;> rfl
    rw [statedChecksum, hget, Option.bind_some]
    exact decodePadded_encodePadded standard_lawful rfl linkTwo.linkHead
  have hchecked : BundleChecked disclosingReaders (disclosingDir k) sampleAid "d" "t" (disclosingManifest k) w
      linkTwo.withIdentity := by
    refine ⟨hmanifest, ?_, ?_, hw, ?_, honly, rfl, ?_⟩
    · cases k <;> rfl
    · cases k <;> rfl
    · intro n hn
      cases k <;> cases hn
    · rw [hstated]
      rfl
  have hdigest : commitmentDigest disclosingReaders disclosedCommitment = .ok disclosedCommitmentDigest := by
    have hx : disclosingReaders.sha256 = (Externs.sample []).sha256 := rfl
    refine commitmentDigest_ok_iff.mpr
      ⟨by simp [disclosedCommitment, disclosedEntry, ExplanationEntry.Canonical, explanationKinds, Binary64.one], ?_⟩
    rw [hx]
    rfl
  have hdis : checkDisclosures disclosingReaders (disclosingDir k) sampleAid 0 key (disclosingManifest k) "d" "t"
      (linkTwo.withIdentity.checksum.getD []) (sampleDecision "d" "t") = .ok (some false) := by
    rw [checkDisclosures_ok_iff, if_pos hlisted]
    refine ⟨⟨disclosedCommitmentDigest, false, ?_, ?_, rfl⟩, ?_, ?_⟩
    · exact checkCommitment_ok_iff.mpr
        ⟨disclosedCommitment, hasCommitment_disclosing k, hdigest, by simp [disclosedCommitment], rfl, rfl⟩
    · refine checkBinding_ok_iff.mpr ⟨disclosedBinding, disclosedSignature k, hasBinding_disclosing k, rfl, rfl, ?_⟩
      have hsame : disclosedBinding.digest disclosingReaders.toExterns = disclosedBinding.digest (.sample []) := rfl
      have hsigned : disclosingSigned.contains (disclosedBinding.digest (.sample [])) = true :=
        contains_iff_mem.mpr (mem_append_right _ mem_cons_self)
      have hx : disclosingReaders.toExterns = .sample disclosingSigned := rfl
      rw [hsame, hx, Externs.sample_ed25519Verify, hsigned]
    · intro h
      cases k <;> cases h
    · intro h
      cases k <;> cases h
  refine ⟨bundleReport (disclosingManifest k) w "d" "t" (some false), rfl, ?_, ⟨_, hmanifest.read, hlisted⟩,
    ⟨w, hw, findSealed_ok_iff.mpr honly⟩, hasCommitment_disclosing k, hasBinding_disclosing k⟩
  exact verifyBundle_ok_iff.mpr ⟨key, _, "d", "t", w, _, _, some false, hkey, hchecked, rfl, hdis, rfl⟩

theorem binding_sound_two_signatures :
    ∃ r r', Disclosing disclosingReaders (disclosingDir false) sampleAid 0 r linkTwo.withIdentity disclosedCommitment
        disclosedBinding (disclosedSignature false) ∧
      Disclosing disclosingReaders (disclosingDir true) sampleAid 0 r' linkTwo.withIdentity disclosedCommitment
        disclosedBinding (disclosedSignature true) ∧
      r.decisionId = "d" ∧ r.decisionId = r'.decisionId ∧ r.tenant = r'.tenant := by
  obtain ⟨r, hid, h⟩ := disclosing_sample false
  obtain ⟨r', -, h'⟩ := disclosing_sample true
  have hc : disclosedCommitment.Short := by
    refine ⟨by decide +kernel, ?_⟩
    intro b hb
    have hfixed : ∀ p ∈ disclosedCommitment.parts [], p.Short := by decide +kernel
    simp only [Commitment.parts, List.forall_mem_cons, List.not_mem_nil, false_imp_iff, implies_true, and_true,
      Part.Short] at hfixed ⊢
    obtain ⟨h1, h2, h3, h4, h5, h6, h7, h8, -⟩ := hfixed
    exact ⟨h1, h2, h3, h4, h5, h6, h7, h8, by omega⟩
  obtain ⟨hdecision, htenant, -⟩ := binding_sound h h' rfl hc hc (by decide +kernel) (by decide +kernel)
    (by decide +kernel)
  exact ⟨r, r', h, h', hid, hdecision, htenant⟩

end SeamSdk
