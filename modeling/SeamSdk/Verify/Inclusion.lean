import SeamSdk.Verify.Bundle
import SeamSdk.Verify.IssuerRun

/-!
# Where the decision lies

An accepted bundle has one link of its decision, in a window that the issuer signed at its start and at some position
past it. Nothing compares the two positions.

- `WindowOk.chain_eq`: the chain of the window starts at the anchor and has the links of the one tenant;
- `inclusion_attested_iff`: the decision's link is under an attestation exactly if one reaches its position;
- `manifest_inclusion_agrees`: what the manifest says of the anchor and of the link is what the files say.
-/

namespace SeamSdk

open ByteCodec Checked Event List

variable {x : Readers} {dir : BundleDir} {pinned : String} {now : UInt64}

/-! ## Positions in the window -/

def BundleWindow.links (w : BundleWindow) : List Event := w.events.filter isLink

/-- The chain of the window's only tenant. -/
def BundleWindow.chain (w : BundleWindow) : TenantChain := w.report.only

/-- The absolute position of the link of a decision: its place among the links, counted from one, past the anchor. -/
def BundleWindow.positionOf (w : BundleWindow) (decisionId : String) : Nat :=
  w.anchor.attestedLen.toNat + (w.links.findIdx (isDecisionLink decisionId) + 1)

variable {e : Event}

section Window

variable {x : Externs} {es : List Event} {w : BundleWindow} {n : Nat} {r : ChainReport}

variable {t : String}

/-- All links of the window are of one tenant. -/
theorem WindowOk.only (hok : WindowOk x pinned es w n r) (ht : linksOf t w.events ≠ []) :
    ∀ t', linksOf t' w.events ≠ [] → t' = t := by
  intro t' ht'
  by_contra hne
  have hlt := (one_lt_tenants_iff hok.stream.walk).mpr ⟨t', t, hne, ht', ht⟩
  have hone := hok.single
  omega

theorem WindowOk.linksOf_eq (hok : WindowOk x pinned es w n r) (ht : linksOf t w.events ≠ []) :
    linksOf t w.events = w.links := by
  apply filter_congr
  intro e he
  cases hlink : e.isLink with
  | false => rfl
  | true =>
    have htenant := hok.only ht e.tenant (linksOf_ne_nil.mpr ⟨e, he, hlink, rfl⟩)
    simp [htenant]

/-- The window's chain is the walk of its links from the anchor. -/
theorem WindowOk.chain_eq (hok : WindowOk x pinned es w n r) (h0 : w.anchor.attestedLen ≠ 0)
    (ht : linksOf t w.events ≠ []) : w.chain = .ofLinks (w.anchor.attestedLen, w.anchor.attestedHead) w.links := by
  have hstart := hok.stream.startOf_eq (by simpa using h0) (hok.only ht)
  have honly := chainByTenant_only hok.stream.walk ht (hok.only ht)
  rw [hstart, hok.linksOf_eq ht] at honly
  rw [BundleWindow.chain, hok.report]
  exact honly

/-- Past the anchor, an attestation of the window is signed and has the running head at its position. -/
theorem WindowOk.attested (hok : WindowOk x pinned es w n r) (h0 : w.anchor.attestedLen ≠ 0)
    (ht : linksOf t w.events ≠ []) (he : e ∈ w.events) {a : Attestation} (ha : e.attestation = some a)
    (hlt : w.anchor.attestedLen < a.attestedLen) :
    SignedBy x [pinned] a ∧ w.chain.headAt a.attestedLen.toNat = some a.attestedHead := by
  have hsize : ¬1 < r.tenants.size := by
    have := hok.single
    omega
  have hauth := hok.stream.authentic (cons_ne_nil _ _)
  rw [AuthenticOk, if_neg hsize] at hauth
  have hatt := hauth.1.attests e he a ha
  have hc : r.tenants[t]? = some (.ofLinks (startOf (anchorsOf (some w.anchor)) t) (linksOf t w.events)) := by
    rw [chainByTenant_tenants hok.stream.walk, entryOf, if_neg ht]
  have hcovers := hatt.position.covers hlt
  rw [hok.stream.window_eq (by simpa using h0) ht (hok.only ht) hc] at hcovers
  have hhead := hcovers.headAt
  rw [hok.stream.startOf_eq (by simpa using h0) (hok.only ht), hok.linksOf_eq ht] at hhead
  rw [hok.chain_eq h0 ht]
  exact ⟨hatt.signed, hhead⟩

/-- The running head at the position of the decision is the checksum of its link. -/
theorem headAt_positionOf {decisionId : String}
    (hchain : w.chain = .ofLinks (w.anchor.attestedLen, w.anchor.attestedHead) w.links)
    (honly : w.links.filter (isDecisionLink decisionId) = [e]) :
    w.chain.headAt (w.positionOf decisionId) = e.checksum := by
  have hmem : e ∈ w.links.filter (isDecisionLink decisionId) := honly ▸ mem_singleton_self e
  obtain ⟨hin, hp⟩ := mem_filter.mp hmem
  have hlt : w.links.findIdx (isDecisionLink decisionId) < w.links.length := findIdx_lt_length.mpr ⟨e, hin, hp⟩
  have hat : w.links[w.links.findIdx (isDecisionLink decisionId)] = e := by
    have hfound := mem_filter.mpr ⟨getElem_mem hlt, findIdx_getElem (w := hlt)⟩
    rw [honly] at hfound
    exact mem_singleton.mp hfound
  obtain ⟨d, c, -, hc⟩ := isLink_iff.mp (mem_filter.mp hin).2
  have hsub : w.positionOf decisionId - w.anchor.attestedLen.toNat =
      w.links.findIdx (isDecisionLink decisionId) + 1 := by
    simp only [BundleWindow.positionOf]
    omega
  rw [hchain, TenantChain.headAt_ofLinks, if_pos (by simp only [BundleWindow.positionOf]; omega), hsub,
    HashChain.heads_succ, List.getElem?_eq_getElem hlt, hat]
  simp [linkHead, hc]

end Window

/-! ## Inclusion under an attestation -/

/-- Some attestation of the file is the pinned issuer's, has the running head at its position, and reaches the link of
the decision. -/
def AttestedInclusion (x : Externs) (pinned : String) (es : List Event) (w : BundleWindow) (decisionId : String) :
    Prop :=
  ∃ e ∈ es, ∃ a, e.attestation = some a ∧ SignedBy x [pinned] a ∧
    w.chain.headAt a.attestedLen.toNat = some a.attestedHead ∧ w.positionOf decisionId ≤ a.attestedLen.toNat

/-- What is known of an accepted bundle, with the events of its file and the walk of its window. -/
theorem verifyBundle_checked {r : BundleReport} (h : verifyBundle x dir pinned now = .ok r) :
    ∃ es m w e n c, readEvents x dir = .ok es ∧ BundleChecked x dir pinned r.decisionId r.tenant m w e ∧
      WindowOk x.toExterns pinned es w n c ∧ w.anchor.attestedLen ≠ 0 := by
  obtain ⟨_, m, _, _, w, e, _, _, -, hchecked, -, -, rfl⟩ := verifyBundle_ok_iff.mp h
  obtain ⟨ha, es, n, c, hes, hok⟩ := checkWindow_ok_iff.mp hchecked.window
  obtain ⟨_, -, -, hv⟩ := readAnchor_ok_iff.mp ha
  exact ⟨es, m, w, e, n, c, hes, hchecked, hok, (verifyAnchor_ok_iff.mp hv).2.2⟩

/-- The window has the events of the file. -/
theorem mem_windowEvents {es : List Event} (hes : readEvents x dir = .ok es) {w : BundleWindow} {n : Nat}
    {r : ChainReport} (hok : WindowOk x.toExterns pinned es w n r) : e ∈ w.events ↔ e ∈ es := by
  obtain ⟨-, _, -, hparse⟩ := readEvents_ok_iff.mp hes
  obtain ⟨kept, hd, hev⟩ := hok.deduped
  rw [hev]
  exact mem_stream (parseLines_hasIdentity hparse) hd

/-- **Whether the decision is under an attestation.** In an accepted bundle the decision has one link, which the
window's chain has at its position; that the issuer attested this position is so exactly if some attestation of the
file reaches it. -/
theorem inclusion_attested_iff {r : BundleReport} (h : verifyBundle x dir pinned now = .ok r) :
    ∃ es m w e, readEvents x dir = .ok es ∧ BundleChecked x dir pinned r.decisionId r.tenant m w e ∧
      w.links.filter (isDecisionLink r.decisionId) = [e] ∧
      w.chain.headAt (w.positionOf r.decisionId) = e.checksum ∧
      (AttestedInclusion x.toExterns pinned es w r.decisionId ↔
        ∃ e ∈ es, ∃ a, e.attestation = some a ∧ w.positionOf r.decisionId ≤ a.attestedLen.toNat) := by
  obtain ⟨es, m, w, e, n, c, hes, hchecked, hok, h0⟩ := verifyBundle_checked h
  have hmem : e ∈ w.events.filter (isDecisionLink r.decisionId) := hchecked.only ▸ List.mem_singleton_self e
  obtain ⟨hin, hp⟩ := List.mem_filter.mp hmem
  have hlink : e.isLink = true := (Bool.and_eq_true_iff.mp hp).1
  have ht : linksOf e.tenant w.events ≠ [] := linksOf_ne_nil.mpr ⟨e, hin, hlink, rfl⟩
  have honly : w.links.filter (isDecisionLink r.decisionId) = [e] := by
    rw [BundleWindow.links, List.filter_filter, ← hchecked.only]
    apply List.filter_congr
    intro e' _
    simp only [isDecisionLink]
    cases e'.isLink <;> simp
  refine ⟨es, m, w, e, hes, hchecked, honly, headAt_positionOf (hok.chain_eq h0 ht) honly, ?_⟩
  constructor
  · intro hx
    rcases hx with ⟨e', he', a, ha, -, -, hle⟩
    exact ⟨e', he', a, ha, hle⟩
  · intro hx
    rcases hx with ⟨e', he', a, ha, hle⟩
    -- an attestation that reaches a link of the window lies past the anchor, so the window was checked against it
    have hlt : w.anchor.attestedLen < a.attestedLen := by
      rw [UInt64.lt_iff_toNat_lt]
      simp only [BundleWindow.positionOf] at hle
      omega
    obtain ⟨hsigned, hhead⟩ := hok.attested h0 ht ((mem_windowEvents hes hok).mpr he') ha hlt
    exact ⟨e', he', a, ha, hsigned, hhead, hle⟩

/-! ## A bundle to run the verification on -/

/-- The members of a bundle without its manifest: the anchor as a whole event, and the events of the window. -/
def sampleMembers (anchor : Attestation) (es : List Event) : List (String × Bytes) :=
  [("anchor.json", utf8 (attesting 0 anchor).protobufLine),
    ("events.jsonl", utf8 (RustText.unlines (es.map protobufLine)))]

/-- What a manifest says of a file. -/
def sampleListing (b : Bytes) : Json :=
  .obj [("sha256", .str (RustText.hex ((Externs.sample []).sha256 b))),
    ("bytes", .num (.int false (UInt64.ofNat b.length).toNat))]

/-- The manifest of a bundle that discloses nothing, with the one number it states for each count of the window. -/
def sampleManifest (anchor : Attestation) (es : List Event) (decisionId tenant : String) (checksum : Bytes)
    (k : Nat) : Json :=
  .obj [("format", .str bundleFormat), ("issuer", .obj [("aid", .str sampleAid)]), ("decision_id", .str decisionId),
    ("tenant", .str tenant), ("files", .obj ((sampleMembers anchor es).map fun f => (f.1, sampleListing f.2))),
    ("inclusion", .obj [("record_checksum", .str (Base64.encodePadded Base64.standard checksum)),
      ("anchor_attested_len", .num (.int false anchor.attestedLen.toNat)),
      ("window_events", .num (.int false k)), ("window_links", .num (.int false k)),
      ("window_attestations", .num (.int false k))])]

/-- A directory with a manifest and the members it lists. -/
def BundleDir.sample (m : Json) (members : List (String × Bytes)) : BundleDir :=
  ⟨"bundle", fun name =>
    match (("manifest.json", utf8 m.text) :: members).find? fun f => f.1 == name with
    | some f => .ok f.2
    | none => .error "No such file or directory (os error 2)"⟩

/-- Readers for the events of the bundle and its manifest. -/
def Readers.bundle (as : List Attestation) (anchor : Attestation) (es : List Event) (m : Json) : Readers :=
  { Readers.sample as (attesting 0 anchor :: es) with
    jsonValue := fun b => if b = utf8 m.text then .ok m else .error "expected value" }

section Sample

variable {as : List Attestation} {anchor : Attestation} {es : List Event} {decisionId tenant : String}
  {checksum : Bytes} {k : Nat}

theorem read_sample_manifest (m : Json) (members : List (String × Bytes)) :
    (BundleDir.sample m members).read "manifest.json" = .ok (utf8 m.text) := by
  simp [BundleDir.sample]

theorem read_sample_member (m : Json) :
    ∀ f ∈ sampleMembers anchor es, (BundleDir.sample m (sampleMembers anchor es)).read f.1 = .ok f.2 := by
  simp [BundleDir.sample, sampleMembers]

variable {m : Json}

theorem hasText_sample {name text : String} (h : (name, utf8 text) ∈ sampleMembers anchor es) :
    HasText (.sample m (sampleMembers anchor es)) name text :=
  ⟨_, read_sample_member m _ h, ofUtf8?_utf8 _⟩

/-- The files of a directory are as a manifest lists them that was made from them. -/
theorem fileOk_sample {x : Externs} (hx : x.sha256 = (Externs.sample []).sha256) {dir : BundleDir}
    {members : List (String × Bytes)} (hplain : ∀ name ∈ members.map Prod.fst, isPlainName name = true)
    (hread : ∀ f ∈ members, dir.read f.1 = .ok f.2) :
    ∀ f ∈ members.map fun f => (f.1, sampleListing f.2), FileOk x dir f.1 f.2 := by
  intro f hf
  obtain ⟨g, hg, rfl⟩ := mem_map.mp hf
  refine ⟨hplain g.1 (mem_map_of_mem hg), g.2, hread g hg, ?_, Json.asU64?_toNat (UInt64.ofNat g.2.length)⟩
  rw [hx]
  rfl

theorem manifestOk_sample : let m := sampleManifest anchor es decisionId tenant checksum k
    ManifestOk (.bundle as anchor es m) (.sample m (sampleMembers anchor es)) sampleAid m := by
  intro m
  have hfiles : (m.get? "files").bind Json.asObj? =
      some ((sampleMembers anchor es).map fun f => (f.1, sampleListing f.2)) := by
    apply Json.asObj?_of_sorted
    · have hnd : ["anchor.json", "events.jsonl"].Nodup := by decide
      exact hnd
    · simp [sampleMembers]
  have hread : (Readers.bundle as anchor es m).jsonValue (utf8 m.text) = .ok m := by simp [Readers.bundle]
  refine ⟨⟨utf8 m.text, read_sample_manifest m _, hread⟩, rfl, rfl, ?_, _, hfiles, rfl, rfl, rfl,
    fileOk_sample ?_ ?_ (read_sample_member m), ?_⟩
  · intro key hkey
    cases hkey
  · rfl
  · have hplain : ∀ name ∈ ["anchor.json", "events.jsonl"], isPlainName name = true := by decide +kernel
    exact hplain
  · intro d hd
    simp only [disclosable, mem_cons, not_mem_nil, or_false] at hd
    rcases hd with rfl | rfl | rfl | rfl <;> rfl

/-- An anchor given as the line of a whole event is read back. -/
theorem readAnchor_line {x : Readers} {dir : BundleDir} (hdec : Decodes x [.attesting 0 anchor])
    (hfile : HasText dir "anchor.json" (attesting 0 anchor).protobufLine)
    (hfeed : isAnchorFeed x (attesting 0 anchor).protobufLine = false)
    (hv : verifyAnchor x.toExterns anchor [pinned] = .ok ()) : readAnchor x dir pinned = .ok anchor := by
  have htrim : RustText.trim (attesting 0 anchor).protobufLine = (attesting 0 anchor).protobufLine :=
    RustText.trim_eq_self fun c hc => (plain_of_mem_protobufLine hc).1
  have hparse := parse_protobufLine (x := x) (e := .attesting 0 anchor) (show "attestation" ≠ "" by decide)
    (hdec _ mem_cons_self)
  rw [readAnchor_ok_iff]
  refine ⟨_, hfile, ?_, hv⟩
  simp only [Attestation.parseDocument, htrim, hfeed, hparse, bind_ok, refuse_ok, demand_ok, exists_const, pure_ok]
  exact ⟨by decide, anchor, rfl, fun h => h rfl, rfl⟩

theorem readAnchor_sample (hm : m.get? "anchors" = none) (hv : verifyAnchor (.signing as) anchor [sampleAid] = .ok ()) :
    readAnchor (.bundle as anchor es m) (.sample m (sampleMembers anchor es)) sampleAid = .ok anchor := by
  refine readAnchor_line ?_ (hasText_sample (.head _)) ?_ hv
  · intro e he
    obtain rfl := mem_singleton.mp he
    exact Readers.sample_decodes as (_ :: es) _ mem_cons_self
  · simp only [isAnchorFeed, Readers.bundle]
    split
    · rename_i v hv
      split at hv
      · cases hv
        rw [hm]
        rfl
      · cases hv
    · rfl

/-- A window given as protobuf lines is read back. -/
theorem readEvents_lines {x : Readers} {dir : BundleDir} (hne : es ≠ []) (hid : ∀ e ∈ es, e.eventId ≠ "")
    (hdec : Decodes x es) (hfile : HasText dir "events.jsonl" (RustText.unlines (es.map protobufLine))) :
    readEvents x dir = .ok (es.map withIdentity) := by
  rw [readEvents_ok_iff]
  refine ⟨by simpa using hne, _, hfile, ?_⟩
  rw [eventLines_protobuf]
  exact parseLines_protobuf hid hdec

theorem readEvents_sample (hne : es ≠ []) (hid : ∀ e ∈ es, e.eventId ≠ "") :
    readEvents (.bundle as anchor es m) (.sample m (sampleMembers anchor es)) = .ok (es.map withIdentity) := by
  refine readEvents_lines hne hid ?_ (hasText_sample (.tail _ (.head _)))
  intro e he
  exact Readers.sample_decodes as (attesting 0 anchor :: es) e (mem_cons_of_mem _ he)

theorem statedChecksum_sample :
    statedChecksum (sampleManifest anchor es decisionId tenant checksum k) = some checksum :=
  Base64.decodePadded_encodePadded Base64.standard_lawful rfl checksum

theorem statedAnchorLen_sample :
    statedAnchorLen (sampleManifest anchor es decisionId tenant checksum k) = some anchor.attestedLen :=
  Json.asU64?_toNat anchor.attestedLen

/-- Such a bundle is accepted when its window is and the decision has its one link there. -/
theorem verifyBundle_sample (now : UInt64) {w : BundleWindow} {d : Decision} (hne : es ≠ [])
    (hid : ∀ e ∈ es, e.eventId ≠ "") (hv : verifyAnchor (.signing as) anchor [sampleAid] = .ok ())
    (hw : walkWindow sampleAid (.signing as) anchor (es.map withIdentity) = .ok w)
    (honly : w.events.filter (isDecisionLink decisionId) = [e]) (ht : e.tenant = tenant)
    (hsum : e.checksum = some checksum) (hd : e.decision = some d) :
    let m := sampleManifest anchor es decisionId tenant checksum k
    verifyBundle (.bundle as anchor es m) (.sample m (sampleMembers anchor es)) sampleAid now =
        .ok (bundleReport m w decisionId tenant none) ∧
      BundleChecked (.bundle as anchor es m) (.sample m (sampleMembers anchor es)) sampleAid decisionId tenant m w e := by
  intro m
  have hanchor : readAnchor (.bundle as anchor es m) (.sample m (sampleMembers anchor es)) sampleAid = .ok anchor :=
    readAnchor_sample rfl hv
  have hwindow : checkWindow (.bundle as anchor es m) (.sample m (sampleMembers anchor es)) sampleAid = .ok w := by
    simp only [checkWindow, bind_ok]
    exact ⟨anchor, hanchor, _, readEvents_sample hne hid, hw⟩
  have hlen : ∀ n, statedAnchorLen m = some n → n = w.anchor.attestedLen := by
    intro n hn
    rw [(walkWindow_ok_iff.mp hw).1]
    exact Option.some.inj (hn.symm.trans statedAnchorLen_sample)
  have hchecked : BundleChecked (.bundle as anchor es m) (.sample m (sampleMembers anchor es)) sampleAid decisionId
      tenant m w e :=
    ⟨manifestOk_sample, rfl, rfl, hwindow, hlen, honly, ht, by rw [statedChecksum_sample, hsum]⟩
  obtain ⟨key, hkey⟩ : ∃ key, aidToKey (Externs.signing as) sampleAid = .ok key := by
    obtain ⟨_, hvk⟩ := (verifyAnchor_ok_iff.mp hv).1 sampleAid mem_cons_self
    rw [verifyingKey, bind_ok] at hvk
    exact hvk.imp fun _ h => h.1
  exact ⟨verifyBundle_ok_iff.mpr ⟨key, m, decisionId, tenant, w, e, d, none, hkey, hchecked, hd, rfl, rfl⟩, hchecked⟩

end Sample

/-- A signed start at position 1, past it the link of a decision and the attestation of that link. -/
def anchorOne : Attestation := sampleAttestation "t" 1 (List.replicate 32 7)

def linkTwo : Event := .sealing "t" 2 anchorOne.attestedHead (sampleDecision "d" "t")

def attestationTwo : Attestation := sampleAttestation "t" 2 linkTwo.linkHead

def linkThree : Event := .attestingLink 3 linkTwo.linkHead attestationTwo

/-- The manifest of the two links. -/
def manifestTwo (k : Nat) : Json := sampleManifest anchorOne [linkTwo, linkThree] "d" "t" linkTwo.linkHead k

def readersTwo (k : Nat) : Readers :=
  .bundle [anchorOne, attestationTwo] anchorOne [linkTwo, linkThree] (manifestTwo k)

def dirTwo (k : Nat) : BundleDir := .sample (manifestTwo k) (sampleMembers anchorOne [linkTwo, linkThree])

theorem verifyAnchor_anchorOne : verifyAnchor (.signing [anchorOne, attestationTwo]) anchorOne [sampleAid] = .ok () := by
  obtain ⟨_, hv⟩ : ∃ u, verifyAnchor (.signing [anchorOne, attestationTwo]) anchorOne [sampleAid] = .ok u :=
    exists_ok_of_isOk (by decide +kernel)
  exact hv

/-- The bundle of the two links is accepted, whatever counts it states. -/
theorem verifyBundle_dirTwo (k : Nat) :
    ∃ r w, verifyBundle (readersTwo k) (dirTwo k) sampleAid 0 = .ok r ∧ r.decisionId = "d" ∧
      BundleChecked (readersTwo k) (dirTwo k) sampleAid "d" "t" (manifestTwo k) w linkTwo.withIdentity ∧
      w.positionOf "d" = 2 ∧ w.events = [linkTwo, linkThree].map withIdentity := by
  have hid : ∀ e ∈ [linkTwo, linkThree], e.eventId ≠ "" := by decide
  obtain ⟨w, hw, honly, hpos, hev⟩ :
      ∃ w, walkWindow sampleAid (.signing [anchorOne, attestationTwo]) anchorOne
          ([linkTwo, linkThree].map withIdentity) = .ok w ∧
        w.events.filter (isDecisionLink "d") = [linkTwo.withIdentity] ∧ w.positionOf "d" = 2 ∧
        w.events = [linkTwo, linkThree].map withIdentity :=
    exists_ok_of_any (by decide +kernel)
  obtain ⟨hr, hchecked⟩ := verifyBundle_sample 0 (k := k) (cons_ne_nil _ _) hid verifyAnchor_anchorOne hw
    honly rfl rfl rfl
  exact ⟨_, w, hr, rfl, hchecked, hpos, hev⟩

/-- With the link of another decision after them, still nothing past the first link is attested: the bundle of that
decision is accepted, and no attestation reaches it. -/
theorem inclusion_past_attestation :
    let last := sealing "t" 4 linkThree.linkHead (sampleDecision "d2" "t")
    let es := [linkTwo, linkThree, last]
    let m := sampleManifest anchorOne es "d2" "t" last.linkHead 3
    let x := Readers.bundle [anchorOne, attestationTwo] anchorOne es m
    let dir := BundleDir.sample m (sampleMembers anchorOne es)
    ∃ r es' w, verifyBundle x dir sampleAid 0 = .ok r ∧ readEvents x dir = .ok es' ∧
      checkWindow x dir sampleAid = .ok w ∧ ¬AttestedInclusion x.toExterns sampleAid es' w r.decisionId := by
  intro last es m x dir
  have hid : ∀ e ∈ es, e.eventId ≠ "" := by decide
  obtain ⟨w, hw, honly, hpos⟩ :
      ∃ w, walkWindow sampleAid (.signing [anchorOne, attestationTwo]) anchorOne (es.map withIdentity) = .ok w ∧
        w.events.filter (isDecisionLink "d2") = [last.withIdentity] ∧ w.positionOf "d2" = 4 :=
    exists_ok_of_any (by decide +kernel)
  obtain ⟨hr, hchecked⟩ := verifyBundle_sample 0 (k := 3) (List.cons_ne_nil _ _) hid verifyAnchor_anchorOne hw
    honly rfl rfl rfl
  refine ⟨_, _, w, hr, readEvents_sample (List.cons_ne_nil _ _) hid, hchecked.window, ?_⟩
  intro h
  rcases h with ⟨e, he, b, hb, -, -, hle⟩
  have hbelow : ∀ e ∈ es.map withIdentity, ∀ b ∈ e.attestation, b.attestedLen.toNat < 4 := by decide +kernel
  have hlt := hbelow e he b hb
  have hle : w.positionOf "d2" ≤ b.attestedLen.toNat := hle
  omega

/-- In the bundle of the two links the attestation reaches the decision. -/
theorem inclusion_attested_iff_two_links :
    ∃ r es w, verifyBundle (readersTwo 2) (dirTwo 2) sampleAid 0 = .ok r ∧
      readEvents (readersTwo 2) (dirTwo 2) = .ok es ∧ checkWindow (readersTwo 2) (dirTwo 2) sampleAid = .ok w ∧
      AttestedInclusion (readersTwo 2).toExterns sampleAid es w r.decisionId := by
  obtain ⟨r, w, hr, hid, hchecked, hpos, -⟩ := verifyBundle_dirTwo 2
  obtain ⟨es, _, w', _, hes, hchecked', -, -, hiff⟩ := inclusion_attested_iff hr
  obtain rfl : w = w' := Except.ok.inj (hchecked.window.symm.trans hchecked'.window)
  obtain rfl : [linkTwo, linkThree].map withIdentity = es :=
    Except.ok.inj ((readEvents_sample (List.cons_ne_nil _ _) (by decide)).symm.trans hes)
  refine ⟨r, _, w, hr, hes, hchecked.window, hiff.mpr ⟨linkThree.withIdentity, by simp, attestationTwo, rfl, ?_⟩⟩
  rw [hid, hpos]
  decide

/-! ## What the manifest says -/

/-- **The manifest on the inclusion.** In an accepted bundle the anchor's length and the checksum of the decision's
link, where the manifest states them, are those of the files. -/
theorem manifest_inclusion_agrees {r : BundleReport} (h : verifyBundle x dir pinned now = .ok r) :
    ∃ m w e, checkManifest x dir pinned = .ok m ∧ checkWindow x dir pinned = .ok w ∧
      w.events.filter (isDecisionLink r.decisionId) = [e] ∧
      (∀ n, statedAnchorLen m = some n → n = w.anchor.attestedLen) ∧
      ∀ b, statedChecksum m = some b → e.checksum = some b := by
  obtain ⟨_, m, w, e, _, _, -, hchecked, -, -⟩ := verifyBundle_checked h
  refine ⟨m, w, e, checkManifest_ok_iff.mpr hchecked.manifest, hchecked.window, hchecked.only, hchecked.anchorLen, ?_⟩
  intro b hb
  have hmem : e ∈ w.events.filter (isDecisionLink r.decisionId) := hchecked.only ▸ List.mem_singleton_self e
  have hlink : e.isLink = true := (Bool.and_eq_true_iff.mp (List.mem_filter.mp hmem).2).1
  obtain ⟨_, c, -, hc⟩ := isLink_iff.mp hlink
  have hsum := hchecked.checksum
  rw [hb, hc, Option.getD_some, Option.getD_some] at hsum
  rw [hc, hsum]

/-- A count of the window, as the manifest states it. -/
def statedCount (m : Json) (name : String) : Option UInt64 := (m.pointer ["inclusion", name]).bind Json.asU64?

/-- A manifest that states seven events, links and attestations over a window of two events, both of them links and one
an attestation, is accepted. -/
theorem manifest_counts_unread :
    ∃ r w, verifyBundle (readersTwo 7) (dirTwo 7) sampleAid 0 = .ok r ∧
      checkManifest (readersTwo 7) (dirTwo 7) sampleAid = .ok (manifestTwo 7) ∧
      checkWindow (readersTwo 7) (dirTwo 7) sampleAid = .ok w ∧
      (∀ name ∈ ["window_events", "window_links", "window_attestations"],
        statedCount (manifestTwo 7) name = some 7) ∧
      w.events.length = 2 ∧ w.links.length = 2 ∧ w.events.countP (fun e => e.attestation.isSome) = 1 := by
  obtain ⟨r, w, hr, -, hchecked, -, hev⟩ := verifyBundle_dirTwo 7
  refine ⟨r, w, hr, checkManifest_ok_iff.mpr hchecked.manifest, hchecked.window, ?_, ?_⟩
  · simp only [List.forall_mem_cons, List.not_mem_nil, false_imp_iff, implies_true, and_true]
    exact ⟨rfl, rfl, rfl⟩
  · rw [BundleWindow.links, hev]
    decide +kernel

/-- The bundle of the two links states both. -/
theorem manifest_inclusion_agrees_two_links :
    ∃ r w e, verifyBundle (readersTwo 2) (dirTwo 2) sampleAid 0 = .ok r ∧
      checkWindow (readersTwo 2) (dirTwo 2) sampleAid = .ok w ∧ e ∈ w.events ∧ isDecisionLink r.decisionId e = true ∧
      statedAnchorLen (manifestTwo 2) = some 1 ∧ w.anchor.attestedLen = 1 ∧
      statedChecksum (manifestTwo 2) = e.checksum := by
  obtain ⟨r, w, hr, hid, hchecked, -⟩ := verifyBundle_dirTwo 2
  obtain ⟨m, w', e, hm, hw', honly, hlen, hsum⟩ := manifest_inclusion_agrees hr
  obtain rfl : w = w' := Except.ok.inj (hchecked.window.symm.trans hw')
  obtain rfl : m = manifestTwo 2 := Except.ok.inj (hm.symm.trans (checkManifest_ok_iff.mpr hchecked.manifest))
  have hmem : e ∈ w.events.filter (isDecisionLink r.decisionId) := honly ▸ List.mem_singleton_self e
  refine ⟨r, w, e, hr, hw', (List.mem_filter.mp hmem).1, (List.mem_filter.mp hmem).2, statedAnchorLen_sample,
    (hlen 1 statedAnchorLen_sample).symm, ?_⟩
  rw [hsum _ statedChecksum_sample]
  exact statedChecksum_sample

end SeamSdk
