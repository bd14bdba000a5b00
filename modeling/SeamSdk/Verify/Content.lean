import SeamSdk.Verify.ByTenant
import SeamSdk.Verify.Truncation

/-!
# Authenticated prefixes agree on content

A link's digest commits to the columns of its record or the fields of its entry (`Commits`). The four layouts start
with their domain, so equal digests come from links of one kind (`Commits.kind_eq`), and each layout determines what
it is made of (`Commits.content_eq`). Along the chain this gives `authenticated_prefixes_agree`: two streams that pass
under the same pins and attest the same head at the same length hold the same content up to there.

The hash has no collision among the inputs concerned (`linkPreimages`, `digestPreimages`), and every framed field and
counted list fits its 32-bit prefix (`Fits`).
-/

namespace SeamSdk

open ByteCodec Checked

variable {x : Externs} {e f : Event} {ps qs : List Part}

/-! ## What a digest commits to -/

/-- The content of a link: what its digest commits to, and the label fixed by its action or kind. An attestation's
tenant is not part of it. -/
inductive Content
  | decision (d : Decision)
  | audit (entry : AuditEntry) (tenant nameSpace sessionId : String) (occurredAt : UInt64) (classification : String)
  | attestation (a : Attestation) (classification : String)
  | cert (c : Cert) (classification : String)
  deriving DecidableEq, Repr

def committedContent (e : Event) : Option Content :=
  if e.kind = "DECISION_SEALED" then e.decision.map .decision
  else if e.kind = "AUDIT_ENTRY" then
    e.audit.map fun a => .audit a e.tenant e.nameSpace (e.sessionId.getD "") e.occurredAt e.classification
  else if e.kind = "CHAIN_HEAD_ATTESTATION" then
    e.attestation.map fun a => .attestation { a with tenant := "" } e.classification
  else if e.kind = "ERASURE_CERTIFICATE" then e.cert.map fun c => .cert c e.classification
  else none

/-- The layout a link's digest hashes. -/
def committedParts (e : Event) : Option (List Part) :=
  if e.kind = "DECISION_SEALED" then e.decision.map fun d => recordParts d (policyRulesSlot d)
  else if e.kind = "AUDIT_ENTRY" then e.audit.bind fun a => (auditDomain a.action).map (auditEntryParts e a)
  else if e.kind = "CHAIN_HEAD_ATTESTATION" then e.attestation.map fun a => frames (chainAttestParts a)
  else if e.kind = "ERASURE_CERTIFICATE" then e.cert.map fun c => frames (erasureCertParts c)
  else none

/-- A record or an entry with the parts its digest hashes. -/
inductive Commits (e : Event) : List Part → Prop
  | record {d : Decision} (kind : e.kind = "DECISION_SEALED") (payload : e.decision = some d) :
    Commits e (recordParts d (policyRulesSlot d))
  | entry {ps : List Part} (h : Recomputes e ps) : Commits e ps

/-- Every framed field, and every counted list, fits its 32-bit prefix. -/
def Fits (e : Event) : Prop :=
  (∀ ps ∈ committedParts e, ∀ p ∈ ps, p.Short) ∧ ∀ c ∈ e.cert, c.erased.length < 2 ^ 32 ∧ c.held.length < 2 ^ 32

instance (e : Event) : Decidable (Fits e) :=
  inferInstanceAs (Decidable ((∀ ps ∈ committedParts e, ∀ p ∈ ps, p.Short) ∧
    ∀ c ∈ e.cert, c.erased.length < 2 ^ 32 ∧ c.held.length < 2 ^ 32))

/-- The hash inputs of the digests of a list of links. -/
def digestPreimages (ls : List Event) : List Bytes := ls.filterMap fun e => (committedParts e).map layout

theorem Commits.parts_eq (h : Commits e ps) : committedParts e = some ps := by
  rcases h with ⟨hk, hp⟩ | ⟨⟨hk, hp, hdom, -⟩ | ⟨hk, hp, -⟩ | ⟨hk, hp, -⟩⟩
  · simp [committedParts, hk, hp]
  · simp [committedParts, hk, hp, hdom]
  · simp [committedParts, hk, hp]
  · simp [committedParts, hk, hp]

theorem Commits.mem_digestPreimages (h : Commits e ps) {ls : List Event} (he : e ∈ ls) :
    layout ps ∈ digestPreimages ls :=
  List.mem_filterMap.mpr ⟨e, he, by rw [h.parts_eq]; rfl⟩

/-! ## One domain, one kind -/

/-- The kind a domain belongs to. -/
def domainKind (domain : String) : String :=
  if domain = "seam.audit.record-digest.v4" then "DECISION_SEALED"
  else if domain = "seam.audit.chain-attest-entry.v1" then "CHAIN_HEAD_ATTESTATION"
  else if domain = "seam.audit.erasure-cert.v2" then "ERASURE_CERTIFICATE"
  else "AUDIT_ENTRY"

theorem auditDomain_mem {action domain : String} (h : auditDomain action = some domain) :
    domain ∈ managementDomain :: domains.map Prod.fst := by
  unfold auditDomain at h
  split_ifs at h
  · rw [← Option.some.inj h]
    exact List.mem_cons_self
  · obtain ⟨p, hp, rfl⟩ := Option.map_eq_some_iff.mp h
    exact List.mem_cons_of_mem _ (List.mem_map_of_mem (List.mem_of_find?_eq_some hp))

/-- No audit domain is the domain of another layout. -/
theorem domainKind_auditDomain {action domain : String} (h : auditDomain action = some domain) :
    domainKind domain = "AUDIT_ENTRY" := by
  have hall : ∀ d ∈ managementDomain :: domains.map Prod.fst, domainKind d = "AUDIT_ENTRY" := by decide
  exact hall domain (auditDomain_mem h)

theorem Commits.domain (h : Commits e ps) :
    ∃ domain rest, ps = .frame (utf8 domain) :: rest ∧ e.kind = domainKind domain := by
  rcases h with ⟨hk, hp⟩ | ⟨⟨hk, hp, hdom, -⟩ | ⟨hk, hp, -⟩ | ⟨hk, hp, -⟩⟩
  · exact ⟨_, _, rfl, hk.trans (by decide)⟩
  · exact ⟨_, _, rfl, hk.trans (domainKind_auditDomain hdom).symm⟩
  · exact ⟨_, _, rfl, hk.trans (by decide)⟩
  · exact ⟨_, _, rfl, hk.trans (by decide)⟩

/-- Digests of different kinds never hash the same bytes. -/
theorem Commits.kind_eq (he : Commits e ps) (hf : Commits f qs) (hps : ∀ p ∈ ps, p.Short) (hqs : ∀ q ∈ qs, q.Short)
    (h : layout ps = layout qs) : e.kind = f.kind := by
  obtain ⟨dom, rest, rfl, hk⟩ := he.domain
  obtain ⟨dom', rest', rfl, hk'⟩ := hf.domain
  rw [List.forall_mem_cons] at hps hqs
  obtain ⟨hdom, -⟩ := frame_split hps.1 hqs.1 h
  rw [hk, hk', utf8_inj.mp hdom]

theorem Commits.exists_content (h : Commits e ps) : ∃ c, committedContent e = some c := by
  rcases h with ⟨hk, hp⟩ | ⟨⟨hk, hp, -, -⟩ | ⟨hk, hp, -⟩ | ⟨hk, hp, -⟩⟩ <;> simp [committedContent, hk, hp]

/-- Links whose digests hash the same bytes have the same content. -/
theorem Commits.content_eq (he : Commits e ps) (hf : Commits f qs) (hfe : Fits e) (hff : Fits f)
    (h : layout ps = layout qs) : committedContent e = committedContent f := by
  have hps := hfe.1 ps he.parts_eq
  have hqs := hff.1 qs hf.parts_eq
  have hkind := he.kind_eq hf hps hqs h
  -- equal kinds leave the four diagonal cases
  rcases he with ⟨hk, hp⟩ | ⟨⟨hk, hp, -, hl⟩ | ⟨hk, hp, hl⟩ | ⟨hk, hp, hl⟩⟩ <;>
    rcases hf with ⟨hk', hp'⟩ | ⟨⟨hk', hp', -, hl'⟩ | ⟨hk', hp', hl'⟩ | ⟨hk', hp', hl'⟩⟩ <;>
    simp only [hk, hk', String.reduceEq] at hkind
  · obtain rfl := recordPreimage_inj hps hqs h
    simp [committedContent, hk, hp, hk', hp']
  · obtain ⟨-, rfl, ht, hn, hs, ho⟩ := auditEntryParts_inj hps hqs h
    simp [committedContent, hk, hp, hk', hp', ht, hn, hs, ho, hl, hl']
  · have ha := chainAttestParts_inj hps hqs h
    simpa [committedContent, hk, hp, hk', hp', hl, hl'] using ha
  · obtain ⟨hce, hch⟩ := hfe.2 _ hp
    obtain ⟨hde, hdh⟩ := hff.2 _ hp'
    obtain rfl := erasureCertParts_inj hps hqs hce hde hch hdh h
    simp [committedContent, hk, hp, hk', hp', hl, hl']

/-! ## Links of an authenticated window -/

/-- The digest of a link that passed the first pass, and is not uncovered, is the hash of its own parts. -/
theorem RecordOk.commits (h : RecordOk x e) (hb : KindBound e) (hl : e.isLink = true)
    (hu : isUncovered x e = false) : ∃ ps, Commits e ps ∧ e.linkDigest = x.sha256 (layout ps) := by
  obtain ⟨wire, -, hw, -⟩ := Event.isLink_iff.mp hl
  have hdig : e.linkDigest = wire := by rw [Event.linkDigest, hw]; rfl
  cases hd : e.decision with
  | some d =>
    have hk := hb.decision_iff.mp (by rw [hd]; rfl)
    obtain ⟨-, hsha⟩ := recordDigestV4_ok_iff.mp ((h.decision d hd).2.2 wire hw)
    exact ⟨_, .record hk hd, hdig.trans hsha.symm⟩
  | none =>
    have hrec : recompute x e = .recomputed := by
      cases hr : recompute x e with
      | recomputed => rfl
      | rewritten what => exact absurd hr (h.entry hl hd what)
      | uncovered => simp [isUncovered, hl, hd, hr] at hu
    obtain ⟨ps, hps, hsha⟩ := recompute_recomputed_iff.mp hrec
    exact ⟨ps, .entry hps, by rw [Event.linkDigest, hsha]; rfl⟩

/-- Without collisions, such links with equal digests agree on kind and content. -/
theorem Commits.agree (he : Commits e ps) (hf : Commits f qs) (hfe : Fits e) (hff : Fits f) {ls : List Event}
    (hinj : x.CollisionFree (digestPreimages ls)) (hel : e ∈ ls) (hfl : f ∈ ls)
    (h : x.sha256 (layout ps) = x.sha256 (layout qs)) :
    e.kind = f.kind ∧ ∃ c, committedContent e = some c ∧ committedContent f = some c := by
  have hlay := hinj _ (he.mem_digestPreimages hel) _ (hf.mem_digestPreimages hfl) h
  obtain ⟨c, hc⟩ := he.exists_content
  exact ⟨he.kind_eq hf (hfe.1 ps he.parts_eq) (hff.1 qs hf.parts_eq) hlay, c, hc,
    (he.content_eq hf hfe hff hlay) ▸ hc⟩

/-! ## Two streams with one attested head -/

/-- An attestation that the check counts as covering for a reported tenant: past the start of its window, in one of
its events. -/
def IsCovering (r : ChainReport) (t : String) (es : List Event) (a : Attestation) : Prop :=
  ∃ c, r.tenants[t]? = some c ∧ c.baseLen < a.attestedLen ∧ ∃ e ∈ es, e.tenant = t ∧ e.attestation = some a

variable {anchors anchors' : TenantMap (UInt64 × Bytes)} {pinnedAids : List String} {t : String} {es fs : List Event}
  {r r' : ChainReport} {out out' : TenantMap IssuerReport} {a b : Attestation}

/-- In an authenticated stream, a covering attestation names the running head at its position. -/
theorem IsCovering.head (hes : chainByTenant x es anchors = .ok r)
    (hae : verifyAuthenticityByTenant x es pinnedAids r = .ok out) (ha : IsCovering r t es a) :
    (HashChain.heads Event.linkHead (startOf anchors t).2
      (linksOf t es))[a.attestedLen.toNat - (startOf anchors t).1.toNat]? = some a.attestedHead := by
  obtain ⟨c, hc, hlt, e, he, het, hea⟩ := ha
  have hok := (verifyAuthenticityByTenant_eq_ok_iff.mp hae).1 t c hc
  obtain ⟨-, rfl⟩ := chainByTenant_entry hes hc
  have hpos := (hok.attests e (mem_eventsOf.mpr ⟨he, het⟩) a hea).position
  obtain ⟨-, hhead, -⟩ := hpos.covers hlt
  rw [TenantChain.ofLinks_baseLen] at hlt
  rw [← UInt64.toNat_sub_of_le _ _ (UInt64.le_of_lt hlt)]
  exact hhead

/-- The links of an authenticated tenant commit to their own parts. -/
theorem commits_of_authentic (hes : chainByTenant x es anchors = .ok r)
    (hae : verifyAuthenticityByTenant x es pinnedAids r = .ok out) {g : Event} (hg : g ∈ linksOf t es) :
    ∃ ps, Commits g ps ∧ g.linkDigest = x.sha256 (layout ps) := by
  obtain ⟨hmem, hl, ht⟩ := mem_linksOf.mp hg
  obtain ⟨c, hc⟩ : ∃ c, r.tenants[t]? = some c :=
    ⟨_, (chainByTenant_tenants hes t).trans (if_neg (List.ne_nil_of_mem hg))⟩
  obtain ⟨hok, hunc, -⟩ := verifyAuthenticityByTenant_eq_ok_iff.mp hae
  have hgt := mem_eventsOf.mpr ⟨hmem, ht⟩
  have hu : isUncovered x g = false := (hunc.resolve_left (by decide)) t c hc g hgt
  exact ((hok t c hc).records g hgt).commits ((chainByTenant_eq_ok_iff.mp hes).1.bound g hmem) hl hu

/-- **Authenticated prefixes agree on content.** Two streams are walked with `t` from the same start and pass under
the same pins, uncovered entries refused. If covering attestations of `t` in them have the same length and head, the
links of `t` agree up to that length on digest, kind and content. -/
theorem authenticated_prefixes_agree (hes : chainByTenant x es anchors = .ok r)
    (hfs : chainByTenant x fs anchors' = .ok r')
    (hstart : startOf anchors t = startOf anchors' t) (hlen : (startOf anchors t).2.length = 32)
    (hae : verifyAuthenticityByTenant x es pinnedAids r = .ok out)
    (haf : verifyAuthenticityByTenant x fs pinnedAids r' = .ok out')
    (ha : IsCovering r t es a) (hb : IsCovering r' t fs b)
    (hat : a.attestedLen = b.attestedLen) (hhead : a.attestedHead = b.attestedHead)
    (hinj : x.CollisionFree (linkPreimages (linksOf t es ++ linksOf t fs) ++
      digestPreimages (linksOf t es ++ linksOf t fs)))
    (hfits : ∀ g ∈ linksOf t es ++ linksOf t fs, Fits g) :
    ∀ k, 1 ≤ k → k ≤ a.attestedLen.toNat - (startOf anchors t).1.toNat →
      ∃ g h, (linksOf t es)[k - 1]? = some g ∧ (linksOf t fs)[k - 1]? = some h ∧ g.linkDigest = h.linkDigest ∧
        g.kind = h.kind ∧ ∃ content, committedContent g = some content ∧ committedContent h = some content := by
  have hga := ha.head hes hae
  have hgb := hb.head hfs haf
  have hl := (chainByTenant_eq_ok_iff.mp hes).1.chained t
  have hm := (chainByTenant_eq_ok_iff.mp hfs).1.chained t
  rw [← hstart] at hm hgb
  rw [← hat, ← hhead] at hgb
  intro k hk hkP
  refine HashChain.agree_below hl.linked hm.linked (fun g hg h hh hnext => ?_) hga hgb (k - 1) (by omega)
  obtain ⟨hprev, hdig⟩ := hl.eq_of_linkHead_eq hlen hlen hm (hinj.mono (List.subset_append_left ..)) hg hh hnext
  obtain ⟨ps, hps, hgd⟩ := commits_of_authentic hes hae hg
  obtain ⟨qs, hqs, hhd⟩ := commits_of_authentic hfs haf hh
  have hg' := List.mem_append_left (linksOf t fs) hg
  have hh' := List.mem_append_right (linksOf t es) hh
  exact ⟨hprev, hdig, hps.agree hqs (hfits g hg') (hfits h hh') (hinj.mono (List.subset_append_right ..)) hg' hh'
    (hgd.symm.trans (hdig.trans hhd))⟩

/-- Two streams of two entries and their attestation, with different event ids. -/
theorem authenticated_prefixes_agree_two_entries :
    let first := Event.holdPlaced "t" 1 genesis
    let second := Event.holdPlaced "t" 2 first.linkHead
    let a := sampleAttestation "t" 2 second.linkHead
    let x := Externs.signing [a]
    let es := [first, second, .attesting 3 a]
    let fs := [{ first with eventId := "other" }, { second with eventId := "another" }, .attesting 3 a]
    (∃ r out, chainByTenant x es ∅ = .ok r ∧ verifyAuthenticityByTenant x es [sampleAid] r = .ok out) ∧
      ∀ k, 1 ≤ k → k ≤ 2 → ∃ g h, (linksOf "t" es)[k - 1]? = some g ∧ (linksOf "t" fs)[k - 1]? = some h ∧
        g.linkDigest = h.linkDigest ∧ g.kind = h.kind ∧
        ∃ content, committedContent g = some content ∧ committedContent h = some content := by
  intro first second a x es fs
  obtain ⟨out, hout⟩ := exists_ok_of_isOk
    (show (chainByTenant x es ∅ >>= verifyAuthenticityByTenant x es [sampleAid]).isOk = true by decide +kernel)
  obtain ⟨out', hout'⟩ := exists_ok_of_isOk
    (show (chainByTenant x fs ∅ >>= verifyAuthenticityByTenant x fs [sampleAid]).isOk = true by decide +kernel)
  obtain ⟨r, hr, hout⟩ := bind_ok.mp hout
  obtain ⟨r', hr', hout'⟩ := bind_ok.mp hout'
  refine ⟨⟨r, out, hr, hout⟩, ?_⟩
  refine authenticated_prefixes_agree (t := "t") (a := a) (b := a) hr hr' (by decide +kernel) (by decide +kernel)
    hout hout' ⟨_, chainByTenant_tenants hr "t", ?_, .attesting 3 a, by simp [es], rfl, rfl⟩
    ⟨_, chainByTenant_tenants hr' "t", ?_, .attesting 3 a, by simp [fs], rfl, rfl⟩ rfl rfl
    (by decide +kernel) (by decide +kernel)
  · decide +kernel
  · decide +kernel

end SeamSdk
