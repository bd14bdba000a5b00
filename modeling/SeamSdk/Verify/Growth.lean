import SeamSdk.Verify.Accounting
import SeamSdk.Verify.AuthSpec

/-!
# A window that grows

New links at the end of an authenticated stream leave its authenticity as it was: an attestation looks up the running
head and the running schema maximum at its own position, and both lists only grow at the end.

- `Window.Grows`, `Window.Holds.grow`: lookups in a longer window;
- `chainByTenant_append`: the walk over the longer stream, and its lists;
- `authOk_append`, `coverage_append`: the check over it, and what it counts;
- `authenticity_grows` puts them together.
-/

namespace SeamSdk

open ByteCodec Checked TenantChain List

variable {x : Externs} {pinnedAids : List String} {es fs : List Event} {r : ChainReport} {anchorTenant t : String}
  {baseLen : UInt64} {baseHead : Bytes}

/-! ## Longer windows -/

/-- A window from the same start whose lists go on. -/
structure Window.Grows (w w' : Window) : Prop where
  heads : w.heads <+: w'.heads
  maxSchemaByLink : w.maxSchemaByLink <+: w'.maxSchemaByLink
  baseLen : w'.baseLen = w.baseLen
  baseHead : w'.baseHead = w.baseHead

theorem getElem?_of_isPrefix {α : Type} {l l' : List α} (h : l <+: l') {k : Nat} {a : α} (hk : l[k]? = some a) :
    l'[k]? = some a := by
  obtain ⟨hlt, rfl⟩ := List.getElem?_eq_some_iff.mp hk
  exact prefix_iff_getElem?.mp h k hlt

variable {head : Bytes} {w w' : Window}

theorem Window.Holds.grow (hw : w.Grows w') {a : Attestation} (h : w.Holds a) : w'.Holds a := by
  rw [Window.Holds, Window.Covers, hw.baseLen, hw.baseHead]
  rcases h with h | h | ⟨hlt, hhead, m, hm, hle⟩
  · exact .inl h
  · exact .inr (.inl h)
  · exact .inr (.inr ⟨hlt, getElem?_of_isPrefix hw.heads hhead, m, getElem?_of_isPrefix hw.maxSchemaByLink hm, hle⟩)

/-! ## The new links -/

/-- A link that recomputes: a decision with all its mandatory columns to its record digest, any other entry to the
digest of its own fields under its classification. -/
structure Matches (x : Externs) (e : Event) : Prop where
  decision : ∀ d, e.decision = some d → d.schemaVersion = 4 ∧ d.ciphertextDigest ≠ [] ∧ V4Complete d ∧
    e.digest = some (x.sha256 (recordPreimage d))
  entry : e.decision = none → ∃ ps, Recomputes e ps ∧ e.digest = some (x.sha256 (layout ps))

/-- Links of a tenant that continue a head, without an attestation among them. -/
structure Continues (x : Externs) (t : String) (head : Bytes) (fs : List Event) : Prop where
  link : ∀ e ∈ fs, e.isLink = true ∧ e.tenant = t
  chained : Chained x head fs
  bound : ∀ e ∈ fs, KindBound e
  unattested : ∀ e ∈ fs, e.attestation = none
  recompute : ∀ e ∈ fs, Matches x e

theorem Matches.recordOk {e : Event} (h : Matches x e) : RecordOk x e where
  entry _ hd what hr := by
    rw [recompute_recomputed_iff.mpr (h.entry hd)] at hr
    cases hr
  decision d hd := by
    obtain ⟨hv, hc, hcomplete, hdigest⟩ := h.decision d hd
    refine ⟨hv, hc, fun wire hw => recordDigestV4_ok_iff.mpr ⟨hcomplete, ?_⟩⟩
    exact Option.some.inj (hdigest.symm.trans hw)

theorem Matches.not_uncovered {e : Event} (h : Matches x e) : isUncovered x e = false := by
  cases hd : e.decision with
  | some d => simp [isUncovered, hd]
  | none => simp [isUncovered, recompute_recomputed_iff.mpr (h.entry hd)]

theorem Continues.linksOf_self (h : Continues x t head fs) : linksOf t fs = fs := by
  rw [linksOf, filter_eq_self]
  intro e he
  simp [h.link e he]

theorem Continues.linksOf_other (h : Continues x t head fs) {t' : String} (hne : t' ≠ t) : linksOf t' fs = [] :=
  linksOf_eq_nil fun e he heq => hne (heq.symm.trans (h.link e he).2)

/-! ## The walk -/

/-- The walk goes on over links that continue its head, and its lists with it. -/
theorem chainByTenant_append {anchors : TenantMap (UInt64 × Bytes)} (h : chainByTenant x es anchors = .ok r)
    (hsingle : ∀ e ∈ es, e.tenant = t) (hne : linksOf t es ≠ []) (hfs : Continues x t r.head fs) :
    ∃ r', chainByTenant x (es ++ fs) anchors = .ok r' ∧ r.heads <+: r'.heads ∧
      r.maxSchemaByLink <+: r'.maxSchemaByLink := by
  have hok := chainByTenant_ok_iff.mp ⟨r, h⟩
  have hchain := only_of_single h hsingle hne
  have hlinks : linksOf t (es ++ fs) = linksOf t es ++ fs := by rw [linksOf_append, hfs.linksOf_self]
  have hok' : ChainOk x anchors (es ++ fs) := by
    refine ⟨fun e he => ?_, fun t' => ?_⟩
    · exact (mem_append.mp he).elim (hok.bound e) (hfs.bound e)
    · by_cases ht : t' = t
      · rw [ht, hlinks, Chained.append]
        refine ⟨hok.chained t, ?_⟩
        have hhead : r.head = _ := congrArg head hchain
        rw [← show r.head = HashChain.lastHead Event.linkHead (startOf anchors t).2 (linksOf t es) from hhead]
        exact hfs.chained
      · rw [linksOf_append, hfs.linksOf_other ht, append_nil]
        exact hok.chained t'
  obtain ⟨r', hr'⟩ := chainByTenant_ok_iff.mpr hok'
  have hsingle' : ∀ e ∈ es ++ fs, e.tenant = t :=
    fun e he => (mem_append.mp he).elim (hsingle e) fun he => (hfs.link e he).2
  have hchain' := only_of_single hr' hsingle' (by simp [hlinks, hne])
  rw [hlinks] at hchain'
  refine ⟨r', hr', ?_, ?_⟩
  · have hheads : r.heads = _ := congrArg heads hchain
    have hheads' : r'.heads = _ := congrArg heads hchain'
    rw [hheads, hheads', ofLinks_heads, ofLinks_heads, HashChain.heads, HashChain.heads,
      map_append, ← cons_append]
    exact prefix_append _ _
  · have hschemas : r.maxSchemaByLink = _ := congrArg maxSchemaByLink hchain
    have hschemas' : r'.maxSchemaByLink = _ := congrArg maxSchemaByLink hchain'
    rw [hschemas, hschemas', ofLinks, ofLinks, scanl_append]
    exact prefix_append _ _

/-! ## The check -/

theorem authOk_append (hw : w.Grows w') (h : AuthOk x pinnedAids w es) (hfs : Continues x t head fs) :
    AuthOk x pinnedAids w' (es ++ fs) where
  pins := h.pins
  records e he := (mem_append.mp he).elim (h.records e) fun he => (hfs.recompute e he).recordOk
  attests e he a ha := by
    rcases mem_append.mp he with he | he
    · obtain ⟨htenant, hsigned, h0, hpos⟩ := h.attests e he a ha
      exact ⟨htenant, hsigned, h0, hpos.grow hw⟩
    · rw [hfs.unattested e he] at ha
      cases ha
  covered := by
    obtain ⟨e, he, a, ha, hlt⟩ := h.covered
    exact ⟨e, mem_append_left _ he, a, ha, by rwa [hw.baseLen]⟩

theorem coverage_append (es : List Event) (hw : w.Grows w') (hfs : Continues x t head fs) (s : Coverage) :
    (es ++ fs).foldl (Coverage.add w') s = es.foldl (Coverage.add w) s := by
  have hadd : Coverage.add w' = Coverage.add w := by
    funext s e
    simp only [Coverage.add, hw.baseLen]
  have hsame : ∀ s, fs.foldl (Coverage.add w) s = s := by
    intro s
    have hunattested := hfs.unattested
    clear hfs
    induction fs with
    | nil => rfl
    | cons e fs ih =>
      obtain ⟨he, hfs⟩ := forall_mem_cons.mp hunattested
      rw [foldl_cons, Coverage.add, he]
      exact ih hfs
  rw [hadd, foldl_append, hsame]

/-- The new links are counted, each as a record or as an entry. -/
theorem recount_append (hfs : Continues x t head fs) (s : Recount) :
    (fs.foldl (Recount.add x) s).records + (fs.foldl (Recount.add x) s).entries =
      s.records + s.entries + fs.length := by
  have hrun : fs.foldlM (recordStep x) s = .ok (fs.foldl (Recount.add x) s) :=
    foldlM_recordStep_ok_iff.mpr ⟨fun e he => (hfs.recompute e he).recordOk, rfl⟩
  have hstrict : ∀ e ∈ fs, StrictEvent e := fun e he => ⟨hfs.bound e he, .inl (hfs.link e he).1⟩
  have hall : fs.filter Event.isLink = fs := filter_eq_self.mpr fun e he => (hfs.link e he).1
  have hnone : fs.filter (isUncovered x) = [] :=
    filter_eq_nil_iff.mpr fun e he => by simp [(hfs.recompute e he).not_uncovered]
  have htotal := (recount_total hstrict hrun).1
  have hunc : (fs.foldl (Recount.add x) s).uncovered = s.uncovered := by
    rw [foldl_recount, hnone]
    simp
  rw [hall, Recount.total, Recount.total, hunc] at htotal
  omega

/-- A window that authenticates has a link: no attestation covers the sentinel. -/
theorem linksOf_ne_nil_of_authOk {anchors : TenantMap (UInt64 × Bytes)} (h : chainByTenant x es anchors = .ok r)
    (hsingle : ∀ e ∈ es, e.tenant = t) (hok : AuthOk x pinnedAids ⟨r.heads, r.maxSchemaByLink, baseLen, baseHead⟩ es) :
    linksOf t es ≠ [] := by
  intro hnil
  have hnone : ∀ t', linksOf t' es = [] := by
    intro t'
    rw [linksOf, filter_eq_nil_iff] at hnil ⊢
    intro e he hl
    exact hnil e he (by simp_all)
  have hheads : r.heads = [genesis] := congrArg heads (chainByTenant_only_of_nil h hnone)
  obtain ⟨e, he, a, ha, hlt⟩ := hok.covered
  obtain ⟨hpast, hhead, -⟩ := (hok.attests e he a ha).position.covers hlt
  rw [hheads] at hhead
  have hpos : 0 < (a.attestedLen - baseLen).toNat := by
    rw [UInt64.toNat_sub_of_le _ _ (UInt64.le_of_lt hpast)]
    exact Nat.sub_pos_of_lt (UInt64.lt_iff_toNat_lt.mp hpast)
  have hzero := (List.getElem?_eq_some_iff.mp hhead).1
  simp only [length_singleton] at hzero
  omega

/-- **Authenticity is stable under growth.** A stream that authenticates from a start still does when links that
continue its head and recompute are appended; what its attestations count stays, and every new link is counted as a
record or as an entry. -/
theorem authenticity_grows (hsingle : ∀ e ∈ es, e.tenant = t)
    (h : chainAnchored x es anchorTenant baseLen baseHead = .ok r) {ir : IssuerReport}
    (hir : verifyAuthenticityAnchored x es r.heads r.maxSchemaByLink pinnedAids baseLen baseHead = .ok ir)
    (hfs : Continues x t r.head fs) :
    ∃ r' ir', chainAnchored x (es ++ fs) anchorTenant baseLen baseHead = .ok r' ∧
      verifyAuthenticityAnchored x (es ++ fs) r'.heads r'.maxSchemaByLink pinnedAids baseLen baseHead = .ok ir' ∧
      ir'.attestations = ir.attestations ∧ ir'.covering = ir.covering ∧ ir'.belowWindow = ir.belowWindow ∧
      ir'.coveredPrefix = ir.coveredPrefix ∧
      ir'.recordsRecomputed + ir'.entriesRecomputed = ir.recordsRecomputed + ir.entriesRecomputed + fs.length := by
  let w : Window := ⟨r.heads, r.maxSchemaByLink, baseLen, baseHead⟩
  obtain ⟨hok, hunc, rfl⟩ := (verifyAuthenticity_eq_ok_iff (w := w)).mp hir
  have hunc : ∀ e ∈ es, isUncovered x e = false := hunc.resolve_left (by simp [AuthOptions.default])
  obtain ⟨r', hr', hheads, hschemas⟩ := chainByTenant_append h hsingle (linksOf_ne_nil_of_authOk h hsingle hok) hfs
  let w' : Window := ⟨r'.heads, r'.maxSchemaByLink, baseLen, baseHead⟩
  have hw : w.Grows w' := ⟨hheads, hschemas, rfl, rfl⟩
  have hunc' : ∀ e ∈ es ++ fs, isUncovered x e = false := fun e he =>
    (List.mem_append.mp he).elim (hunc e) fun he => (hfs.recompute e he).not_uncovered
  have hcov := coverage_append es hw hfs ⟨0, 0, 0, 0⟩
  have hrec := recount_append hfs (es.foldl (Recount.add x) ⟨0, 0, []⟩)
  rw [← List.foldl_append] at hrec
  refine ⟨r', issuerReport x w' (es ++ fs), hr', ?_, ?_, ?_, ?_, ?_, hrec⟩
  · exact (verifyAuthenticity_eq_ok_iff (w := w')).mpr ⟨authOk_append hw hok hfs, .inr hunc', rfl⟩
  · exact congrArg Coverage.attestations hcov
  · exact congrArg Coverage.covering hcov
  · exact congrArg Coverage.belowWindow hcov
  · exact congrArg Coverage.coveredPrefix hcov

/-- A second decision after the first and its attestation. -/
theorem authenticity_grows_one_link :
    let link := Event.sealing "a" 1 genesis (sampleDecision "d1" "a")
    let a := sampleAttestation "a" 1 link.linkHead
    let next := Event.sealing "a" 2 link.linkHead (sampleDecision "d2" "a")
    ∃ r ir, chainAnchored (.signing [a]) [link, .attesting 2 a, next] "a" 0 genesis = .ok r ∧
      verifyAuthenticityAnchored (.signing [a]) [link, .attesting 2 a, next] r.heads r.maxSchemaByLink [sampleAid] 0
        genesis = .ok ir ∧ ir.covering = 1 := by
  intro link a next
  obtain ⟨r, hr, hhead, hauth⟩ : ∃ r, chainAnchored (.signing [a]) [link, .attesting 2 a] "a" 0 genesis = .ok r ∧
      r.head = link.linkHead ∧
      ((verifyAuthenticityAnchored (.signing [a]) [link, .attesting 2 a] r.heads r.maxSchemaByLink [sampleAid] 0
        genesis).toOption.any fun ir => decide (ir.covering = 1)) = true :=
    exists_ok_of_any (by decide +kernel)
  obtain ⟨ir, hir, hcovering⟩ := exists_ok_of_any hauth
  have hbound : ∃ u, checkKindPayload next = .ok u := exists_ok_of_isOk (by decide +kernel)
  have hnext : Continues (.signing [a]) "a" r.head [next] := by
    rw [hhead]
    refine ⟨by decide +kernel, Chained.singleton.mpr ⟨rfl, by decide +kernel⟩, ?_, by decide +kernel, ?_⟩
    · intro e he
      rw [List.mem_singleton.mp he]
      exact checkKindPayload_ok_iff.mp hbound.choose_spec
    · intro e he
      rw [List.mem_singleton.mp he]
      refine ⟨fun d hd => ?_, fun hd => by cases hd⟩
      obtain rfl : sampleDecision "d2" "a" = d := Option.some.inj hd
      exact ⟨rfl, by decide, ⟨rfl, rfl, .inl rfl, by decide, rfl, by decide, by decide⟩, by decide +kernel⟩
  obtain ⟨r', ir', hr', hir', -, hcov, -⟩ := authenticity_grows (by decide +kernel) hr hir hnext
  exact ⟨r', ir', hr', hir', hcov.trans hcovering⟩

end SeamSdk
