import SeamSdk.Verify.Authenticity
import SeamSdk.Verify.WalkReport

/-!
# What authenticity means for a window

The check compares attestations with two lists of the walk's report, indexed from the start of the window. Over a window
that has passed the walk these lists can be read off the links themselves, and the check decides a condition that names
no list and no index (`Authentic`).

- `report_heads`, `report_schemas`: the lists of a single-tenant report;
- `holds_iff`: the position of an attestation against the links;
- `recordOk_iff`: the first pass, for events whose payload is their kind's;
- `isGreatest_coveredPrefix`: the covered prefix is the largest attested length;
- `verifyAuthenticityAnchored_iff_authentic` puts them together.
-/

namespace SeamSdk

open ByteCodec Checked

variable {x : Externs} {pinnedAids : List String} {es : List Event} {r : ChainReport} {anchorTenant t : String}
  {baseLen : UInt64} {baseHead : Bytes}

/-! ## The lists of the report -/

/-- The head a window starts at. From position zero that is genesis, whatever head is given. -/
def windowStart (baseLen : UInt64) (baseHead : Bytes) : Bytes := if baseLen = 0 then genesis else baseHead

/-- The links of a window are those of the tenant its start belongs to. -/
structure SingleTenant (anchorTenant : String) (baseLen : UInt64) (t : String) (es : List Event) : Prop where
  links : ∀ e ∈ es, e.isLink = true → e.tenant = t
  anchored : baseLen ≠ 0 → anchorTenant = t

theorem SingleTenant.only (hs : SingleTenant anchorTenant baseLen t es) {t' : String} (h : linksOf t' es ≠ []) :
    t' = t := by
  obtain ⟨e, he⟩ := List.exists_mem_of_ne_nil _ h
  obtain ⟨hmem, hl, rfl⟩ := mem_linksOf.mp he
  exact hs.links e hmem hl

/-- Without a link the top-level chain of a report is the sentinel, which starts at genesis. -/
theorem chainByTenant_only_of_nil {anchors : TenantMap (UInt64 × Bytes)} (h : chainByTenant x es anchors = .ok r)
    (hnone : ∀ t, linksOf t es = []) : r.only = .start (0, genesis) := by
  obtain ⟨-, w, hw, rfl⟩ := chainByTenant_eq_ok_iff.mp h
  have hempty : w.tenants.toList = [] := by
    rw [List.eq_nil_iff_forall_not_mem]
    rintro ⟨t, c⟩ hp
    rw [Std.ExtTreeMap.mem_toList_iff_getElem?_eq_some, hw.tenants, entryOf, if_pos (hnone t)] at hp
    cases hp
  simp only [ChainReport.only, Walk.report, singleTenant, hempty]

section Walked

variable (h : chainAnchored x es anchorTenant baseLen baseHead = .ok r) (hs : SingleTenant anchorTenant baseLen t es)

include h hs

/-- The top-level chain of a single-tenant report. -/
theorem chainAnchored_only :
    r.only = .ofLinks (if linksOf t es = [] then (0, genesis) else (baseLen, windowStart baseLen baseHead))
      (linksOf t es) := by
  by_cases hnil : linksOf t es = []
  · have hnone : ∀ t', linksOf t' es = [] := by
      intro t'
      by_contra hne
      exact hne (hs.only hne ▸ hnil)
    rw [if_pos hnil, hnil, TenantChain.ofLinks_nil]
    exact chainByTenant_only_of_nil h hnone
  · rw [if_neg hnil, chainByTenant_only h hnil fun t' ht' => hs.only ht']
    congr 1
    unfold windowStart startOf
    by_cases h0 : baseLen = 0
    · simp [h0]
    · simp [h0, hs.anchored h0]

theorem report_heads {k : Nat} {head : Bytes} (hk : 0 < k) : r.heads[k]? = some head ↔ k ≤ (linksOf t es).length ∧
      HashChain.lastHead Event.linkHead (windowStart baseLen baseHead) ((linksOf t es).take k) = head := by
  have hheads : r.heads = _ := congrArg TenantChain.heads (chainAnchored_only h hs)
  rw [hheads, TenantChain.ofLinks_heads, HashChain.heads_eq_some_iff]
  refine and_congr_right fun hle => ?_
  have hne : linksOf t es ≠ [] := List.length_pos_iff.mp (by omega)
  rw [if_neg hne]

theorem report_schemas {k : Nat} (hk : k ≤ (linksOf t es).length) :
    r.maxSchemaByLink[k]? = some (((linksOf t es).take k).foldl maxSchema 0) := by
  have hschemas : r.maxSchemaByLink = (linksOf t es).scanl maxSchema 0 :=
    congrArg TenantChain.maxSchemaByLink (chainAnchored_only h hs)
  rw [hschemas, List.getElem?_scanl, if_pos hk]

/-! ## Attestations -/

/-- Where a signed attestation has to lie: below the window, at its start with the start's head, or inside it with the
running head there and a schema at least that of every decision up to it. -/
def Located (baseLen : UInt64) (baseHead : Bytes) (ls : List Event) (a : Attestation) : Prop :=
  a.attestedLen < baseLen ∨ (a.attestedLen = baseLen ∧ a.attestedHead = baseHead) ∨
    (baseLen < a.attestedLen ∧ a.attestedLen.toNat ≤ baseLen.toNat + ls.length ∧
      HashChain.lastHead Event.linkHead (windowStart baseLen baseHead)
        (ls.take (a.attestedLen.toNat - baseLen.toNat)) = a.attestedHead ∧
      ∀ v ∈ schemasOf (ls.take (a.attestedLen.toNat - baseLen.toNat)), v ≤ a.digestSchema)

theorem holds_iff {a : Attestation} :
    (Window.mk r.heads r.maxSchemaByLink baseLen baseHead).Holds a ↔ Located baseLen baseHead (linksOf t es) a := by
  refine or_congr_right (or_congr_right ?_)
  simp only [Window.Covers]
  refine and_congr_right fun hlt => ?_
  have hle := UInt64.le_iff_toNat_le.mp (UInt64.le_of_lt hlt)
  have hpos := UInt64.lt_iff_toNat_lt.mp hlt
  have hlen : ∀ n, a.attestedLen.toNat - baseLen.toNat ≤ n ↔ a.attestedLen.toNat ≤ baseLen.toNat + n := by omega
  rw [UInt64.toNat_sub_of_le _ _ (UInt64.le_of_lt hlt), report_heads h hs (by omega), and_assoc, hlen]
  refine and_congr_right fun hin => and_congr_right fun _ => ?_
  rw [report_schemas h hs ((hlen _).mpr hin), ← foldl_maxSchema_le_iff]
  simp

end Walked

/-! ## Records -/

/-- For events that carry their kind's payload, the first pass without an uncovered entry asks every decision to match
and every other link to recompute. -/
theorem recordOk_iff {e : Event} (hb : KindBound e) : RecordOk x e ∧ isUncovered x e = false ↔
      (∀ d, e.decision = some d → d.schemaVersion = recordDigestSchema ∧ d.ciphertextDigest ≠ [] ∧
        ∀ wire, e.digest = some wire → recordDigestV4 x d = .ok wire) ∧
      (e.isLink = true → e.kind ≠ "DECISION_SEALED" →
        ∃ ps, Recomputes e ps ∧ e.digest = some (x.sha256 (layout ps))) := by
  have hkind : e.decision = none ↔ e.kind ≠ "DECISION_SEALED" := by
    rw [ne_eq, ← hb.decision_iff, Bool.not_eq_true, Option.isSome_eq_false_iff, Option.isNone_iff_eq_none]
  have hentry : ((e.isLink = true → e.decision = none → ∀ what, recompute x e ≠ .rewritten what) ∧
      isUncovered x e = false) ↔ (e.isLink = true → e.decision = none → recompute x e = .recomputed) := by
    cases hl : e.isLink <;> cases hd : e.decision <;> simp [isUncovered, hl, hd]
    cases recompute x e <;> simp
  constructor
  · rintro ⟨⟨he, hdec⟩, hu⟩
    refine ⟨hdec, fun hl hk => ?_⟩
    exact recompute_recomputed_iff.mp (hentry.mp ⟨he, hu⟩ hl (hkind.mpr hk))
  · rintro ⟨hdec, he⟩
    obtain ⟨hno, hu⟩ := hentry.mpr fun hl hd => recompute_recomputed_iff.mpr (he hl (hkind.mp hd))
    exact ⟨⟨hno, hdec⟩, hu⟩

/-! ## The covered prefix -/

/-- The positions a stream attests. -/
def attestedLens (es : List Event) : Set UInt64 := {n | ∃ e ∈ es, ∃ a, e.attestation = some a ∧ a.attestedLen = n}

theorem coveredPrefix_add (w : Window) (s : Coverage) (e : Event) : (s.add w e).coveredPrefix =
    match e.attestation with
    | none => s.coveredPrefix
    | some a => max s.coveredPrefix a.attestedLen := by
  unfold Coverage.add
  cases e.attestation <;> rfl

theorem foldl_coveredPrefix_le_iff {w : Window} {n : UInt64} {s : Coverage} :
    (es.foldl (Coverage.add w) s).coveredPrefix ≤ n ↔ s.coveredPrefix ≤ n ∧ ∀ m ∈ attestedLens es, m ≤ n := by
  induction es generalizing s with
  | nil => simp [attestedLens]
  | cons e es ih =>
    have hcons : attestedLens (e :: es) = {m | ∃ a, e.attestation = some a ∧ a.attestedLen = m} ∪ attestedLens es := by
      ext m
      simp [attestedLens]
    rw [List.foldl_cons, ih, coveredPrefix_add, hcons]
    cases he : e.attestation with
    | none => simp
    | some a =>
      have hmax : max s.coveredPrefix a.attestedLen ≤ n ↔ s.coveredPrefix ≤ n ∧ a.attestedLen ≤ n := by
        simp only [max, UInt64.le_iff_toNat_le]
        split_ifs <;> omega
      simp [hmax, and_assoc, or_imp, forall_and]

theorem foldl_coveredPrefix_mem (es : List Event) (w : Window) (s : Coverage) :
    (es.foldl (Coverage.add w) s).coveredPrefix = s.coveredPrefix ∨
      (es.foldl (Coverage.add w) s).coveredPrefix ∈ attestedLens es := by
  induction es generalizing s with
  | nil => exact .inl rfl
  | cons e es ih =>
    rw [List.foldl_cons]
    rcases ih (s.add w e) with h | ⟨f, hf, a, ha, hlen⟩
    · rw [h, coveredPrefix_add]
      cases he : e.attestation with
      | none => exact .inl rfl
      | some a =>
        simp only [max]
        split_ifs
        · exact .inr ⟨e, List.mem_cons_self, a, he, rfl⟩
        · exact .inl rfl
    · exact .inr ⟨f, List.mem_cons_of_mem _ hf, a, ha, hlen⟩

/-- **The covered prefix** is the largest length attested. -/
theorem isGreatest_coveredPrefix (w : Window) (h : (attestedLens es).Nonempty) :
    IsGreatest (attestedLens es) (issuerReport x w es).coveredPrefix := by
  have hle : ∀ m ∈ attestedLens es, m ≤ (issuerReport x w es).coveredPrefix :=
    (foldl_coveredPrefix_le_iff (s := ⟨0, 0, 0, 0⟩) (w := w)).mp (UInt64.le_refl _) |>.2
  refine ⟨?_, hle⟩
  rcases foldl_coveredPrefix_mem es w ⟨0, 0, 0, 0⟩ with h0 | hmem
  · -- zero is only reported when every attested length is zero
    obtain ⟨m, hm⟩ := h
    have hzero : (issuerReport x w es).coveredPrefix = 0 := h0
    have hm0 := hle m hm
    rw [hzero, UInt64.le_zero_iff] at hm0
    rwa [hzero, ← hm0]
  · exact hmem

/-! ## The check -/

/-- **What authenticity means** for the links `ls` of a stream, from a start. -/
structure Authentic (x : Externs) (pinnedAids : List String) (baseLen : UInt64) (baseHead : Bytes)
    (es ls : List Event) : Prop where
  pins : ∀ aid ∈ pinnedAids, ∃ key, verifyingKey x aid = .ok key
  decisions : ∀ e ∈ es, ∀ d, e.decision = some d → d.schemaVersion = 4 ∧ d.ciphertextDigest ≠ [] ∧
    ∀ wire, e.digest = some wire → recordDigestV4 x d = .ok wire
  entries : ∀ e ∈ es, e.isLink = true → e.kind ≠ "DECISION_SEALED" →
    ∃ ps, Recomputes e ps ∧ e.digest = some (x.sha256 (layout ps))
  attestations : ∀ e ∈ es, ∀ a, e.attestation = some a → a.tenant = e.tenant ∧ a.issuerAid ∈ pinnedAids ∧
    (∃ key, verifyingKey x a.issuerAid = .ok key ∧ a.signature.length = 64 ∧
      attestationSignatureVerifies x key a = true) ∧ 0 < a.attestedLen ∧ Located baseLen baseHead ls a
  covered : ∃ e ∈ es, ∃ a, e.attestation = some a ∧ baseLen < a.attestedLen

theorem authOk_iff_authentic (h : chainAnchored x es anchorTenant baseLen baseHead = .ok r)
    (hs : SingleTenant anchorTenant baseLen t es) :
    (AuthOk x pinnedAids ⟨r.heads, r.maxSchemaByLink, baseLen, baseHead⟩ es ∧ ∀ e ∈ es, isUncovered x e = false) ↔
      Authentic x pinnedAids baseLen baseHead es (linksOf t es) := by
  have hb : ∀ e ∈ es, KindBound e := (chainByTenant_ok_iff.mp ⟨r, h⟩).bound
  constructor
  · rintro ⟨hok, hu⟩
    refine ⟨hok.pins, fun e he => ?_, fun e he => ?_, fun e he a ha => ?_, hok.covered⟩
    · exact ((recordOk_iff (hb e he)).mp ⟨hok.records e he, hu e he⟩).1
    · exact ((recordOk_iff (hb e he)).mp ⟨hok.records e he, hu e he⟩).2
    · obtain ⟨htenant, ⟨hpin, hsig⟩, h0, hpos⟩ := hok.attests e he a ha
      exact ⟨htenant, hpin, hsig, UInt64.pos_iff_ne_zero.mpr h0, (holds_iff h hs).mp hpos⟩
  · intro hok
    have hrec : ∀ e ∈ es, RecordOk x e ∧ isUncovered x e = false := fun e he =>
      (recordOk_iff (hb e he)).mpr ⟨hok.decisions e he, hok.entries e he⟩
    refine ⟨⟨hok.pins, fun e he => (hrec e he).1, fun e he a ha => ?_, hok.covered⟩, fun e he => (hrec e he).2⟩
    obtain ⟨htenant, hpin, hsig, h0, hpos⟩ := hok.attestations e he a ha
    exact ⟨htenant, ⟨hpin, hsig⟩, UInt64.pos_iff_ne_zero.mp h0, (holds_iff h hs).mpr hpos⟩

/-- **The check decides authenticity.** Over a single-tenant window that has passed the walk from its start, the check
succeeds exactly if the window is authentic, and then reports the largest attested length. -/
theorem verifyAuthenticityAnchored_iff_authentic (h : chainAnchored x es anchorTenant baseLen baseHead = .ok r)
    (hs : SingleTenant anchorTenant baseLen t es) (pinnedAids : List String) :
    ((∃ ir, verifyAuthenticityAnchored x es r.heads r.maxSchemaByLink pinnedAids baseLen baseHead = .ok ir) ↔
      Authentic x pinnedAids baseLen baseHead es (linksOf t es)) ∧
    ∀ ir, verifyAuthenticityAnchored x es r.heads r.maxSchemaByLink pinnedAids baseLen baseHead = .ok ir →
      IsGreatest (attestedLens es) ir.coveredPrefix := by
  let w : Window := ⟨r.heads, r.maxSchemaByLink, baseLen, baseHead⟩
  constructor
  · rw [← authOk_iff_authentic h hs]
    exact verifyAuthenticityAnchored_ok_iff (w := w)
  · intro ir hir
    obtain ⟨hok, -, rfl⟩ := (verifyAuthenticity_eq_ok_iff (w := w)).mp hir
    obtain ⟨e, he, a, ha, -⟩ := hok.covered
    exact isGreatest_coveredPrefix w ⟨_, e, he, a, ha, rfl⟩

/-- The walk and then the check, in one. -/
def checkAnchored (x : Externs) (es : List Event) (pinnedAids : List String) (anchorTenant : String) (baseLen : UInt64)
    (baseHead : Bytes) : Except String IssuerReport := do
  let r ← chainAnchored x es anchorTenant baseLen baseHead
  verifyAuthenticityAnchored x es r.heads r.maxSchemaByLink pinnedAids baseLen baseHead

/-- A link past a signed start and the attestation of the link. -/
theorem verifyAuthenticityAnchored_iff_authentic_one_link :
    let start := List.replicate 32 7
    let link := Event.sealing "a" 6 start (sampleDecision "d" "a")
    let a := sampleAttestation "a" 6 link.linkHead
    let es := [link, Event.attesting 7 a]
    Authentic (.signing [a]) [sampleAid] 5 start es (linksOf "a" es) := by
  intro start link a es
  obtain ⟨ir, hir⟩ := exists_ok_of_isOk
    (show (checkAnchored (.signing [a]) es [sampleAid] "a" 5 start).isOk = true by decide +kernel)
  rw [checkAnchored, bind_ok] at hir
  obtain ⟨r, hr, hir⟩ := hir
  have hs : SingleTenant "a" 5 "a" es := ⟨by decide +kernel, fun _ => rfl⟩
  exact (verifyAuthenticityAnchored_iff_authentic hr hs [sampleAid]).1.mp ⟨ir, hir⟩

end SeamSdk
