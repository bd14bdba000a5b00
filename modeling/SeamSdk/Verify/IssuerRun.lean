import SeamSdk.Verify.CmdChain

/-!
# What an `--issuer` run covers

With pinned issuers, `chain` runs over all events of the file when at most one tenant has a link, and otherwise once
for each tenant with a link, over that tenant's events only. Each way leaves something out.

- `own_attestation_iff`: in the first, the attestation that covers the window may be another tenant's;
- `every_event_checked_iff`: in the second, the events of a tenant without a link are in no run.
-/

namespace SeamSdk

open ByteCodec Checked Event

variable {x : Externs} {f : ChainFlags} {anchor expect : Option Attestation} {es : List Event} {r : ChainReport}

/-! ## Tenants with a link -/

variable {c : TenantChain} {t : String} {e : Event}

theorem linksOf_ne_nil : linksOf t es ≠ [] ↔ ∃ e ∈ es, e.isLink = true ∧ e.tenant = t := by
  constructor
  · intro h
    obtain ⟨e, he⟩ := List.exists_mem_of_ne_nil _ h
    exact ⟨e, mem_linksOf.mp he⟩
  · intro hx
    rcases hx with ⟨e, he⟩
    exact List.ne_nil_of_mem (mem_linksOf.mpr he)

/-- Streams with the same events have the same tenants. -/
theorem linksOf_ne_nil_congr {fs : List Event} (h : ∀ e, e ∈ fs ↔ e ∈ es) (t : String) :
    linksOf t fs ≠ [] ↔ linksOf t es ≠ [] := by
  simp only [linksOf_ne_nil, h]

theorem one_lt_size_iff {α : Type} {m : TenantMap α} :
    1 < m.size ↔ ∃ t t' : String, t ≠ t' ∧ m[t]?.isSome = true ∧ m[t']?.isSome = true := by
  have hmem : ∀ p ∈ m.toList, m[p.1]?.isSome = true := by
    intro p hp
    rw [Std.ExtTreeMap.mem_toList_iff_getElem?_eq_some.mp hp]
    rfl
  have hlist : ∀ t : String, m[t]?.isSome = true → ∃ v, (t, v) ∈ m.toList := by
    intro t ht
    obtain ⟨v, hv⟩ := Option.isSome_iff_exists.mp ht
    exact ⟨v, Std.ExtTreeMap.mem_toList_iff_getElem?_eq_some.mpr hv⟩
  rw [← Std.ExtTreeMap.length_toList]
  constructor
  · intro h
    have hd := Std.ExtTreeMap.distinct_keys_toList (t := m)
    match hl : m.toList with
    | [] => simp [hl] at h
    | [p] => simp [hl] at h
    | p :: q :: l =>
      rw [hl, List.pairwise_cons] at hd
      refine ⟨p.1, q.1, ?_, hmem p (by simp [hl]), hmem q (by simp [hl])⟩
      simpa using hd.1 q List.mem_cons_self
  · intro hx
    rcases hx with ⟨t, t', hne, ht, ht'⟩
    obtain ⟨v, hv⟩ := hlist t ht
    obtain ⟨v', hv'⟩ := hlist t' ht'
    by_contra hle
    match hl : m.toList with
    | [] => simp [hl] at hv
    | [p] =>
      rw [hl, List.mem_singleton] at hv hv'
      exact hne (congrArg Prod.fst (hv.trans hv'.symm))
    | p :: q :: l => simp [hl] at hle

theorem isSome_tenants_iff {anchors : TenantMap (UInt64 × Bytes)} (h : chainByTenant x es anchors = .ok r) :
    r.tenants[t]?.isSome = true ↔ linksOf t es ≠ [] := by
  rw [chainByTenant_tenants h, entryOf]
  split <;> simp [*]

/-- A report has more than one tenant exactly when links of two tenants were walked. -/
theorem one_lt_tenants_iff {anchors : TenantMap (UInt64 × Bytes)} (h : chainByTenant x es anchors = .ok r) :
    1 < r.tenants.size ↔ ∃ t t', t ≠ t' ∧ linksOf t es ≠ [] ∧ linksOf t' es ≠ [] := by
  simp only [one_lt_size_iff, isSome_tenants_iff h]

/-! ## The only tenant's window -/

/-- An anchor that was consumed is the only tenant's. -/
theorem StreamOk.startOf_eq (hok : StreamOk x f anchor expect es r) (h0 : ∀ a ∈ anchor, a.attestedLen ≠ 0)
    (honly : ∀ t', linksOf t' es ≠ [] → t' = t) : startOf (anchorsOf anchor) t = baseOf anchor := by
  cases anchor with
  | none => rfl
  | some a =>
    have hne : a.attestedLen ≠ 0 := h0 a rfl
    have hmap : anchorsOf (some a) = (∅ : TenantMap _).insert a.tenant (a.attestedLen, a.attestedHead) := if_pos hne
    have hlinks : linksOf a.tenant es ≠ [] := by
      intro hnil
      have hu := hok.consumed a.tenant
      rw [chainByTenant_unconsumed hok.walk, unconsumedOf, if_pos hnil, hmap] at hu
      simp at hu
    obtain rfl := honly a.tenant hlinks
    simp [startOf, baseOf, hmap]

/-- When one tenant has all the links, the window of the file is that tenant's. -/
theorem StreamOk.window_eq (hok : StreamOk x f anchor expect es r) (h0 : ∀ a ∈ anchor, a.attestedLen ≠ 0)
    (hne : linksOf t es ≠ []) (honly : ∀ t', linksOf t' es ≠ [] → t' = t) (hc : r.tenants[t]? = some c) :
    r.window (baseOf anchor) = c.window := by
  obtain ⟨-, rfl⟩ := chainByTenant_entry hok.walk hc
  have hr := chainByTenant_only hok.walk hne honly
  rw [hok.startOf_eq h0 honly] at hr ⊢
  have hheads : r.heads = HashChain.heads linkHead (baseOf anchor).2 (linksOf t es) :=
    congrArg TenantChain.heads hr
  have hschema : r.maxSchemaByLink = (linksOf t es).scanl maxSchema 0 := congrArg TenantChain.maxSchemaByLink hr
  rw [ChainReport.window, hheads, hschema]
  rfl

/-- Past the start, a covering attestation has the running head at its position. -/
theorem Window.Covers.headAt {a : Attestation} (h : c.window.Covers a) :
    c.headAt a.attestedLen.toNat = some a.attestedHead := by
  obtain ⟨hlt, hhead, -⟩ := h
  have hle : c.baseLen ≤ a.attestedLen := UInt64.le_of_lt hlt
  rw [TenantChain.headAt, if_pos (UInt64.le_iff_toNat_le.mp hle), ← UInt64.toNat_sub_of_le _ _ hle]
  exact hhead

/-! ## Coverage by the tenant's own attestation -/

section Stream

variable (hok : StreamOk x f anchor expect es r) (hi : f.issuers ≠ []) (h0 : ∀ a ∈ anchor, a.attestedLen ≠ 0)
  (hc : r.tenants[t]? = some c)

include hok hi h0 hc

/-- What a run has asked of the events of a tenant with a link, in that tenant's own window. -/
theorem StreamOk.attests (he : e ∈ es) (ht : e.tenant = t) : AttestOk x f.issuers c.window e := by
  have hauth := hok.authentic hi
  have hne := (chainByTenant_entry hok.walk hc).1
  rw [AuthenticOk] at hauth
  split at hauth
  · exact (hauth t c hc).1.attests e (mem_eventsOf.mpr ⟨he, ht⟩)
  · rename_i hsize
    have honly : ∀ t', linksOf t' es ≠ [] → t' = t := by
      intro t' ht'
      by_contra hneq
      exact hsize ((one_lt_tenants_iff hok.walk).mpr ⟨t', t, hneq, ht', hne⟩)
    rw [← hok.window_eq h0 hne honly hc]
    exact hauth.1.attests e he

/-- A tenant is warranted by an attestation of its own that covers its chain. -/
def Warranted (x : Externs) (issuers : List String) (es : List Event) (t : String) (c : TenantChain) : Prop :=
  ∃ e ∈ es, ∃ a, e.attestation = some a ∧ a.tenant = t ∧ SignedBy x issuers a ∧ c.baseLen < a.attestedLen ∧
    c.headAt a.attestedLen.toNat = some a.attestedHead

/-- In an event of the tenant, an attestation past the start is enough: the run has checked the rest. -/
theorem StreamOk.warranted (he : e ∈ es) (ht : e.tenant = t)
    {a : Attestation} (ha : e.attestation = some a) (hlt : c.baseLen < a.attestedLen) :
    Warranted x f.issuers es t c := by
  have hatt := hok.attests hi h0 hc he ht a ha
  exact ⟨e, he, a, ha, hatt.tenant.trans ht, hatt.signed, hlt, (hatt.position.covers hlt).headAt⟩

/-- Which tenants are warranted: all of them when there are several, the only one when it has an attestation of its
own past its start. -/
theorem StreamOk.warranted_iff : Warranted x f.issuers es t c ↔ ((∀ t', linksOf t' es ≠ [] → t' = t) →
      ∃ e ∈ es, e.tenant = t ∧ ∃ a, e.attestation = some a ∧ c.baseLen < a.attestedLen) := by
  have hauth := hok.authentic hi
  have hne := (chainByTenant_entry hok.walk hc).1
  rw [AuthenticOk] at hauth
  constructor
  · rintro ⟨e, he, a, ha, hat, -, hlt, -⟩ honly
    have hsize : ¬1 < r.tenants.size := by
      rw [one_lt_tenants_iff hok.walk]
      intro hx
      rcases hx with ⟨u, v, huv, hu, hv⟩
      exact huv ((honly u hu).trans (honly v hv).symm)
    -- over the whole file, every event's attestation is of the event's own tenant
    rw [if_neg hsize] at hauth
    exact ⟨e, he, (hauth.1.attests e he a ha).tenant.symm.trans hat, a, ha, hlt⟩
  · intro h
    by_cases hsize : 1 < r.tenants.size
    · rw [if_pos hsize] at hauth
      obtain ⟨e, he, a, ha, hlt⟩ := (hauth t c hc).1.covered
      obtain ⟨he, het⟩ := mem_eventsOf.mp he
      exact hok.warranted hi h0 hc he het ha hlt
    · obtain ⟨e, he, het, a, ha, hlt⟩ := h fun t' ht' => by
        by_contra hneq
        exact hsize ((one_lt_tenants_iff hok.walk).mpr ⟨t', t, hneq, ht', hne⟩)
      exact hok.warranted hi h0 hc he het ha hlt

end Stream

/-- **Whose attestation warrants a chain.** In a run that succeeds, every tenant with a link is warranted by an
attestation of its own, exactly if the only tenant with links, when there is only one, has one past its start. -/
theorem own_attestation_iff {x : Readers} {files : Files} {run : ChainRun} (h : cmdChain x files f = .ok run)
    (hi : f.issuers ≠ []) (hes : FileEvents x files f.path es)
    (ha : loadAnchor x files f.fromAnchor f.issuers = .ok anchor) :
    (∀ t, linksOf t es ≠ [] →
      ∃ c, run.report.tenants[t]? = some c ∧ Warranted x.toExterns f.issuers es t c) ↔
    ∀ t, linksOf t es ≠ [] → (∀ t', linksOf t' es ≠ [] → t' = t) →
      ∃ e ∈ es, e.tenant = t ∧ ∃ a, e.attestation = some a ∧ (startOf (anchorsOf anchor) t).1 < a.attestedLen := by
  obtain ⟨expect, ordered, n, r, hmem, hok, hr⟩ := cmdChain_checked h hes ha
  have h0 : ∀ a ∈ anchor, a.attestedLen ≠ 0 := by
    rintro a rfl
    exact (loadAnchor_some ha).2
  have hlinks := linksOf_ne_nil_congr hmem
  refine forall_congr' fun t => ?_
  refine forall_congr' fun ht => ?_
  have hc : r.tenants[t]? = some (.ofLinks (startOf (anchorsOf anchor) t) (linksOf t ordered)) := by
    rw [chainByTenant_tenants hok.walk, entryOf, if_neg ((hlinks t).mpr ht)]
  have hw := hok.warranted_iff hi h0 hc
  simp only [Warranted, hmem, hlinks, TenantChain.ofLinks_baseLen] at hw
  rw [← hr, ← hw]
  simp only [Warranted]
  constructor
  · intro hx
    rcases hx with ⟨c, hc', hwc⟩
    obtain rfl := Option.some.inj (hc.symm.trans hc')
    exact hwc
  · intro hwc
    exact ⟨_, hc, hwc⟩

/-- A link relabelled from tenant `a` to tenant `b`, next to the attestation of `a` without its chain fields: the run
succeeds, and nothing of `b` was ever signed. -/
theorem own_attestation_relabelled :
    let link := sealing "b" 1 genesis (sampleDecision "d" "a")
    let a := sampleAttestation "a" 1 link.linkHead
    let es := [link, attesting 2 a]
    ∃ run, cmdChain (.sample [a] es) (.sample es) (.sample [sampleAid]) = .ok run ∧
      FileEvents (.sample [a] es) (.sample es) (ChainFlags.sample [sampleAid]).path (es.map withIdentity) ∧
      ¬∀ t, linksOf t (es.map withIdentity) ≠ [] → ∃ c, run.report.tenants[t]? = some c ∧
        Warranted (.signing [a]) [sampleAid] (es.map withIdentity) t c := by
  intro link a es
  obtain ⟨run, hrun, hfile⟩ := exists_cmdChain_sample [a] es (List.cons_ne_nil _ _) (by decide) (by decide +kernel)
  refine ⟨run, hrun, hfile, fun hall => ?_⟩
  obtain ⟨c, -, e, he, b, hb, htenant, -⟩ := hall "b" (by decide +kernel)
  have hother : ∀ e ∈ es.map withIdentity, ∀ b ∈ e.attestation, b.tenant ≠ "b" := by decide +kernel
  exact hother e he b hb htenant

/-- A link and its tenant's attestation. -/
theorem own_attestation_iff_one_link :
    let link := sealing "a" 1 genesis (sampleDecision "d" "a")
    let a := sampleAttestation "a" 1 link.linkHead
    let es := [link, attesting 2 a]
    ∃ run, cmdChain (.sample [a] es) (.sample es) (.sample [sampleAid]) = .ok run ∧
      ∀ t, linksOf t (es.map withIdentity) ≠ [] → ∃ c, run.report.tenants[t]? = some c ∧
        Warranted (.signing [a]) [sampleAid] (es.map withIdentity) t c := by
  intro link a es
  obtain ⟨run, hrun, hfile⟩ := exists_cmdChain_sample [a] es (List.cons_ne_nil _ _) (by decide) (by decide +kernel)
  refine ⟨run, hrun, (own_attestation_iff hrun (List.cons_ne_nil _ _) hfile rfl).mpr ?_⟩
  intro t ht _
  obtain ⟨e, he, -, rfl⟩ := linksOf_ne_nil.mp ht
  have htenant : ∀ e ∈ es.map withIdentity, e.tenant = "a" := by decide +kernel
  rw [htenant e he]
  exact ⟨(attesting 2 a).withIdentity, List.mem_cons_of_mem _ List.mem_cons_self, rfl, a, rfl, by decide +kernel⟩

/-! ## Events that no run has checked -/

/-- What an `--issuer` run asks of an event by itself. -/
structure EventChecked (x : Externs) (issuers : List String) (e : Event) : Prop where
  attestation : ∀ a, e.attestation = some a → SignedBy x issuers a ∧ a.tenant = e.tenant ∧ 0 < a.attestedLen
  decision : ∀ d, e.decision = some d → d.schemaVersion = 4 ∧ d.ciphertextDigest ≠ [] ∧
    ∀ wire, e.digest = some wire → recordDigestV4 x d = .ok wire

theorem AuthOk.eventChecked {issuers : List String} {w : Window} (h : AuthOk x issuers w es) (he : e ∈ es) :
    EventChecked x issuers e where
  attestation a ha :=
    have hatt := h.attests e he a ha
    ⟨hatt.signed, hatt.tenant, UInt64.pos_iff_ne_zero.mpr hatt.nonvacuous⟩
  decision := (h.records e he).decision

/-- **Which events a run checks.** In a run that succeeds, every event of the file has been checked, exactly if at
most one tenant has a link or the events of the tenants without one pass by themselves. -/
theorem every_event_checked_iff {x : Readers} {files : Files} {run : ChainRun} (h : cmdChain x files f = .ok run)
    (hi : f.issuers ≠ []) (hes : FileEvents x files f.path es) :
    (∀ e ∈ es, EventChecked x.toExterns f.issuers e) ↔
      (∀ t t', linksOf t es ≠ [] → linksOf t' es ≠ [] → t = t') ∨
      ∀ e ∈ es, linksOf e.tenant es = [] → EventChecked x.toExterns f.issuers e := by
  obtain ⟨anchor, _, _, _, _, _, _, ha, -⟩ := cmdChain_ok_iff.mp ⟨run, h, rfl⟩
  obtain ⟨expect, ordered, n, r, hmem, hok, -⟩ := cmdChain_checked h hes ha
  have hauth := hok.authentic hi
  have hlinks := linksOf_ne_nil_congr hmem
  constructor
  · intro hall
    exact .inr fun e he _ => hall e he
  · intro hcond e he
    rw [AuthenticOk] at hauth
    split at hauth
    · rename_i hsize
      rcases hcond with honly | hrest
      · obtain ⟨t, t', hne, ht, ht'⟩ := (one_lt_tenants_iff hok.walk).mp hsize
        exact absurd (honly t t' ((hlinks t).mp ht) ((hlinks t').mp ht')) hne
      · by_cases hnil : linksOf e.tenant es = []
        · exact hrest e he hnil
        · have hc : r.tenants[e.tenant]? =
              some (.ofLinks (startOf (anchorsOf anchor) e.tenant) (linksOf e.tenant ordered)) := by
            rw [chainByTenant_tenants hok.walk, entryOf, if_neg ((hlinks _).mpr hnil)]
          exact (hauth _ _ hc).1.eventChecked (mem_eventsOf.mpr ⟨(hmem e).mpr he, rfl⟩)
    · exact hauth.1.eventChecked ((hmem e).mpr he)

/-- Two tenants with their attestations, and a third that has nothing but an attestation no issuer signed. -/
theorem every_event_checked_forged :
    let linkA := sealing "a" 1 genesis (sampleDecision "d1" "a")
    let linkB := sealing "b" 2 genesis (sampleDecision "d2" "b")
    let as := [sampleAttestation "a" 1 linkA.linkHead, sampleAttestation "b" 1 linkB.linkHead]
    let forged := sampleAttestation "c" 1 genesis
    let es := linkA :: linkB :: (as ++ [forged]).map (attesting 3)
    ∃ run, cmdChain (.sample as es) (.sample es) (.sample [sampleAid]) = .ok run ∧
      FileEvents (.sample as es) (.sample es) (ChainFlags.sample [sampleAid]).path (es.map withIdentity) ∧
      ¬∀ e ∈ es.map withIdentity, EventChecked (.signing as) [sampleAid] e := by
  intro linkA linkB as forged es
  obtain ⟨run, hrun, hfile⟩ := exists_cmdChain_sample as es (List.cons_ne_nil _ _) (by decide) (by decide +kernel)
  refine ⟨run, hrun, hfile, fun hall => ?_⟩
  have hforged := hall (attesting 3 forged).withIdentity
    (List.mem_map_of_mem (by simp [es]))
  obtain ⟨⟨-, key, -, -, hsig⟩, -⟩ := hforged.attestation forged rfl
  have hbad : attestationSignatureVerifies (.signing as) [] forged = false := by decide +kernel
  exact Bool.false_ne_true (hbad.symm.trans hsig)

/-- Two tenants with their attestations. -/
theorem every_event_checked_iff_two_tenants :
    let linkA := sealing "a" 1 genesis (sampleDecision "d1" "a")
    let linkB := sealing "b" 2 genesis (sampleDecision "d2" "b")
    let as := [sampleAttestation "a" 1 linkA.linkHead, sampleAttestation "b" 1 linkB.linkHead]
    let es := linkA :: linkB :: as.map (attesting 3)
    ∃ run, cmdChain (.sample as es) (.sample es) (.sample [sampleAid]) = .ok run ∧
      ∀ e ∈ es.map withIdentity, EventChecked (.signing as) [sampleAid] e := by
  intro linkA linkB as es
  obtain ⟨run, hrun, hfile⟩ := exists_cmdChain_sample as es (List.cons_ne_nil _ _) (by decide) (by decide +kernel)
  refine ⟨run, hrun, (every_event_checked_iff hrun (List.cons_ne_nil _ _) hfile).mpr (.inr ?_)⟩
  have hlinks : ∀ e ∈ es.map withIdentity, linksOf e.tenant (es.map withIdentity) ≠ [] := by decide +kernel
  exact fun e he hnil => absurd hnil (hlinks e he)

end SeamSdk
