import SeamSdk.Verify.CmdChain

/-!
# Delivery order and retries

A stream is delivered at least once and in any order. What the walk is given is collapsed by `dedup` and sorted by
`seq`, and when the links of a tenant have distinct positions this forgets how the events came in.

- `firstCopies_perm`: two deliveries of the same events keep the same events, in some order;
- `linksOf_sortBySeq`: sorting puts the links of a tenant into one order, whatever the ties elsewhere;
- `delivery_order`: the verdict and the report do not depend on order and retries.
-/

namespace SeamSdk

open ByteCodec Checked

/-- From events as they came in to the report: collapse retries, sort, walk. -/
def checkDelivery (x : Externs) (anchors : TenantMap (UInt64 × Bytes)) (es : List Event) :
    Except String ChainReport := do
  let (out, _) ← dedup es
  chainByTenant x (sortBySeq out) anchors

/-- The same events in any order, each any number of times. -/
def Redelivers (es fs : List Event) : Prop := ∀ e, e ∈ fs ↔ e ∈ es

/-- No two chained events of a tenant share a position. -/
def DistinctSeqs (es : List Event) : Prop :=
  ∀ e ∈ es, ∀ f ∈ es, e.isLink = true → f.isLink = true → e.tenant = f.tenant → e.bytes ≠ f.bytes → e.seq ≠ f.seq

section Delivery

variable {x : Externs} {anchors : TenantMap (UInt64 × Bytes)} {es fs : List Event}

/-! ## Collapsed streams -/

theorem firstCopies_pairwise (es : List Event) : (firstCopies es).Pairwise fun e f => e.bytes ≠ f.bytes := by
  induction es using List.reverseRecOn with
  | nil => exact List.Pairwise.nil
  | append_singleton es e ih =>
    rw [firstCopies_snoc]
    rcases keepFirst_cases (firstCopies es) e with ⟨-, hk⟩ | ⟨hnew, hk⟩ <;> rw [hk]
    · exact ih
    · rw [List.pairwise_append]
      refine ⟨ih, List.pairwise_singleton _ _, ?_⟩
      intro f hf g hg
      rw [List.mem_singleton.mp hg]
      exact hnew f hf

theorem firstCopies_nodup (es : List Event) : (firstCopies es).Nodup := by
  apply (firstCopies_pairwise es).imp
  intro e f hne heq
  exact hne (congrArg Event.bytes heq)

theorem firstCopies_length_le (es : List Event) : (firstCopies es).length ≤ es.length := by
  induction es using List.reverseRecOn with
  | nil => simp [firstCopies]
  | append_singleton es e ih =>
    rw [firstCopies_snoc]
    rcases keepFirst_cases (firstCopies es) e with ⟨-, hk⟩ | ⟨-, hk⟩ <;> rw [hk] <;> simp <;> omega

/-- Deliveries of the same events keep the same events. -/
theorem firstCopies_perm (hid : ∀ e ∈ es, HasIdentity e) (h : Redelivers es fs) :
    (firstCopies fs).Perm (firstCopies es) := by
  have hid' : ∀ e ∈ fs, HasIdentity e := fun e he => hid e ((h e).mp he)
  rw [List.perm_ext_iff_of_nodup (firstCopies_nodup fs) (firstCopies_nodup es)]
  intro e
  rw [mem_firstCopies hid', mem_firstCopies hid, h e]

theorem DistinctIds.perm (hp : fs.Perm es) : DistinctIds fs ↔ DistinctIds es := by
  apply hp.pairwise_iff
  intro e f hef hf he heq
  exact hef he hf heq.symm

/-! ## Sorted streams -/

theorem sortBySeq_perm (es : List Event) : (sortBySeq es).Perm es := Classes.sortByKey_perm _ es

theorem sortBySeq_pairwise (es : List Event) : (sortBySeq es).Pairwise fun e f => e.seq ≤ f.seq :=
  Classes.sortByKey_pairwise _ es

/-- **Sorting settles the order of a tenant's links**, when their positions are distinct. -/
theorem linksOf_sortBySeq (hp : fs.Perm es)
    (hseq : ∀ e ∈ es, ∀ f ∈ es, e.isLink = true → f.isLink = true → e.tenant = f.tenant → e.seq = f.seq → e = f)
    (t : String) : linksOf t (sortBySeq fs) = linksOf t (sortBySeq es) := by
  have hperm : (linksOf t (sortBySeq fs)).Perm (linksOf t (sortBySeq es)) :=
    ((sortBySeq_perm fs).trans (hp.trans (sortBySeq_perm es).symm)).filter _
  have hanti : ∀ e f, e ∈ linksOf t (sortBySeq fs) → f ∈ linksOf t (sortBySeq es) → e.seq ≤ f.seq → f.seq ≤ e.seq →
      e = f := by
    intro e f he hf hef hfe
    obtain ⟨he, hel, het⟩ := mem_linksOf.mp he
    obtain ⟨hf, hfl, hft⟩ := mem_linksOf.mp hf
    rw [mem_sortBySeq] at he hf
    exact hseq e (hp.mem_iff.mp he) f hf hel hfl (het.trans hft.symm) (UInt64.le_antisymm hef hfe)
  exact hperm.eq_of_pairwise hanti ((sortBySeq_pairwise fs).filter _) ((sortBySeq_pairwise es).filter _)

/-! ## The walk -/

theorem checkDelivery_ok_iff {r : ChainReport} : checkDelivery x anchors es = .ok r ↔
    DistinctIds (firstCopies es) ∧ chainByTenant x (sortBySeq (firstCopies es)) anchors = .ok r := by
  simp only [checkDelivery, bind_ok, Prod.exists, dedup_eq_ok_iff]
  constructor
  · intro h
    rcases h with ⟨out, n, ⟨hids, rfl, -⟩, hr⟩
    exact ⟨hids, hr⟩
  · intro h
    obtain ⟨s, hs⟩ := Nat.exists_eq_add_of_le (firstCopies_length_le es)
    exact ⟨_, s, ⟨h.1, rfl, by omega⟩, h.2⟩

/-- Streams with the same events and the same links for every tenant, in order, are not told apart. -/
theorem chainByTenant_congr (hp : fs.Perm es) (hl : ∀ t, linksOf t fs = linksOf t es) :
    ((∃ r, chainByTenant x es anchors = .ok r) → ∃ r, chainByTenant x fs anchors = .ok r) ∧
      ∀ r r', chainByTenant x es anchors = .ok r → chainByTenant x fs anchors = .ok r' →
        r.tenants = r'.tenants ∧ r.links = r'.links ∧ r.advisory = r'.advisory ∧
          r.unverifiable.length = r'.unverifiable.length ∧ r.events = r'.events := by
  constructor
  · simp only [chainByTenant_ok_iff]
    intro h
    refine ⟨fun e he => h.bound e (hp.mem_iff.mp he), fun t => ?_⟩
    rw [hl t]
    exact h.chained t
  · intro r r' hr hr'
    have htenants : r.tenants = r'.tenants := by
      apply Std.ExtTreeMap.ext_getElem?
      intro t
      rw [chainByTenant_tenants hr, chainByTenant_tenants hr', entryOf, entryOf, hl t]
    obtain ⟨-, w, hw, rfl⟩ := chainByTenant_eq_ok_iff.mp hr
    obtain ⟨-, w', hw', rfl⟩ := chainByTenant_eq_ok_iff.mp hr'
    refine ⟨htenants, congrArg (fun m => (singleTenant m).links) htenants, ?_, ?_, hp.length_eq.symm⟩
    · simp only [Walk.report, hw.advisory, hw'.advisory]
      exact hp.symm.countP_eq _
    · simp only [Walk.report, hw.unverifiable, hw'.unverifiable, List.length_map]
      exact (hp.symm.filter _).length_eq

end Delivery

/-- **Delivery order and retries do not matter.** -/
theorem delivery_order {x : Readers} {anchors : TenantMap (UInt64 × Bytes)} {es fs : List Event}
    (hparsed : ∀ e ∈ es, ∃ line, Event.parse x line = .ok e) (hseq : DistinctSeqs es) (h : Redelivers es fs) :
    ((∃ r, checkDelivery x.toExterns anchors es = .ok r) ↔ ∃ r, checkDelivery x.toExterns anchors fs = .ok r) ∧
      ∀ r r', checkDelivery x.toExterns anchors es = .ok r → checkDelivery x.toExterns anchors fs = .ok r' →
        r.tenants = r'.tenants ∧ r.links = r'.links ∧ r.advisory = r'.advisory ∧
          r.unverifiable.length = r'.unverifiable.length ∧ r.events = r'.events := by
  have hid : ∀ e ∈ es, HasIdentity e := fun e he => Event.parse_hasIdentity (hparsed e he).choose_spec
  have hperm : (firstCopies fs).Perm (firstCopies es) := firstCopies_perm hid h
  have hsorted : (sortBySeq (firstCopies fs)).Perm (sortBySeq (firstCopies es)) :=
    (sortBySeq_perm _).trans (hperm.trans (sortBySeq_perm _).symm)
  have hlinks : ∀ t, linksOf t (sortBySeq (firstCopies fs)) = linksOf t (sortBySeq (firstCopies es)) := by
    apply linksOf_sortBySeq hperm
    intro e he f hf hel hfl ht hs
    rw [mem_firstCopies hid] at he hf
    by_contra hne
    have hbytes : e.bytes ≠ f.bytes := fun hb => hne ((hid e he).eq_of_bytes_eq (hid f hf) hb)
    exact hseq e he f hf hel hfl ht hbytes hs
  simp only [checkDelivery_ok_iff, exists_and_left, DistinctIds.perm hperm]
  refine ⟨and_congr_right fun _ => ⟨(chainByTenant_congr hsorted hlinks).1, ?_⟩, ?_⟩
  · exact (chainByTenant_congr hsorted.symm fun t => (hlinks t).symm).1
  · intro r r' hr hr'
    exact (chainByTenant_congr hsorted hlinks).2 r r' hr.2 hr'.2

/-- Two tenants at one position and an unchained event, delivered backwards and then once more. -/
theorem delivery_order_two_tenants :
    let a := sampleAttestation "a" 1 genesis
    let sent := [Event.sealing "a" 1 genesis (sampleDecision "d" "a"), .sealing "b" 1 genesis (sampleDecision "c" "b"),
      .attesting 2 a]
    let es := sent.map Event.withIdentity
    (∃ r, checkDelivery (.signing [a]) ∅ es = .ok r) ∧ ∃ r, checkDelivery (.signing [a]) ∅ (es.reverse ++ es) = .ok r := by
  intro a sent es
  have hid : ∀ e ∈ sent, e.eventId ≠ "" := by decide
  have hparsed : ∀ e ∈ es, ∃ line, Event.parse (.sample [a] sent) line = .ok e := by
    intro e he
    obtain ⟨f, hf, rfl⟩ := List.mem_map.mp he
    exact ⟨_, Event.parse_protobufLine (hid f hf) (Readers.sample_decodes [a] sent f hf)⟩
  have hseq : DistinctSeqs es := by
    unfold DistinctSeqs
    decide +kernel
  have hsame : Redelivers es (es.reverse ++ es) := by
    intro e
    rw [List.mem_append, List.mem_reverse, or_self]
  have hok : ∃ r, checkDelivery (.signing [a]) ∅ es = .ok r := exists_ok_of_isOk (by decide +kernel)
  exact ⟨hok, (delivery_order hparsed hseq hsame).1.mp hok⟩

end SeamSdk
