import SeamSdk.Lib.Classes
import SeamSdk.Verify.Chain
import Mathlib.Order.Bounds.Defs

/-!
# What the report of a walk says

The walk builds its report link by link. Read off at the end, the report of a tenant is a table of its links: position
`k` holds the running head after `k` links and the largest schema among them.

- `isGreatest_maxSchema`: the running maximum is the largest schema of the decisions read;
- `entryTable`: the entry of a tenant as such a table (`EntryTable`);
- `events_eq`: every event is a link of some tenant, advisory, or unverifiable;
- `walk_report` puts them together.
-/

namespace SeamSdk

open ByteCodec Checked List

variable {x : Externs} {anchors : TenantMap (UInt64 × Bytes)} {es : List Event} {r : ChainReport}

/-! ## The running maximum -/

/-- The schemas of the decisions among some events. -/
def schemasOf (es : List Event) : Set UInt32 := {v | ∃ e ∈ es, ∃ d, e.decision = some d ∧ d.schemaVersion = v}

theorem maxSchema_le_iff {m v : UInt32} {e : Event} :
    maxSchema m e ≤ v ↔ m ≤ v ∧ ∀ d, e.decision = some d → d.schemaVersion ≤ v := by
  unfold maxSchema
  cases hd : e.decision with
  | none => simp
  | some d =>
    simp only [Option.some.injEq, forall_eq', max, UInt32.le_iff_toNat_le]
    split_ifs <;> omega

theorem maxSchema_cases (m : UInt32) (e : Event) :
    maxSchema m e = m ∨ ∃ d, e.decision = some d ∧ d.schemaVersion = maxSchema m e := by
  unfold maxSchema
  cases hd : e.decision with
  | none => exact .inl rfl
  | some d =>
    simp only [max, Option.some.injEq, exists_eq_left']
    split_ifs
    · exact .inr rfl
    · exact .inl rfl

theorem foldl_maxSchema_le_iff {v : UInt32} {ls : List Event} :
    ls.foldl maxSchema 0 ≤ v ↔ ∀ s ∈ schemasOf ls, s ≤ v := by
  induction ls using List.reverseRecOn with
  | nil => simp [schemasOf]
  | append_singleton ls e ih =>
    rw [foldl_append, foldl_cons, foldl_nil, maxSchema_le_iff, ih]
    constructor
    · rintro ⟨hls, he⟩ s ⟨f, hf, d, hd, rfl⟩
      rcases mem_append.mp hf with hf | hf
      · exact hls _ ⟨f, hf, d, hd, rfl⟩
      · obtain rfl := mem_singleton.mp hf
        exact he d hd
    · intro h
      refine ⟨fun s hs => ?_, fun d hd => h _ ⟨e, by simp, d, hd, rfl⟩⟩
      obtain ⟨f, hf, d, hd, rfl⟩ := hs
      exact h _ ⟨f, mem_append_left _ hf, d, hd, rfl⟩

theorem foldl_maxSchema_mem (ls : List Event) : ls.foldl maxSchema 0 ∈ insert 0 (schemasOf ls) := by
  induction ls using List.reverseRecOn with
  | nil => exact Set.mem_insert _ _
  | append_singleton ls e ih =>
    rw [foldl_append, foldl_cons, foldl_nil]
    rcases maxSchema_cases (ls.foldl maxSchema 0) e with h | ⟨d, hd, hv⟩
    · rw [h]
      rcases ih with h0 | ⟨f, hf, d, hd, hv⟩
      · exact .inl h0
      · exact .inr ⟨f, mem_append_left _ hf, d, hd, hv⟩
    · exact .inr ⟨e, by simp, d, hd, hv⟩

/-- **The running maximum** over some links is the largest of zero and the schemas of their decisions. -/
theorem isGreatest_maxSchema (ls : List Event) : IsGreatest (insert 0 (schemasOf ls)) (ls.foldl maxSchema 0) := by
  refine ⟨foldl_maxSchema_mem ls, ?_⟩
  rintro v (rfl | hv)
  · exact UInt32.zero_le
  · exact foldl_maxSchema_le_iff.mp (UInt32.le_refl _) v hv

/-! ## The entry of a tenant -/

/-- What the entry of a tenant holds of its links, from the head it starts at. -/
structure EntryTable (x : Externs) (start : Bytes) (ls : List Event) (c : TenantChain) : Prop where
  links : c.links = ls.length
  nonempty : 1 ≤ c.links
  lengthHeads : c.heads.length = c.links + 1
  starts : c.heads[0]? = some start
  ends : c.heads[c.links]? = some c.head
  lengthSchemas : c.maxSchemaByLink.length = c.links + 1
  schemas : ∀ k ≤ c.links, ∃ m, c.maxSchemaByLink[k]? = some m ∧ IsGreatest (insert 0 (schemasOf (ls.take k))) m
  linked : ∀ k e, ls[k]? = some e → ∃ prev digest, c.heads[k]? = some prev ∧ e.digest = some digest ∧
    c.heads[k + 1]? = some (x.sha256 (prev ++ digest)) ∧ e.prevChecksum = prev ∧
    e.checksum = some (x.sha256 (prev ++ digest))

/-- A link lies between the running heads at its position. -/
theorem Chained.linkAt {s : Bytes} {ls : List Event} (h : Chained x s ls) (hlinks : ∀ e ∈ ls, e.isLink = true)
    {k : Nat} {e : Event} (he : ls[k]? = some e) :
    ∃ prev digest, (HashChain.heads Event.linkHead s ls)[k]? = some prev ∧ e.digest = some digest ∧
      (HashChain.heads Event.linkHead s ls)[k + 1]? = some (x.sha256 (prev ++ digest)) ∧ e.prevChecksum = prev ∧
      e.checksum = some (x.sha256 (prev ++ digest)) := by
  have hmem := mem_of_getElem? he
  obtain ⟨digest, checksum, hd, hc⟩ := Event.isLink_iff.mp (hlinks e hmem)
  have hhash : checksum = x.sha256 (e.prevChecksum ++ digest) := by
    simpa [Event.linkHead, Event.linkDigest, hd, hc, link] using h.hashed e hmem
  refine ⟨e.prevChecksum, digest, HashChain.heads_prev h.linked he, hd, ?_, rfl, by rw [hc, hhash]⟩
  rw [HashChain.heads_succ, he, ← hhash]
  simp [Event.linkHead, hc]

theorem entryTable (h : chainByTenant x es anchors = .ok r) {t : String} {c : TenantChain}
    (hc : r.tenants[t]? = some c) : EntryTable x (startOf anchors t).2 (linksOf t es) c := by
  obtain ⟨hne, rfl⟩ := chainByTenant_entry h hc
  have hok := chainByTenant_ok_iff.mp ⟨r, h⟩
  refine ⟨rfl, length_pos_iff.mpr hne, HashChain.length_heads _ _, HashChain.heads_zero _ _,
    HashChain.heads_length _ _, length_scanl, fun k hk => ?_, fun k e he => ?_⟩
  · refine ⟨_, ?_, isGreatest_maxSchema ((linksOf t es).take k)⟩
    rw [TenantChain.ofLinks, List.getElem?_scanl]
    exact if_pos hk
  · exact (hok.chained t).linkAt (fun f hf => (mem_linksOf.mp hf).2.1) he

/-! ## All events -/

theorem linksOf_eq_filter (t : String) (es : List Event) :
    linksOf t es = (es.filter Event.isLink).filter fun e => e.tenant == t := by
  rw [filter_filter, linksOf]
  exact filter_congr fun e _ => Bool.and_comm ..

/-- The links of all tenants together are the links of the stream. -/
theorem sum_links (h : chainByTenant x es anchors = .ok r) :
    (r.tenants.toList.map fun p => p.2.links).sum = (es.filter Event.isLink).length := by
  have hlinks : ∀ p ∈ r.tenants.toList, p.2.links = (linksOf p.1 es).length := by
    intro p hp
    have hc : r.tenants[p.1]? = some p.2 := Std.ExtTreeMap.mem_toList_iff_getElem?_eq_some.mp hp
    exact (entryTable h hc).links
  have hkeys : (r.tenants.toList.map Prod.fst).Nodup := by
    rw [List.Nodup, pairwise_map]
    exact (Std.ExtTreeMap.distinct_keys_toList (t := r.tenants)).imp fun hne heq => hne (by simp [heq])
  have hall : ∀ e ∈ es.filter Event.isLink, e.tenant ∈ r.tenants.toList.map Prod.fst := by
    intro e he
    obtain ⟨he, hl⟩ := mem_filter.mp he
    have hne : linksOf e.tenant es ≠ [] := ne_nil_of_mem (mem_linksOf.mpr ⟨he, hl, rfl⟩)
    have hc : r.tenants[e.tenant]? = some (.ofLinks (startOf anchors e.tenant) (linksOf e.tenant es)) := by
      rw [chainByTenant_tenants h, entryOf, if_neg hne]
    exact mem_map.mpr ⟨_, Std.ExtTreeMap.mem_toList_iff_getElem?_eq_some.mpr hc, rfl⟩
  rw [← Classes.sum_length_classes Event.tenant hkeys hall, map_map, map_congr_left hlinks]
  simp only [linksOf_eq_filter]
  rfl

/-- Without an unverifiable event, every event is a link or advisory. -/
theorem unverifiable_eq_nil (h : chainByTenant x es anchors = .ok r) :
    r.unverifiable = [] ↔ ∀ e ∈ es, e.isLink = true ∨ e.isAdvisory = true := by
  obtain ⟨-, w, hw, rfl⟩ := chainByTenant_eq_ok_iff.mp h
  simp only [Walk.report, hw.unverifiable, map_eq_nil_iff, filter_eq_nil_iff]
  refine forall₂_congr fun e _ => ?_
  cases e.isLink <;> cases e.isAdvisory <;> decide

/-- **Every event is counted once**: as a link of its tenant, as advisory, or as unverifiable. -/
theorem events_eq (h : chainByTenant x es anchors = .ok r) :
    r.events = (r.tenants.toList.map fun p => p.2.links).sum + r.advisory + r.unverifiable.length := by
  rw [sum_links h]
  obtain ⟨-, w, hw, rfl⟩ := chainByTenant_eq_ok_iff.mp h
  have hlinks := length_eq_length_filter_add (l := es) Event.isLink
  have hrest := length_eq_length_filter_add (l := es.filter fun e => !e.isLink) Event.isAdvisory
  simp only [filter_filter, Bool.and_comm (Event.isAdvisory _), Bool.and_comm (!Event.isAdvisory _)] at hrest
  simp only [Walk.report, hw.advisory, hw.unverifiable, length_map, countP_eq_length_filter]
  omega

/-- **The report of a walk.** Each entry is the table of its tenant's links; every event is counted once, and none is
both a link and advisory; the anchors left over are those of tenants without a link; and the unmodelled links are
listed in stream order. -/
theorem walk_report (h : chainByTenant x es anchors = .ok r) :
    (∀ (t : String) c, r.tenants[t]? = some c →
      EntryTable x ((anchors[t]?.map Prod.snd).getD genesis) (linksOf t es) c) ∧
    r.events = es.length ∧
    r.events = (r.tenants.toList.map fun p => p.2.links).sum + r.advisory + r.unverifiable.length ∧
    (∀ e ∈ es, e.isAdvisory = true → e.isLink = false) ∧
    (∀ t : String, r.unconsumedAnchors[t]? = if linksOf t es = [] then anchors[t]?.map Prod.fst else none) ∧
    r.unmodelled =
      (es.filter fun e => e.isLink && !modelledKinds.contains e.kind).map fun e => (e.seq, e.kind) := by
  have hok := chainByTenant_ok_iff.mp ⟨r, h⟩
  refine ⟨fun t c hc => ?_, ?_, events_eq h, fun e he ha => ?_, fun t => chainByTenant_unconsumed h t, ?_⟩
  · have htable := entryTable h hc
    rw [startOf] at htable
    cases hanchor : anchors[t]? <;> simpa [hanchor] using htable
  · obtain ⟨-, w, -, rfl⟩ := chainByTenant_eq_ok_iff.mp h
    rfl
  · cases hl : e.isLink with
    | false => rfl
    | true =>
      have := (hok.bound e he).not_advisory_of_isLink hl
      rw [ha] at this
      cases this
  · obtain ⟨-, w, hw, rfl⟩ := chainByTenant_eq_ok_iff.mp h
    exact hw.unmodelled

/-- A link of each of two tenants, from genesis. -/
theorem walk_report_two_tenants :
    let x := Externs.sample []
    let a := (Event.bare "t" "K" 1).chainedTo x genesis [1]
    let b := (Event.bare "u" "K" 2).chainedTo x genesis [2]
    ∃ r, chainByTenant x [a, b] ∅ = .ok r ∧ ∃ c, r.tenants["t"]? = some c ∧ EntryTable x genesis [a] c := by
  intro x a b
  obtain ⟨r, hr⟩ := exists_ok_of_isOk (show (chainByTenant x [a, b] ∅).isOk = true by decide +kernel)
  have hlinks : linksOf "t" [a, b] = [a] := by decide +kernel
  have hc : r.tenants["t"]? = some (.ofLinks (startOf ∅ "t") [a]) := by
    rw [chainByTenant_tenants hr, entryOf, hlinks, if_neg (List.cons_ne_nil _ _)]
  have htable := (walk_report hr).1 "t" _ hc
  rw [hlinks] at htable
  exact ⟨r, hr, _, hc, htable⟩

end SeamSdk
