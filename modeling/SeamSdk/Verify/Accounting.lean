import SeamSdk.Verify.ByTenant
import SeamSdk.Verify.WalkReport

/-!
# Accounting for every link

The walk counts links by the fields an event carries, the first pass of the authenticity check counts records by the
payload and the digest. The two agree where every event carries its kind's payload and is a link or advisory, as
`--strict` asks.

- `recordStep_counts`: one event adds to exactly one of the three counters if it is a link, and to none otherwise;
- `recount_total`: so the three counters of a pass add up to the links read;
- `links_accounted`: for every tenant of a stream.
-/

namespace SeamSdk

open ByteCodec Checked

variable {x : Externs} {anchors : TenantMap (UInt64 × Bytes)} {es : List Event} {r : ChainReport}
  {pinnedAids : List String}

/-- A link counted as a record, as a recomputed entry, or as uncovered. Only decisions are records. -/
inductive CountedAs (e : Event) (s : Recount) : Recount → Prop
  | record (kind : e.kind = "DECISION_SEALED") : CountedAs e s { s with records := s.records + 1 }
  | entry (kind : e.kind ≠ "DECISION_SEALED") : CountedAs e s { s with entries := s.entries + 1 }
  | uncovered (kind : e.kind ≠ "DECISION_SEALED") :
    CountedAs e s { s with uncovered := s.uncovered ++ [e.asUncovered] }

/-- An event that `--strict` accepts: its kind's payload, and a link unless advisory. -/
structure StrictEvent (e : Event) : Prop where
  bound : KindBound e
  verifiable : e.isLink = true ∨ e.isAdvisory = true

theorem strictEvents (h : chainByTenant x es anchors = .ok r) (hstrict : r.unverifiable = []) :
    ∀ e ∈ es, StrictEvent e := by
  intro e he
  exact ⟨(chainByTenant_ok_iff.mp ⟨r, h⟩).bound e he, (unverifiable_eq_nil h).mp hstrict e he⟩

variable {s s' : Recount} {e : Event}

/-- An event that is no link carries no digest, and is counted nowhere. -/
theorem StrictEvent.digest_eq_none (h : StrictEvent e) (hl : e.isLink = false) : e.digest = none := by
  have ha := h.verifiable.resolve_left (by simp [hl])
  exact (h.bound.unchained ha).1

/-- **One event of the first pass.** -/
theorem recordStep_counts (he : StrictEvent e) (h : recordStep x s e = .ok s') :
    if e.isLink = true then CountedAs e s s' else s' = s := by
  obtain ⟨hok, rfl⟩ := recordStep_ok_iff.mp h
  have hkind := he.bound.decision_iff
  split
  · rename_i hl
    obtain ⟨digest, _, hd, -⟩ := Event.isLink_iff.mp hl
    cases hdec : e.decision with
    | some d =>
      have hrec : s.add x e = { s with records := s.records + 1 } := by
        simp [Recount.add, isRecord, isRecomputed, isUncovered, hdec, hd]
      rw [hrec]
      exact .record (hkind.mp (by simp [hdec]))
    | none =>
      have hne : e.kind ≠ "DECISION_SEALED" := fun hk => by simpa [hdec] using hkind.mpr hk
      cases hr : recompute x e with
      | recomputed =>
        have hent : s.add x e = { s with entries := s.entries + 1 } := by
          simp [Recount.add, isRecord, isRecomputed, isUncovered, hdec, hl, hr]
        rw [hent]
        exact .entry hne
      | rewritten what => exact absurd hr (hok.entry hl hdec what)
      | uncovered =>
        have hunc : s.add x e = { s with uncovered := s.uncovered ++ [e.asUncovered] } := by
          simp [Recount.add, isRecord, isRecomputed, isUncovered, hdec, hl, hr]
        rw [hunc]
        exact .uncovered hne
  · rename_i hl
    have hl : e.isLink = false := by simpa using hl
    simp [Recount.add, isRecord, isRecomputed, isUncovered, hl, he.digest_eq_none hl]

/-! ## A whole pass -/

def Recount.total (s : Recount) : Nat := s.records + s.entries + s.uncovered.length

theorem CountedAs.total (h : CountedAs e s s') : s'.total = s.total + 1 := by
  cases h <;> simp [Recount.total] <;> omega

theorem CountedAs.records (h : CountedAs e s s') :
    s'.records = s.records + if e.kind = "DECISION_SEALED" then 1 else 0 := by
  cases h with
  | record kind => simp [kind]
  | entry kind => simp [kind]
  | uncovered kind => simp [kind]

/-- The counters of a pass add up to the links it read, and its records are the links of decisions. -/
theorem recount_total (hes : ∀ e ∈ es, StrictEvent e) (h : es.foldlM (recordStep x) s = .ok s') :
    s'.total = s.total + (es.filter Event.isLink).length ∧
      s'.records = s.records + (es.filter Event.isLink).countP fun e => e.kind == "DECISION_SEALED" := by
  induction es generalizing s with
  | nil =>
    obtain rfl := Except.ok.inj h
    simp
  | cons e es ih =>
    rw [List.foldlM_cons, bind_ok] at h
    obtain ⟨s₁, hstep, h⟩ := h
    obtain ⟨he, hes⟩ := List.forall_mem_cons.mp hes
    obtain ⟨htotal, hrecords⟩ := ih hes h
    have hone := recordStep_counts he hstep
    cases hl : e.isLink with
    | false =>
      obtain rfl : s₁ = s := by simpa [hl] using hone
      simpa [hl] using ⟨htotal, hrecords⟩
    | true =>
      rw [if_pos hl] at hone
      rw [List.filter_cons_of_pos hl, List.length_cons, List.countP_cons, htotal, hrecords, hone.total, hone.records]
      constructor
      · omega
      · by_cases hk : e.kind = "DECISION_SEALED"
        · simp [hk]
          omega
        · simp [hk]

/-! ## Every tenant -/

theorem filter_isLink_eventsOf (t : String) (es : List Event) : (eventsOf t es).filter Event.isLink = linksOf t es := by
  rw [eventsOf, List.filter_filter, linksOf]

/-- **Every link is accounted for.** -/
theorem links_accounted (h : chainByTenant x es anchors = .ok r) (hstrict : r.unverifiable = []) {opts : AuthOptions}
    {out : TenantMap IssuerReport} (hout : verifyAuthenticityByTenantWith x es pinnedAids r opts = .ok out) {t : String}
    {ir : IssuerReport} (hir : out[t]? = some ir) :
    (∃ c, r.tenants[t]? = some c ∧ ir.recordsRecomputed + ir.entriesRecomputed + ir.uncovered.length = c.links) ∧
    (∀ e ∈ eventsOf t es, ∀ s, ∃ s', recordStep x s e = .ok s' ∧
      if e.isLink = true then CountedAs e s s' else s' = s) ∧
    ir.recordsRecomputed = (linksOf t es).countP (fun e => e.kind == "DECISION_SEALED") ∧
    (opts.allowUncovered = false → ir.uncovered = []) := by
  obtain ⟨hok, hunc, rfl⟩ := verifyAuthenticityByTenant_eq_ok_iff.mp hout
  rw [Std.ExtTreeMap.getElem?_map, Option.map_eq_some_iff] at hir
  obtain ⟨c, hc, rfl⟩ := hir
  have hrec := (hok t c hc).records
  have hes : ∀ e ∈ eventsOf t es, StrictEvent e := fun e he => strictEvents h hstrict e (mem_eventsOf.mp he).1
  obtain ⟨htotal, hrecords⟩ := recount_total hes (foldlM_recordStep_ok_iff.mpr ⟨hrec, rfl⟩)
  rw [filter_isLink_eventsOf] at htotal hrecords
  refine ⟨⟨c, hc, ?_⟩, fun e he s => ?_, ?_, fun ha => ?_⟩
  · rw [(chainByTenant_entry h hc).2, TenantChain.ofLinks_links, ← Nat.zero_add (linksOf t es).length]
    exact htotal
  · have hstep : recordStep x s e = .ok (s.add x e) := recordStep_ok_iff.mpr ⟨hrec e he, rfl⟩
    exact ⟨_, hstep, recordStep_counts (hes e he) hstep⟩
  · rw [← Nat.zero_add (List.countP _ _)]
    exact hrecords
  · refine issuerReport_uncovered_eq_nil.mpr (hunc.resolve_left ?_ t c hc)
    simp [ha]

/-- A decision and its attestation, both chained. -/
theorem links_accounted_attested :
    let link := Event.sealing "a" 1 genesis (sampleDecision "d" "a")
    let a := sampleAttestation "a" 1 link.linkHead
    let es := [link, Event.attestingLink 2 link.linkHead a]
    ∃ r out ir, chainByTenant (.signing [a]) es ∅ = .ok r ∧
      verifyAuthenticityByTenantWith (.signing [a]) es [sampleAid] r .default = .ok out ∧ out["a"]? = some ir ∧
      ir.recordsRecomputed = 1 := by
  intro link a es
  obtain ⟨r, hr, hstrict, hauth⟩ : ∃ r, chainByTenant (.signing [a]) es ∅ = .ok r ∧ r.unverifiable = [] ∧
      ((verifyAuthenticityByTenantWith (.signing [a]) es [sampleAid] r .default).toOption.any fun out =>
        decide (out["a"]?.isSome = true)) = true :=
    exists_ok_of_any (by decide +kernel)
  obtain ⟨out, hout, hsome⟩ := exists_ok_of_any hauth
  obtain ⟨ir, hir⟩ := Option.isSome_iff_exists.mp hsome
  refine ⟨r, out, ir, hr, hout, hir, ?_⟩
  rw [(links_accounted hr hstrict hout hir).2.2.1]
  decide +kernel

end SeamSdk
