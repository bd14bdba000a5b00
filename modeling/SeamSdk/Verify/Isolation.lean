import SeamSdk.Verify.Chain

/-!
# Tenant isolation

The walk keeps all tenants in one map and stops at the first refusal, yet no tenant's verdict or entry depends on
another's events: what it accepts (`ChainOk`) and what it reports (`entryOf`) are read off the links of one tenant at
a time, and those are the same in the stream and in the tenant's own events (`linksOf_eventsOf`).

- `chainOk_iff_eventsOf`: a stream is accepted exactly when each tenant's own events are;
- `ChainOk.congr`, `entryOf_congr`: streams that interleave the same tenants' events differently are not told apart;
- `tenant_isolation` puts them together.
-/

namespace SeamSdk

open ByteCodec

variable {x : Externs} {anchors : TenantMap (UInt64 × Bytes)} {es fs : List Event}

/-- The events of a tenant, by envelope. -/
def eventsOf (t : String) (es : List Event) : List Event := es.filter fun e => e.tenant == t

/-- The same events for every tenant, in each tenant's own order. -/
def Interleaves (es fs : List Event) : Prop := ∀ t, eventsOf t es = eventsOf t fs

theorem mem_eventsOf {t : String} {e : Event} : e ∈ eventsOf t es ↔ e ∈ es ∧ e.tenant = t := by
  simp [eventsOf]

/-- Keeping one tenant's events keeps its links and drops every other's. -/
theorem linksOf_eventsOf (t u : String) (es : List Event) :
    linksOf t (eventsOf u es) = if t = u then linksOf t es else [] := by
  rw [linksOf, eventsOf, List.filter_filter]
  split
  · rename_i htu
    subst htu
    exact List.filter_congr fun e _ => by cases e.isLink <;> simp
  · rename_i htu
    rw [List.filter_eq_nil_iff]
    intro e _ he
    simp only [Bool.and_eq_true, beq_iff_eq] at he
    exact htu (he.1.2.symm.trans he.2)

theorem linksOf_eventsOf_self (t : String) (es : List Event) : linksOf t (eventsOf t es) = linksOf t es := by
  rw [linksOf_eventsOf, if_pos rfl]

/-! ## One tenant at a time -/

theorem ChainOk.eventsOf (h : ChainOk x anchors es) (u : String) : ChainOk x anchors (eventsOf u es) where
  bound e he := h.bound e (mem_eventsOf.mp he).1
  chained t := by
    rw [linksOf_eventsOf]
    split
    · exact h.chained t
    · exact Chained.nil _

/-- A stream is accepted exactly when each tenant's own events are. -/
theorem chainOk_iff_eventsOf :
    ChainOk x anchors es ↔ ∀ t ∈ es.map Event.tenant, ChainOk x anchors (SeamSdk.eventsOf t es) := by
  refine ⟨fun h t _ => h.eventsOf t, fun h => ⟨fun e he => ?_, fun t => ?_⟩⟩
  · exact (h e.tenant (List.mem_map_of_mem he)).bound e (mem_eventsOf.mpr ⟨he, rfl⟩)
  · cases hl : linksOf t es with
    | nil => exact Chained.nil _
    | cons e ls =>
      obtain ⟨he, -, rfl⟩ := mem_linksOf.mp (hl ▸ List.mem_cons_self : e ∈ linksOf t es)
      rw [← hl, ← linksOf_eventsOf_self]
      exact (h e.tenant (List.mem_map_of_mem he)).chained e.tenant

/-- The entry of a tenant in the report over one tenant's events. -/
theorem entryOf_eventsOf (t u : String) :
    entryOf anchors t (eventsOf u es) = if t = u then entryOf anchors t es else none := by
  unfold entryOf
  rw [linksOf_eventsOf]
  by_cases htu : t = u
  · simp only [if_pos htu]
  · simp [if_neg htu]

/-! ## Interleavings -/

theorem Interleaves.linksOf_eq (h : Interleaves es fs) (t : String) : linksOf t es = linksOf t fs := by
  rw [← linksOf_eventsOf_self, h t, linksOf_eventsOf_self]

theorem Interleaves.symm (h : Interleaves es fs) : Interleaves fs es := fun t => (h t).symm

theorem Interleaves.mem (h : Interleaves es fs) {e : Event} (he : e ∈ es) : e ∈ fs := by
  have := mem_eventsOf.mpr ⟨he, rfl⟩
  rw [h e.tenant] at this
  exact (mem_eventsOf.mp this).1

theorem ChainOk.congr (h : Interleaves es fs) (hok : ChainOk x anchors es) : ChainOk x anchors fs where
  bound e he := hok.bound e (h.symm.mem he)
  chained t := h.linksOf_eq t ▸ hok.chained t

theorem entryOf_congr (h : Interleaves es fs) (t : String) : entryOf anchors t es = entryOf anchors t fs := by
  rw [entryOf, entryOf, h.linksOf_eq t]

/-! ## The walk -/

/-- **Tenant isolation.** The verdict is the conjunction of the tenants' own verdicts; on success the report's
tenants are the disjoint union of theirs; and an interleaving of the same events changes neither. -/
theorem tenant_isolation (x : Externs) (anchors : TenantMap (UInt64 × Bytes)) (es : List Event) :
    ((∃ r, chainByTenant x es anchors = .ok r) ↔
      ∀ t ∈ es.map Event.tenant, ∃ r, chainByTenant x (eventsOf t es) anchors = .ok r) ∧
    (∀ r, chainByTenant x es anchors = .ok r → ∀ (t : String) c, r.tenants[t]? = some c ↔
      ∃ u ∈ es.map Event.tenant, ∃ ru, chainByTenant x (eventsOf u es) anchors = .ok ru ∧ ru.tenants[t]? = some c) ∧
    (∀ u ru, chainByTenant x (eventsOf u es) anchors = .ok ru → ∀ (t : String) c, ru.tenants[t]? = some c → t = u) ∧
    ∀ fs, Interleaves es fs →
      ((∃ r, chainByTenant x es anchors = .ok r) ↔ ∃ r, chainByTenant x fs anchors = .ok r) ∧
      ∀ r r', chainByTenant x es anchors = .ok r → chainByTenant x fs anchors = .ok r' → r.tenants = r'.tenants := by
  have hown : ∀ u ru, chainByTenant x (eventsOf u es) anchors = .ok ru → ∀ (t : String) c, ru.tenants[t]? = some c →
      t = u ∧ entryOf anchors t es = some c := by
    intro u ru hru t c hc
    rw [chainByTenant_tenants hru, entryOf_eventsOf] at hc
    split at hc
    · rename_i htu
      exact ⟨htu, hc⟩
    · cases hc
  refine ⟨?_, fun r hr t c => ?_, fun u ru hru t c hc => (hown u ru hru t c hc).1, fun fs hfs => ⟨?_, ?_⟩⟩
  · simp only [chainByTenant_ok_iff]
    exact chainOk_iff_eventsOf
  · rw [chainByTenant_tenants hr]
    constructor
    · intro hc
      have hne : linksOf t es ≠ [] := by
        intro hnil
        rw [entryOf, if_pos hnil] at hc
        cases hc
      obtain ⟨e, he⟩ := List.exists_mem_of_ne_nil _ hne
      obtain ⟨hes, -, rfl⟩ := mem_linksOf.mp he
      obtain ⟨ru, hru⟩ := chainByTenant_ok_iff.mpr ((chainByTenant_ok_iff.mp ⟨r, hr⟩).eventsOf e.tenant)
      refine ⟨e.tenant, List.mem_map_of_mem hes, ru, hru, ?_⟩
      rw [chainByTenant_tenants hru, entryOf_eventsOf, if_pos rfl, hc]
    · intro hx
      rcases hx with ⟨u, -, ru, hru, hc⟩
      exact (hown u ru hru t c hc).2
  · simp only [chainByTenant_ok_iff]
    exact ⟨fun h => h.congr hfs, fun h => h.congr hfs.symm⟩
  · intro r r' hr hr'
    refine Std.ExtTreeMap.ext_getElem? fun t => ?_
    rw [chainByTenant_tenants hr, chainByTenant_tenants hr', entryOf_congr hfs]

end SeamSdk
