import SeamSdk.Lib.Classes
import SeamSdk.Verify.Authenticity
import SeamSdk.Verify.Isolation

/-!
# Authenticity tenant by tenant

Chains are independent from tenant to tenant, and so is authenticity: `verifyAuthenticityByTenantWith` runs the check
once for each tenant the walk reported, over that tenant's own events and its own window. Uncovered entries are refused
only after every tenant's attestations have passed.

- `verifyAuthenticityByTenant_eq_ok_iff`: it passes exactly when every reported tenant's own events pass.

The tenants are those of the report, so an event of a tenant without a single chained link is in no tenant's run.
-/

namespace SeamSdk

open ByteCodec Checked Std.ExtTreeMap

/-- The window of a tenant's chain; its start is the first of the running heads. -/
def TenantChain.window (c : TenantChain) : Window := ⟨c.heads, c.maxSchemaByLink, c.baseLen, c.heads.head?.getD genesis⟩

section Check

variable (x : Externs) (events : List Event) (pinnedAids : List String)

/-- One tenant's run, with uncovered entries allowed. -/
def verifyTenant (tenant : String) (tc : TenantChain) : Except String IssuerReport :=
  (verifyAuthenticityAnchoredWith x (eventsOf tenant events) tc.window.heads tc.window.maxSchemaByLink pinnedAids
    tc.window.baseLen tc.window.baseHead ⟨true⟩).mapError fun e => s!"tenant {x.debugStr tenant}: {e}"

/-- The uncovered entries of every tenant, by `seq`. -/
def allUncovered (out : TenantMap IssuerReport) : List Uncovered :=
  Classes.sortByKey Uncovered.seq (out.toList.flatMap fun p => p.2.uncovered)

/-- The loop body of `verifyAuthenticityByTenantWith`. -/
def tenantStep (out : TenantMap IssuerReport) (p : String × TenantChain) : Except String (TenantMap IssuerReport) := do
  let ir ← verifyTenant x events pinnedAids p.1 p.2
  return out.insert p.1 ir

def verifyAuthenticityByTenantWith (report : ChainReport) (opts : AuthOptions) :
    Except String (TenantMap IssuerReport) := do
  let out ← report.tenants.toList.foldlM (tenantStep x events pinnedAids) ∅
  refuse (opts.allowUncovered = false ∧ (out.toList.any fun p => !p.2.uncovered.isEmpty) = true)
    (uncoveredRefusal x (allUncovered out))
  return out

def verifyAuthenticityByTenant (report : ChainReport) : Except String (TenantMap IssuerReport) :=
  verifyAuthenticityByTenantWith x events pinnedAids report .default

end Check

/-! ## Filling a map from a list -/

section Maps

variable {α β : Type}

theorem getElem?_foldl_insert (f : String × α → β) :
    ∀ {l : List (String × α)} (out : TenantMap β) (k : String), (l.Pairwise fun p q => p.1 ≠ q.1) →
      (l.foldl (fun out p => out.insert p.1 (f p)) out)[k]? = ((l.find? fun p => p.1 == k).map f).or out[k]?
  | [], out, k, _ => by simp
  | p :: l, out, k, hd => by
    rw [List.pairwise_cons] at hd
    rw [List.foldl_cons, getElem?_foldl_insert f _ k hd.2, List.find?_cons]
    simp only [getElem?_insert, Std.LawfulEqCmp.compare_eq_iff_eq]
    by_cases hk : p.1 = k
    · -- no later entry has this key
      have hnone : (l.find? fun q => q.1 == k) = none := by
        rw [List.find?_eq_none]
        intro q hq
        simpa [← hk] using (hd.1 q hq).symm
      simp [hk, hnone]
    · simp [beq_eq_false_iff_ne.mpr hk, hk]

/-- Filling a map from another's entries is mapping it. -/
theorem foldl_insert_toList (m : TenantMap α) (f : String → α → β) :
    m.toList.foldl (fun out p => out.insert p.1 (f p.1 p.2)) (∅ : TenantMap β) = m.map f := by
  have hd : m.toList.Pairwise fun p q => p.1 ≠ q.1 := by
    refine distinct_keys_toList.imp ?_
    intro p q h
    simpa using h
  refine ext_getElem? fun k => ?_
  rw [getElem?_foldl_insert (fun p => f p.1 p.2) ∅ k hd, getElem?_map]
  simp only [getElem?_empty, Option.or_none]
  cases hf : m.toList.find? fun p => p.1 == k with
  | none =>
    cases hm : m[k]? with
    | none => rfl
    | some a =>
      have hmem := mem_toList_iff_getElem?_eq_some.mpr hm
      exact absurd (List.find?_eq_none.mp hf _ hmem) (by simp)
  | some p =>
    have hk : p.1 = k := by simpa using List.find?_some hf
    have hp := mem_toList_iff_getElem?_eq_some.mp (List.mem_of_find?_eq_some hf)
    rw [← hk, hp]
    rfl

end Maps

/-! ## What passes -/

variable {x : Externs} {es : List Event} {pinnedAids : List String}

theorem verifyTenant_ok_iff {t : String} {c : TenantChain} {r : IssuerReport} :
    verifyTenant x es pinnedAids t c = .ok r ↔
      AuthOk x pinnedAids c.window (eventsOf t es) ∧ issuerReport x c.window (eventsOf t es) = r := by
  rw [verifyTenant, mapError_ok, verifyAuthenticity_eq_ok_iff]
  simp

theorem tenantStep_ok_iff {out out' : TenantMap IssuerReport} {p : String × TenantChain} :
    tenantStep x es pinnedAids out p = .ok out' ↔ AuthOk x pinnedAids p.2.window (eventsOf p.1 es) ∧
      out.insert p.1 (issuerReport x p.2.window (eventsOf p.1 es)) = out' := by
  simp only [tenantStep, bind_ok, verifyTenant_ok_iff, pure_ok]
  constructor
  · intro h
    rcases h with ⟨_, ⟨hok, rfl⟩, hout⟩; exact ⟨hok, hout⟩
  · intro h
    rcases h with ⟨hok, hout⟩; exact ⟨_, ⟨hok, rfl⟩, hout⟩

/-- A whole run over the reported tenants. -/
theorem foldlM_tenantStep_ok_iff {m : TenantMap TenantChain} {out : TenantMap IssuerReport} :
    m.toList.foldlM (tenantStep x es pinnedAids) ∅ = .ok out ↔
      (∀ t c, m[t]? = some c → AuthOk x pinnedAids c.window (eventsOf t es)) ∧
      (m.map fun t c => issuerReport x c.window (eventsOf t es)) = out := by
  rw [foldlM_ok_iff (f := tenantStep x es pinnedAids)
    (Q := fun p => AuthOk x pinnedAids p.2.window (eventsOf p.1 es))
    (g := fun out p => out.insert p.1 (issuerReport x p.2.window (eventsOf p.1 es))) fun _ _ _ => tenantStep_ok_iff,
    foldl_insert_toList m fun t c => issuerReport x c.window (eventsOf t es)]
  simp [mem_toList_iff_getElem?_eq_some]

/-- **Authenticity by tenant.** Every reported tenant's own events pass in its own window; under the strict options,
without an uncovered entry. -/
theorem verifyAuthenticityByTenant_eq_ok_iff {r : ChainReport} {opts : AuthOptions} {out : TenantMap IssuerReport} :
    verifyAuthenticityByTenantWith x es pinnedAids r opts = .ok out ↔
      (∀ t c, r.tenants[t]? = some c → AuthOk x pinnedAids c.window (eventsOf t es)) ∧
      (opts.allowUncovered = true ∨
        ∀ t c, r.tenants[t]? = some c → ∀ e ∈ eventsOf t es, isUncovered x e = false) ∧
      (r.tenants.map fun t c => issuerReport x c.window (eventsOf t es)) = out := by
  have hunc : ((r.tenants.map fun t c => issuerReport x c.window (eventsOf t es)).toList.any
      fun p => !p.2.uncovered.isEmpty) = false ↔
        ∀ t c, r.tenants[t]? = some c → ∀ e ∈ eventsOf t es, isUncovered x e = false := by
    simp only [List.any_eq_false, Prod.forall, mem_toList_iff_getElem?_eq_some,
      getElem?_map, Option.map_eq_some_iff]
    constructor
    · intro h t c hc
      exact issuerReport_uncovered_eq_nil.mp (by simpa using h t _ ⟨c, hc, rfl⟩)
    · rintro h t _ ⟨c, hc, rfl⟩
      simpa using issuerReport_uncovered_eq_nil.mpr (h t c hc)
  simp only [verifyAuthenticityByTenantWith, bind_ok, foldlM_tenantStep_ok_iff, refuse_ok, exists_const, pure_ok]
  rw [← hunc]
  constructor
  · intro hx
    rcases hx with ⟨_, ⟨hok, rfl⟩, hu, rfl⟩
    refine ⟨hok, ?_, rfl⟩
    cases ha : opts.allowUncovered
    · exact .inr (by simpa [ha] using hu)
    · exact .inl rfl
  · intro hx
    rcases hx with ⟨hok, hu, rfl⟩
    refine ⟨_, ⟨hok, rfl⟩, ?_, rfl⟩
    intro hx
    rcases hx with ⟨ha, hany⟩
    rcases hu with hu | hu
    · rw [ha] at hu; cases hu
    · rw [hany] at hu; cases hu

end SeamSdk
