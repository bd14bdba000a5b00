import SeamSdk.Verify.Delivery
import SeamSdk.Verify.IssuerRun
import SeamSdk.Verify.WalkReport

/-!
# Files of several tenants

A file of several tenants takes another way through `chain --issuer` than the files of one tenant it is made of: its
events are deduplicated, sorted and walked together, and then authenticated tenant by tenant instead of in one window.
Nothing of this shows, when every tenant of the file has a link and no two tenants share a chained `event_id`.

- `stream_eventsOf`, `distinctIds_iff_eventsOf`: each tenant's part of the stream is the stream of its own file;
- `authenticOk_iff`: both ways through the authentication ask the same of each tenant (`TenantsOk`);
- `cmdChain_composes`: the command succeeds on the file exactly if it does on each part, with the same reports.
-/

namespace SeamSdk

open ByteCodec Checked Event List

variable {x : Externs} {f : ChainFlags} {es : List Event} {r : ChainReport}

/-! ## A tenant's part of the stream -/

/-- What the command walks of the events of a file. -/
def stream (es : List Event) : List Event := sortBySeq (firstCopies es)

theorem eventsOf_snoc (t : String) (es : List Event) (e : Event) :
    eventsOf t (es ++ [e]) = if e.tenant = t then eventsOf t es ++ [e] else eventsOf t es := by
  by_cases h : e.tenant = t <;> simp [eventsOf, h]

theorem eventsOf_eq_self {t : String} (h : ∀ e ∈ es, e.tenant = t) : eventsOf t es = es := by
  rw [eventsOf, filter_eq_self]
  intro e he
  rw [h e he, beq_self_eq_true]

theorem eventsOf_eventsOf (t : String) (es : List Event) : eventsOf t (eventsOf t es) = eventsOf t es :=
  eventsOf_eq_self fun _ he => (mem_eventsOf.mp he).2

/-- The tenants that occur in a tenant's part. -/
theorem mem_tenants_eventsOf {t u : String} : u ∈ (eventsOf t es).map tenant ↔ u = t ∧ t ∈ es.map tenant := by
  simp only [mem_map, mem_eventsOf]
  constructor
  · rintro ⟨e, ⟨he, rfl⟩, rfl⟩
    exact ⟨rfl, e, he, rfl⟩
  · rintro ⟨rfl, e, he, rfl⟩
    exact ⟨e, ⟨he, rfl⟩, rfl⟩

/-- A copy of an event is of the same tenant, so collapsing copies does not mix the tenants. -/
theorem firstCopies_eventsOf (hid : ∀ e ∈ es, HasIdentity e) (t : String) :
    firstCopies (eventsOf t es) = eventsOf t (firstCopies es) := by
  induction es using List.reverseRecOn with
  | nil => rfl
  | append_singleton es e ih =>
    have hide : HasIdentity e := hid e (by simp)
    have hides : ∀ g ∈ es, HasIdentity g := fun g hg => hid g (mem_append_left _ hg)
    have ih := ih hides
    rw [firstCopies_snoc, eventsOf_snoc]
    rcases keepFirst_cases (firstCopies es) e with ⟨⟨g, hg, hb⟩, hk⟩ | ⟨hnew, hk⟩ <;> rw [hk]
    · obtain rfl : g = e := (hides g (mem_of_mem_firstCopies hg)).eq_of_bytes_eq hide hb
      split
      · rename_i ht
        rw [firstCopies_snoc, ih, keepFirst_of_mem (mem_eventsOf.mpr ⟨hg, ht⟩) rfl]
      · exact ih
    · rw [eventsOf_snoc]
      split
      · rw [firstCopies_snoc, ih, keepFirst_of_new fun g hg => hnew g (mem_eventsOf.mp hg).1]
      · exact ih

theorem sortBySeq_eventsOf (t : String) (es : List Event) : sortBySeq (eventsOf t es) = eventsOf t (sortBySeq es) :=
  (Classes.filter_sortByKey _ es).symm

/-- **A tenant's part of the stream** is the stream of its own file. -/
theorem stream_eventsOf (hid : ∀ e ∈ es, HasIdentity e) (t : String) :
    stream (eventsOf t es) = eventsOf t (stream es) := by
  rw [stream, firstCopies_eventsOf hid, sortBySeq_eventsOf, stream]

theorem mem_stream_iff (hid : ∀ e ∈ es, HasIdentity e) {e : Event} : e ∈ stream es ↔ e ∈ es := by
  rw [stream, mem_sortBySeq, mem_firstCopies hid]

/-- Chained events with distinct ids, tenant by tenant. -/
theorem distinctIds_iff_eventsOf (hid : ∀ e ∈ es, HasIdentity e)
    (hids : ∀ e ∈ es, ∀ e' ∈ es, e.isLink = true → e'.isLink = true → e.tenant ≠ e'.tenant → e.eventId ≠ e'.eventId) :
    DistinctIds (firstCopies es) ↔ ∀ t ∈ es.map tenant, DistinctIds (firstCopies (eventsOf t es)) := by
  have htenants : ∀ t, t ∈ (firstCopies es).map tenant ↔ t ∈ es.map tenant := by
    intro t
    simp [mem_firstCopies hid]
  rw [DistinctIds, Classes.pairwise_iff_classes tenant]
  · simp only [htenants, firstCopies_eventsOf hid]
    exact Iff.rfl
  · intro e he e' he' hne hl hl'
    rw [mem_firstCopies hid] at he he'
    exact hids e he e' he' hl hl' hne

/-! ## Both ways through the authentication -/

/-- A tenant's chain from the start. -/
def genesisChain (t : String) (es : List Event) : TenantChain := .ofLinks (0, genesis) (linksOf t es)

theorem genesisChain_eventsOf (t : String) (es : List Event) : genesisChain t (eventsOf t es) = genesisChain t es := by
  rw [genesisChain, linksOf_eventsOf_self, genesisChain]

theorem tenants_getElem? (h : chainByTenant x es ∅ = .ok r) {t : String} {c : TenantChain} :
    r.tenants[t]? = some c ↔ linksOf t es ≠ [] ∧ genesisChain t es = c := by
  rw [chainByTenant_tenants h, entryOf_eq_some, startOf_eq_genesis Std.ExtTreeMap.getElem?_empty, genesisChain]

theorem only_eq_genesisChain (h : chainByTenant x es ∅ = .ok r) {t : String} (hne : linksOf t es ≠ [])
    (honly : ∀ t', linksOf t' es ≠ [] → t' = t) : r.only = genesisChain t es := by
  rw [chainByTenant_only h hne honly, startOf_eq_genesis Std.ExtTreeMap.getElem?_empty, genesisChain]

/-- The window of a file of one tenant is the tenant's. -/
theorem window_eq_genesisChain (h : chainByTenant x es ∅ = .ok r) {t : String} (hne : linksOf t es ≠ [])
    (honly : ∀ t', linksOf t' es ≠ [] → t' = t) : r.window (baseOf none) = (genesisChain t es).window := by
  have hc := only_eq_genesisChain h hne honly
  have hheads : r.heads = (genesisChain t es).heads := congrArg TenantChain.heads hc
  have hschema : r.maxSchemaByLink = (genesisChain t es).maxSchemaByLink := congrArg TenantChain.maxSchemaByLink hc
  rw [ChainReport.window, hheads, hschema]
  rfl

/-- Every tenant that occurs has a link. -/
def EachLinked (es : List Event) : Prop := ∀ t ∈ es.map tenant, linksOf t es ≠ []

theorem EachLinked.eventsOf (hl : EachLinked es) (t : String) : EachLinked (eventsOf t es) := by
  intro u hu
  obtain ⟨rfl, ht⟩ := mem_tenants_eventsOf.mp hu
  rw [linksOf_eventsOf_self]
  exact hl u ht

theorem mem_tenants_stream (hid : ∀ e ∈ es, HasIdentity e) {t : String} :
    t ∈ (stream es).map tenant ↔ t ∈ es.map tenant := by
  simp [mem_stream_iff hid]

theorem EachLinked.stream (hl : EachLinked es) (hid : ∀ e ∈ es, HasIdentity e) : EachLinked (stream es) := by
  intro t ht
  exact (linksOf_ne_nil_congr (fun e => mem_stream_iff hid) t).mpr (hl t ((mem_tenants_stream hid).mp ht))

theorem mem_tenants_of_linksOf {t : String} (h : linksOf t es ≠ []) : t ∈ es.map tenant := by
  obtain ⟨e, he, -, rfl⟩ := linksOf_ne_nil.mp h
  exact mem_map_of_mem he

/-- When the report has at most one tenant, all events are of one tenant. -/
theorem EachLinked.single (hl : EachLinked es) (h : chainByTenant x es ∅ = .ok r) (hsize : ¬1 < r.tenants.size)
    {t : String} (ht : t ∈ es.map tenant) {e : Event} (he : e ∈ es) : e.tenant = t := by
  by_contra hne
  exact hsize ((one_lt_tenants_iff h).mpr ⟨e.tenant, t, hne, hl _ (mem_map_of_mem he), hl t ht⟩)

/-- What the command asks of a stream without an anchor, tenant by tenant. -/
structure TenantsOk (x : Externs) (strict : Bool) (issuers : List String) (es : List Event) : Prop where
  chain : ChainOk x ∅ es
  linked : strict = true → ∀ e ∈ es, e.isLink = true ∨ e.isAdvisory = true
  authentic : ∀ t ∈ es.map tenant, AuthOk x issuers (genesisChain t es).window (eventsOf t es)
  recomputed : ∀ e ∈ es, isUncovered x e = false

/-- **Both ways through the authentication** ask the same of each tenant. -/
theorem authenticOk_iff {issuers : List String} (h : chainByTenant x es ∅ = .ok r) (hl : EachLinked es)
    (hne : es ≠ []) : AuthenticOk x issuers none r es ↔
      (∀ t ∈ es.map tenant, AuthOk x issuers (genesisChain t es).window (eventsOf t es)) ∧
        ∀ e ∈ es, isUncovered x e = false := by
  rw [AuthenticOk]
  split
  · rw [Classes.forall_iff_classes tenant (P := fun e => isUncovered x e = false), ← forall₂_and]
    constructor
    · intro hall t ht
      exact hall t _ ((tenants_getElem? h).mpr ⟨hl t ht, rfl⟩)
    · intro hall t c hc
      obtain ⟨hlinks, rfl⟩ := (tenants_getElem? h).mp hc
      exact hall t (mem_tenants_of_linksOf hlinks)
  · rename_i hsize
    obtain ⟨e, he⟩ := exists_mem_of_ne_nil _ hne
    have ht : e.tenant ∈ es.map tenant := mem_map_of_mem he
    have hsame : ∀ t ∈ es.map tenant, t = e.tenant := by
      intro t ht'
      obtain ⟨e', he', rfl⟩ := mem_map.mp ht'
      exact hl.single h hsize ht he'
    have hwhole : eventsOf e.tenant es = es := eventsOf_eq_self fun e' he' => hl.single h hsize ht he'
    rw [window_eq_genesisChain h (hl _ ht) fun t' ht' => hsame t' (mem_tenants_of_linksOf ht')]
    refine and_congr_left fun _ => ⟨fun hok t ht' => ?_, fun hok => ?_⟩
    · rw [hsame t ht', hwhole]
      exact hok
    · have := hok _ ht
      rwa [hwhole] at this

theorem streamOk_iff (hi : f.issuers ≠ []) (hl : EachLinked es) (hne : es ≠ []) :
    (∃ r, StreamOk x f none none es r) ↔ TenantsOk x f.strict f.issuers es := by
  constructor
  · rintro ⟨r, hok⟩
    obtain ⟨hauth, hunc⟩ := (authenticOk_iff hok.walk hl hne).mp (hok.authentic hi)
    refine ⟨chainByTenant_ok_iff.mp ⟨r, hok.walk⟩, fun hs => ?_, hauth, hunc⟩
    exact (unverifiable_eq_nil hok.walk).mp (hok.strict hs)
  · intro hok
    obtain ⟨r, hr⟩ := chainByTenant_ok_iff.mpr hok.chain
    refine ⟨r, hr, fun t => ?_, by simp, fun hs => (unverifiable_eq_nil hr).mpr (hok.linked hs), fun _ => ?_⟩
    · rw [chainByTenant_unconsumed hr, unconsumedOf]
      split
      · simp
      · rfl
    · exact (authenticOk_iff hr hl hne).mpr ⟨hok.authentic, hok.recomputed⟩

/-- What is asked of a stream is asked of each tenant's part. -/
theorem tenantsOk_iff_eventsOf {strict : Bool} {issuers : List String} :
    TenantsOk x strict issuers es ↔ ∀ t ∈ es.map tenant, TenantsOk x strict issuers (eventsOf t es) := by
  constructor
  · intro h t ht
    refine ⟨h.chain.eventsOf t, fun hs e he => h.linked hs e (mem_eventsOf.mp he).1, fun u hu => ?_,
      fun e he => h.recomputed e (mem_eventsOf.mp he).1⟩
    obtain ⟨rfl, -⟩ := mem_tenants_eventsOf.mp hu
    rw [genesisChain_eventsOf, eventsOf_eventsOf]
    exact h.authentic u ht
  · intro h
    refine ⟨chainOk_iff_eventsOf.mpr fun t ht => (h t ht).chain, fun hs => ?_, fun t ht => ?_, ?_⟩
    · exact (Classes.forall_iff_classes tenant).mpr fun t ht => (h t ht).linked hs
    · have := (h t ht).authentic t (mem_tenants_eventsOf.mpr ⟨rfl, ht⟩)
      rwa [genesisChain_eventsOf, eventsOf_eventsOf] at this
    · exact (Classes.forall_iff_classes tenant).mpr fun t ht => (h t ht).recomputed

/-! ## The reports of a run -/

/-- The report on a tenant: its own, or the one of the file. -/
def Authenticity.of (a : Authenticity) (t : String) : Option IssuerReport :=
  match a.byTenant with
  | some m => m[t]?
  | none => a.single

/-- What is reported of a tenant does not depend on the way it was authenticated. -/
theorem authenticate_of {a : Authenticity} (h : chainByTenant x es ∅ = .ok r) (hi : f.issuers ≠ []) (hl : EachLinked es)
    (ha : authenticate x f none r es = .ok a) {t : String} (ht : t ∈ es.map tenant) :
    a.of t = some (issuerReport x (genesisChain t es).window (eventsOf t es)) := by
  rw [authenticate, if_neg hi] at ha
  split at ha
  · simp only [bind_ok, pure_ok, verifyAuthenticityByTenant_eq_ok_iff] at ha
    obtain ⟨_, ⟨-, -, rfl⟩, rfl⟩ := ha
    simp only [Authenticity.of, Std.ExtTreeMap.getElem?_map]
    rw [(tenants_getElem? h).mpr ⟨hl t ht, rfl⟩]
    rfl
  · rename_i hsize
    simp only [bind_ok, pure_ok, verifyWhole_ok_iff] at ha
    obtain ⟨_, ⟨-, -, rfl⟩, rfl⟩ := ha
    have hall : ∀ e ∈ es, e.tenant = t := fun e he => hl.single h hsize ht he
    rw [Authenticity.of, eventsOf_eq_self hall, window_eq_genesisChain h (hl t ht)]
    intro t' ht'
    obtain ⟨e, he, -, rfl⟩ := linksOf_ne_nil.mp ht'
    exact hall e he

/-- The events of one tenant are authenticated in one window. -/
theorem authenticate_single {a : Authenticity} (h : chainByTenant x es ∅ = .ok r) (hi : f.issuers ≠ [])
    (ha : authenticate x f none r es = .ok a) {t : String} (hall : ∀ e ∈ es, e.tenant = t) : a.of t = a.single := by
  have hsize : ¬1 < r.tenants.size := by
    rw [one_lt_tenants_iff h]
    rintro ⟨u, v, huv, hu, hv⟩
    obtain ⟨e, he, -, rfl⟩ := linksOf_ne_nil.mp hu
    obtain ⟨e', he', -, rfl⟩ := linksOf_ne_nil.mp hv
    exact huv ((hall e he).trans (hall e' he').symm)
  rw [authenticate, if_neg hi, if_neg hsize] at ha
  simp only [bind_ok, pure_ok] at ha
  obtain ⟨_, -, rfl⟩ := ha
  rfl

/-! ## The command -/

section Command

variable {x : Readers} {files : Files} {run : ChainRun}

theorem FileEvents.hasIdentity {path : String} (h : FileEvents x files path es) : ∀ e ∈ es, HasIdentity e := by
  obtain ⟨ls, -, hp⟩ := h
  exact parseLines_hasIdentity hp

/-- A run without anchors. -/
theorem cmdChain_eq_ok_iff_stream (hfrom : f.fromAnchor = none) (hexpect : f.expectAnchor = none)
    (hes : FileEvents x files f.path es) : cmdChain x files f = .ok run ↔
      es ≠ [] ∧ DistinctIds (firstCopies es) ∧ ∃ n, n + (firstCopies es).length = es.length ∧
        checkChain x.toExterns f none none (stream es) n = .ok run := by
  obtain ⟨ls, hls, hp⟩ := hes
  have hne : ls ≠ [] ↔ es ≠ [] := by
    rw [← length_pos_iff, ← length_pos_iff, (parseLines_ok_iff.mp hp).length_eq]
  rw [cmdChain_eq_ok_iff, hfrom, hexpect]
  constructor
  · intro h
    rcases h with ⟨anchor, expect, ls', es', kept, n, ha, he, hls', hne', hp', hd, hrun⟩
    obtain rfl := Except.ok.inj ha
    obtain rfl := Except.ok.inj he
    obtain rfl := Except.ok.inj (hls.symm.trans hls')
    obtain rfl := Except.ok.inj (hp.symm.trans hp')
    obtain ⟨hids, rfl, hn⟩ := dedup_eq_ok_iff.mp hd
    exact ⟨hne.mp hne', hids, n, hn, hrun⟩
  · intro h
    rcases h with ⟨hne', hids, n, hn, hrun⟩
    exact ⟨none, none, ls, es, _, n, rfl, rfl, hls, hne.mpr hne', hp, dedup_eq_ok_iff.mpr ⟨hids, rfl, hn⟩, hrun⟩

/-- When the command succeeds on a file, in terms of its tenants. -/
theorem exists_cmdChain_iff (hi : f.issuers ≠ []) (hfrom : f.fromAnchor = none) (hexpect : f.expectAnchor = none)
    (hes : FileEvents x files f.path es) (hl : EachLinked es) : (∃ run, cmdChain x files f = .ok run) ↔
      es ≠ [] ∧ DistinctIds (firstCopies es) ∧ TenantsOk x.toExterns f.strict f.issuers (stream es) := by
  simp only [cmdChain_eq_ok_iff_stream hfrom hexpect hes, exists_and_left]
  refine and_congr_right fun hne => and_congr_right fun _ => ?_
  have hne' : stream es ≠ [] := by
    obtain ⟨e, he⟩ := exists_mem_of_ne_nil _ hne
    exact ne_nil_of_mem ((mem_stream_iff hes.hasIdentity).mpr he)
  rw [← streamOk_iff hi (hl.stream hes.hasIdentity) hne']
  constructor
  · rintro ⟨run, n, -, hrun⟩
    obtain ⟨r, hok, -⟩ := checkChain_ok_iff.mp ⟨run, hrun, rfl⟩
    exact ⟨r, hok⟩
  · rintro ⟨r, hok⟩
    obtain ⟨n, hn⟩ := Nat.exists_eq_add_of_le' (firstCopies_length_le es)
    obtain ⟨run, hrun, -⟩ := checkChain_ok_iff.mpr ⟨r, hok, rfl⟩
    exact ⟨run, n, hn.symm, hrun⟩

/-- What a run reports of a tenant. -/
theorem cmdChain_reports (hi : f.issuers ≠ []) (hfrom : f.fromAnchor = none) (hexpect : f.expectAnchor = none)
    (hes : FileEvents x files f.path es) (hl : EachLinked es) (h : cmdChain x files f = .ok run) {t : String}
    (ht : t ∈ es.map tenant) : run.report.tenants[t]? = some (genesisChain t (stream es)) ∧
      run.authenticity.of t =
        some (issuerReport x.toExterns (genesisChain t (stream es)).window (eventsOf t (stream es))) ∧
      ((∀ e ∈ es, e.tenant = t) →
        run.report.only = genesisChain t (stream es) ∧ run.authenticity.single = run.authenticity.of t) := by
  have hid := hes.hasIdentity
  have hl := hl.stream hid
  rw [← mem_tenants_stream hid] at ht
  obtain ⟨-, -, n, -, hrun⟩ := (cmdChain_eq_ok_iff_stream hfrom hexpect hes).mp h
  have ha := checkChain_authenticate hrun
  obtain ⟨r, hok, hr⟩ := checkChain_ok_iff.mp ⟨run, hrun, rfl⟩
  rw [← hr] at ha ⊢
  refine ⟨(tenants_getElem? hok.walk).mpr ⟨hl t ht, rfl⟩, authenticate_of hok.walk hi hl ha ht, fun hall => ?_⟩
  have hall' : ∀ e ∈ stream es, e.tenant = t := fun e he => hall e ((mem_stream_iff hid).mp he)
  refine ⟨only_eq_genesisChain hok.walk (hl t ht) fun t' ht' => ?_, (authenticate_single hok.walk hi ha hall').symm⟩
  obtain ⟨e, he, -, rfl⟩ := linksOf_ne_nil.mp ht'
  exact hall' e he

/-- **Files of several tenants.** In a file every tenant of which has a link, with no chained `event_id` shared between
tenants, `chain --issuer` succeeds exactly if the file has an event and the command succeeds on each tenant's part of
it; and then it reports of each tenant what it reports of that part. -/
theorem cmdChain_composes {part : String → String} (hissuers : f.issuers ≠ []) (hfrom : f.fromAnchor = none)
    (hexpect : f.expectAnchor = none) (hfile : FileEvents x files f.path es)
    (hparts : ∀ t ∈ es.map tenant, FileEvents x files (part t) (eventsOf t es)) (hlinked : EachLinked es)
    (hids : ∀ e ∈ es, ∀ e' ∈ es, e.isLink = true → e'.isLink = true → e.tenant ≠ e'.tenant → e.eventId ≠ e'.eventId) :
    ((∃ run, cmdChain x files f = .ok run) ↔
      es ≠ [] ∧ ∀ t ∈ es.map tenant, ∃ run, cmdChain x files { f with path := part t } = .ok run) ∧
    ∀ run, cmdChain x files f = .ok run → ∀ t ∈ es.map tenant,
      ∀ run', cmdChain x files { f with path := part t } = .ok run' →
        ∃ c ir, run.report.tenants[t]? = some c ∧ run.authenticity.of t = some ir ∧
          run'.report.only = c ∧ run'.authenticity.single = some ir := by
  have hid := hfile.hasIdentity
  constructor
  · have hpart : ∀ t ∈ es.map tenant, (∃ run, cmdChain x files { f with path := part t } = .ok run) ↔
        DistinctIds (firstCopies (eventsOf t es)) ∧
          TenantsOk x.toExterns f.strict f.issuers (eventsOf t (stream es)) := by
      intro t ht
      have hne : eventsOf t es ≠ [] := fun hnil => by simpa [hnil] using mem_tenants_eventsOf.mpr ⟨rfl, ht⟩
      rw [exists_cmdChain_iff (f := { f with path := part t }) hissuers hfrom hexpect (hparts t ht)
        (hlinked.eventsOf t), stream_eventsOf hid]
      exact and_iff_right hne
    rw [exists_cmdChain_iff hissuers hfrom hexpect hfile hlinked, distinctIds_iff_eventsOf hid hids,
      tenantsOk_iff_eventsOf]
    simp only [mem_tenants_stream hid, ← forall₂_and]
    exact and_congr_right fun _ => forall₂_congr fun t ht => (hpart t ht).symm
  · intro run hrun t ht run' hrun'
    obtain ⟨hc, hir, -⟩ := cmdChain_reports hissuers hfrom hexpect hfile hlinked hrun ht
    obtain ⟨-, hir', hsingle⟩ := cmdChain_reports (f := { f with path := part t }) hissuers hfrom hexpect (hparts t ht)
      (hlinked.eventsOf t) hrun' (mem_tenants_eventsOf.mpr ⟨rfl, ht⟩)
    obtain ⟨honly, hsingle⟩ := hsingle fun e he => (mem_eventsOf.mp he).2
    rw [stream_eventsOf hid, genesisChain_eventsOf] at honly hir'
    rw [eventsOf_eventsOf] at hir'
    exact ⟨_, _, hc, hir, honly, hsingle.trans hir'⟩

end Command

/-- A file without an event has no parts to fail on, and is refused. -/
theorem cmdChain_composes_empty :
    let x := Readers.sample [] []
    let flags := ChainFlags.sample [sampleAid]
    FileEvents x (.sample []) flags.path [] ∧ EachLinked [] ∧
      (∀ t ∈ ([] : List Event).map tenant, ∃ run, cmdChain x (.sample []) { flags with path := t } = .ok run) ∧
      ¬∃ run, cmdChain x (.sample []) flags = .ok run := by
  intro x flags
  have hfile : FileEvents x (.sample []) flags.path [] := fileEvents_sample (fun _ he => by cases he) _
  have hlinked : EachLinked [] := fun _ ht => by cases ht
  refine ⟨hfile, hlinked, fun _ ht => (by cases ht), fun hrun => ?_⟩
  exact ((exists_cmdChain_iff (List.cons_ne_nil _ _) rfl rfl hfile hlinked).mp hrun).1 rfl

/-- The whole file under its name, and each tenant's part under the tenant's. -/
def Files.parts (es : List Event) : Files :=
  ⟨fun path => .ok (RustText.unlines ((if path = "events.jsonl" then es else eventsOf path es).map protobufLine)),
    .error ""⟩

theorem eventsOf_withIdentity (t : String) (es : List Event) :
    eventsOf t (es.map withIdentity) = (eventsOf t es).map withIdentity := by
  rw [eventsOf, filter_map, eventsOf]
  rfl

theorem fileEvents_parts {x : Readers} {es : List Event} (hid : ∀ e ∈ es, e.eventId ≠ "") (hdec : Decodes x es)
    {path : String} (hpath : path ≠ "-") : FileEvents x (.parts es) path
      ((if path = "events.jsonl" then es else eventsOf path es).map withIdentity) := by
  have hsub : ∀ e ∈ if path = "events.jsonl" then es else eventsOf path es, e ∈ es := by
    intro e he
    split at he
    · exact he
    · exact (mem_eventsOf.mp he).1
  refine ⟨_, ?_, parseLines_protobuf (fun e he => hid e (hsub e he)) fun e he => hdec e (hsub e he)⟩
  rw [readLines, if_neg hpath]
  exact congrArg Except.ok (eventLines_protobuf _)

/-- Two tenants with their attestations. -/
theorem cmdChain_composes_two_tenants :
    let linkA := sealing "a" 1 genesis (sampleDecision "d1" "a")
    let linkB := sealing "b" 2 genesis (sampleDecision "d2" "b")
    let as := [sampleAttestation "a" 1 linkA.linkHead, sampleAttestation "b" 1 linkB.linkHead]
    let es := linkA :: linkB :: as.map (attesting 3)
    let flags := ChainFlags.sample [sampleAid]
    (∃ run, cmdChain (.sample as es) (.parts es) flags = .ok run) ∧
      ∀ t ∈ ["a", "b"], ∃ run, cmdChain (.sample as es) (.parts es) { flags with path := t } = .ok run := by
  intro linkA linkB as es flags
  have hid : ∀ e ∈ es, e.eventId ≠ "" := by decide
  have htenants : (es.map withIdentity).map tenant = ["a", "b", "a", "b"] := by decide +kernel
  have hparts : ∀ path, path ≠ "-" → FileEvents (.sample as es) (.parts es) path
      ((if path = "events.jsonl" then es else eventsOf path es).map withIdentity) :=
    fun path => fileEvents_parts hid (Readers.sample_decodes as es)
  have hfile : FileEvents (.sample as es) (.parts es) flags.path (es.map withIdentity) :=
    hparts "events.jsonl" (by decide)
  have hown : ∀ t ∈ (es.map withIdentity).map tenant,
      FileEvents (.sample as es) (.parts es) t (eventsOf t (es.map withIdentity)) := by
    rw [htenants]
    intro t ht
    have hne : t ≠ "-" ∧ t ≠ "events.jsonl" := by
      constructor <;> rintro rfl <;> simp at ht
    have hpart := hparts t hne.1
    rwa [if_neg hne.2, ← eventsOf_withIdentity] at hpart
  have hlinked : ∀ t ∈ (es.map withIdentity).map tenant, linksOf t (es.map withIdentity) ≠ [] := by
    decide +kernel
  obtain ⟨run, hrun, hsample⟩ := exists_cmdChain_sample as es (List.cons_ne_nil _ _) hid (by decide +kernel)
  rw [cmdChain_eq_ok_iff_stream rfl rfl hsample,
    ← cmdChain_eq_ok_iff_stream (f := flags) rfl rfl hfile] at hrun
  have hall := (cmdChain_composes (List.cons_ne_nil _ _) rfl rfl hfile hown hlinked (by decide +kernel)).1.mp ⟨run, hrun⟩
  rw [htenants] at hall
  exact ⟨⟨run, hrun⟩, fun t ht => hall.2 t (List.mem_append_left _ ht)⟩

end SeamSdk
