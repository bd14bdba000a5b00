import SeamSdk.Lib.HashChain
import SeamSdk.Verify.KindPayload

/-!
# The chain walk

`chainByTenant` walks a stream once and keeps one running head for each tenant, from the tenant's anchor or from
genesis. Its loop body is `chainStep`; what a run over a stream has computed is `Tracks`, read off the links of each
tenant (`linksOf`).

- `chainStep_ok`, `chainStep_tracks`: a step succeeds exactly on an event the links before it admit, and then
  `Tracks` goes on to hold;
- `chainByTenant_eq_ok_iff`: the walk accepts exactly the streams that meet `ChainOk`, in which every event is bound
  to its kind and each tenant's own links are chained from its own start, and reports the state that tracks them;
- `chainByTenant_entry`: an entry of the report is the chain of the tenant's links.
-/

namespace SeamSdk

open ByteCodec Checked Std.ExtTreeMap

/-- `BTreeMap` over tenant names. -/
abbrev TenantMap (α : Type) := Std.ExtTreeMap String α

/-- The head of the empty chain: 32 zero bytes. -/
def genesis : Bytes := List.replicate 32 0

/-- One tenant's chain within a window. `heads[k]` is the head after `k` links past the start. -/
structure TenantChain where
  head : Bytes
  links : Nat
  heads : List Bytes
  maxSchemaByLink : List UInt32
  baseLen : UInt64
  deriving DecidableEq, Repr

structure ChainReport where
  events : Nat
  links : Nat
  advisory : Nat
  duplicates : Nat
  unverifiable : List UInt64
  unmodelled : List (UInt64 × String)
  head : Bytes
  heads : List Bytes
  maxSchemaByLink : List UInt32
  baseLen : UInt64
  tenants : TenantMap TenantChain
  unconsumedAnchors : TenantMap UInt64

/-- The chain a tenant starts with at `(base_len, base_head)`. -/
def TenantChain.start (base : UInt64 × Bytes) : TenantChain := ⟨base.2, 0, [base.2], [0], base.1⟩

/-- The running maximum of the decisions' `schema_version`. -/
def maxSchema (m : UInt32) (e : Event) : UInt32 :=
  match e.decision with
  | some d => max m d.schemaVersion
  | none => m

/-- Append a verified link that produces `checksum`. -/
def TenantChain.push (c : TenantChain) (e : Event) (checksum : Bytes) : TenantChain where
  head := checksum
  links := c.links + 1
  heads := c.heads ++ [checksum]
  maxSchemaByLink := c.maxSchemaByLink ++ [maxSchema (c.maxSchemaByLink.getLast?.getD 0) e]
  baseLen := c.baseLen

/-- The running head at an absolute position, if the window holds one. -/
def TenantChain.headAt (c : TenantChain) (p : Nat) : Option Bytes :=
  if c.baseLen.toNat ≤ p then c.heads[p - c.baseLen.toNat]? else none

/-- The anchor of a tenant, or genesis. -/
def startOf (anchors : TenantMap (UInt64 × Bytes)) (t : String) : UInt64 × Bytes := anchors[t]?.getD (0, genesis)

/-- What the walk carries from event to event. -/
structure Walk where
  tenants : TenantMap TenantChain
  unconsumedAnchors : TenantMap UInt64
  advisory : Nat
  unverifiable : List UInt64
  unmodelled : List (UInt64 × String)

def Walk.init (anchors : TenantMap (UInt64 × Bytes)) : Walk := ⟨∅, anchors.map fun _ a => a.1, 0, [], []⟩

namespace Walk

variable (anchors : TenantMap (UInt64 × Bytes)) (w : Walk) (e : Event)

/-- No link of the tenant has been seen. -/
def isFresh (t : String) : Bool := !w.tenants.contains t

/-- The chain a tenant's next link extends; a fresh tenant gets its start. -/
def chainOf (t : String) : TenantChain := w.tenants[t]?.getD (.start (startOf anchors t))

def pushLink (checksum : Bytes) : Walk :=
  { w with
    tenants := w.tenants.insert e.tenant ((w.chainOf anchors e.tenant).push e checksum)
    unconsumedAnchors := if w.isFresh e.tenant then w.unconsumedAnchors.erase e.tenant else w.unconsumedAnchors
    unmodelled := if e.isModelled then w.unmodelled else w.unmodelled ++ [(e.seq, e.kind)] }

/-- An event without chain fields. A chained kind among them is pre-cutover history or a strip; the two cannot be
told apart, so it is disclosed and not refused. -/
def skip : Walk :=
  if e.isAdvisory then { w with advisory := w.advisory + 1 }
  else { w with unverifiable := w.unverifiable ++ [e.seq] }

end Walk

section Walk

variable (x : Externs)

/-- The chain link: the head after `digest` is linked to `prev`. -/
def link (prev digest : Bytes) : Bytes := x.sha256 (prev ++ digest)

/-- The event as the link of `digest` to `prev`. -/
def Event.chainedTo (e : Event) (prev digest : Bytes) : Event :=
  { e with prevChecksum := prev, digest := some digest, checksum := some (link x prev digest) }

def nonGenesisMessage (e : Event) (head : Bytes) : String :=
  s!"seq {e.seq}: NON-GENESIS FIRST LINK — tenant {x.debugStr e.tenant}'s first observed chained event does " ++
  s!"not start at genesis.\n  expected {RustText.hex head}\n  got      {RustText.hex e.prevChecksum}\n  " ++
  "EITHER this event was forged/inserted/reordered, OR this is an honest export that " ++
  "begins mid-chain for this tenant (a window cut after this tenant's genesis, or a " ++
  "cutover-spanning export predating this tenant's chain partitioning). Re-run with " ++
  "--from-anchor over a validated anchor for this tenant to resolve the ambiguity; " ++
  "absent one, treat this as tampering."

def brokenChainMessage (e : Event) (head : Bytes) : String :=
  s!"seq {e.seq}: BROKEN CHAIN — prev_checksum does not match tenant {x.debugStr e.tenant}'s running head.\n  " ++
  s!"expected {RustText.hex head}\n  got      {RustText.hex e.prevChecksum}\n  " ++
  "An event was forged, inserted, reordered, dropped, or had its chain fields stripped at " ++
  "or before this point."

def forgedLinkMessage (e : Event) (expect checksum : Bytes) : String :=
  s!"seq {e.seq}: FORGED LINK — checksum != H(prev_checksum ‖ digest) for tenant {x.debugStr e.tenant}.\n  " ++
  s!"expected {RustText.hex expect}\n  got      {RustText.hex checksum}\n  " ++
  "This event's own digest does not produce the head it claims. Its body was rewritten."

/-- The loop body of `chainByTenant`. -/
def chainStep (anchors : TenantMap (UInt64 × Bytes)) (w : Walk) (e : Event) : Except String Walk := do
  checkKindPayload e
  match e.digest, e.checksum with
  | some digest, some checksum =>
    let chain := w.chainOf anchors e.tenant
    refuse (e.prevChecksum ≠ chain.head)
      (if w.isFresh e.tenant ∧ chain.links = 0 ∧ chain.baseLen = 0 then nonGenesisMessage x e chain.head
        else brokenChainMessage x e chain.head)
    let expect := link x e.prevChecksum digest
    refuse (checksum ≠ expect) (forgedLinkMessage x e expect checksum)
    return w.pushLink anchors e checksum
  | _, _ => return w.skip e

/-- The one chain of a single-tenant window; the genesis sentinel otherwise. -/
def singleTenant (tenants : TenantMap TenantChain) : TenantChain :=
  match tenants.toList with
  | [(_, only)] => only
  | _ => .start (0, genesis)

def Walk.report (w : Walk) (events : List Event) : ChainReport :=
  let only := singleTenant w.tenants
  { events := events.length, links := only.links, advisory := w.advisory, duplicates := 0,
    unverifiable := w.unverifiable, unmodelled := w.unmodelled, head := only.head, heads := only.heads,
    maxSchemaByLink := only.maxSchemaByLink, baseLen := only.baseLen, tenants := w.tenants,
    unconsumedAnchors := w.unconsumedAnchors }

/-- Verify the hash chains of a stream, one running head for each tenant. -/
def chainByTenant (events : List Event) (anchors : TenantMap (UInt64 × Bytes)) : Except String ChainReport := do
  let w ← events.foldlM (chainStep x anchors) (.init anchors)
  return w.report events

/-- The walk from an anchored start of `anchorTenant`; every other tenant starts at genesis. -/
def chainAnchored (events : List Event) (anchorTenant : String) (baseLen : UInt64) (baseHead : Bytes) :
    Except String ChainReport :=
  chainByTenant x events (if baseLen ≠ 0 then (∅ : TenantMap _).insert anchorTenant (baseLen, baseHead) else ∅)

/-- The walk from genesis. -/
def chain (events : List Event) : Except String ChainReport := chainAnchored x events "" 0 genesis

end Walk

/-! ## What a walk has read -/

/-- The links of a tenant, in stream order. -/
def linksOf (t : String) (es : List Event) : List Event := es.filter fun e => e.isLink && e.tenant == t

/-- The chain of a list of links. -/
def TenantChain.ofLinks (base : UInt64 × Bytes) (ls : List Event) : TenantChain where
  head := HashChain.lastHead Event.linkHead base.2 ls
  links := ls.length
  heads := HashChain.heads Event.linkHead base.2 ls
  maxSchemaByLink := ls.scanl maxSchema 0
  baseLen := base.1

/-- The tenant's entry in a report: there is one as soon as it has a link. -/
def entryOf (anchors : TenantMap (UInt64 × Bytes)) (t : String) (es : List Event) : Option TenantChain :=
  if linksOf t es = [] then none else some (.ofLinks (startOf anchors t) (linksOf t es))

/-- The anchors no link has consumed. -/
def unconsumedOf (anchors : TenantMap (UInt64 × Bytes)) (t : String) (es : List Event) : Option UInt64 :=
  if linksOf t es = [] then anchors[t]?.map Prod.fst else none

/-- The state of a walk that has read `es`. -/
structure Tracks (anchors : TenantMap (UInt64 × Bytes)) (es : List Event) (w : Walk) : Prop where
  tenants : ∀ t, w.tenants[t]? = entryOf anchors t es
  unconsumed : ∀ t, w.unconsumedAnchors[t]? = unconsumedOf anchors t es
  advisory : w.advisory = es.countP fun e => !e.isLink && e.isAdvisory
  unverifiable : w.unverifiable = (es.filter fun e => !e.isLink && !e.isAdvisory).map Event.seq
  unmodelled : w.unmodelled = (es.filter fun e => e.isLink && !e.isModelled).map fun e => (e.seq, e.kind)

/-- Links that chain from a head: each extends the one before it and produces the hash it claims. -/
structure Chained (x : Externs) (start : Bytes) (ls : List Event) : Prop where
  linked : HashChain.Linked Event.prevChecksum Event.linkHead start ls
  hashed : ∀ e ∈ ls, e.linkHead = link x e.prevChecksum e.linkDigest

/-- **What the walk accepts.** -/
structure ChainOk (x : Externs) (anchors : TenantMap (UInt64 × Bytes)) (es : List Event) : Prop where
  bound : ∀ e ∈ es, KindBound e
  chained : ∀ t, Chained x (startOf anchors t).2 (linksOf t es)

/-- The events that may come after `pre`. -/
def Admits (x : Externs) (anchors : TenantMap (UInt64 × Bytes)) (pre : List Event) (e : Event) : Prop :=
  KindBound e ∧ (e.isLink = true →
    e.prevChecksum = HashChain.lastHead Event.linkHead (startOf anchors e.tenant).2 (linksOf e.tenant pre) ∧
    e.linkHead = link x e.prevChecksum e.linkDigest)

variable {x : Externs} {anchors : TenantMap (UInt64 × Bytes)}

theorem linksOf_append (t : String) (es fs : List Event) : linksOf t (es ++ fs) = linksOf t es ++ linksOf t fs :=
  List.filter_append ..

theorem linksOf_singleton (t : String) (e : Event) :
    linksOf t [e] = if e.isLink = true ∧ e.tenant = t then [e] else [] := by
  simp [linksOf, List.filter_singleton]

variable {es : List Event} {e : Event} {w w' : Walk} {t : String} {r : ChainReport}

theorem mem_linksOf : e ∈ linksOf t es ↔ e ∈ es ∧ e.isLink = true ∧ e.tenant = t := by
  simp [linksOf]

theorem linksOf_eq_nil (h : ∀ e ∈ es, e.tenant ≠ t) : linksOf t es = [] := by
  rw [linksOf, List.filter_eq_nil_iff]
  intro e he hl
  exact h e he (by simpa using (Bool.and_eq_true_iff.mp hl).2)

@[simp] theorem TenantChain.ofLinks_nil (base : UInt64 × Bytes) : TenantChain.ofLinks base [] = .start base := rfl

@[simp] theorem TenantChain.ofLinks_links (base : UInt64 × Bytes) (ls : List Event) :
    (TenantChain.ofLinks base ls).links = ls.length := rfl

@[simp] theorem TenantChain.ofLinks_baseLen (base : UInt64 × Bytes) (ls : List Event) :
    (TenantChain.ofLinks base ls).baseLen = base.1 := rfl

@[simp] theorem TenantChain.ofLinks_heads (base : UInt64 × Bytes) (ls : List Event) :
    (TenantChain.ofLinks base ls).heads = HashChain.heads Event.linkHead base.2 ls := rfl

/-- Pushing a link is appending it. -/
theorem TenantChain.ofLinks_push (base : UInt64 × Bytes) (ls : List Event) (e : Event) :
    (TenantChain.ofLinks base ls).push e e.linkHead = .ofLinks base (ls ++ [e]) := by
  simp [TenantChain.push, TenantChain.ofLinks, HashChain.heads_append, List.scanl_append,
    List.getLast?_scanl]

/-- What the walk finds for a tenant is the chain of the tenant's links so far. -/
theorem Tracks.chainOf_eq (h : Tracks anchors es w) (t : String) :
    w.chainOf anchors t = .ofLinks (startOf anchors t) (linksOf t es) := by
  rw [Walk.chainOf, h.tenants, entryOf]
  split
  · rename_i hnil
    rw [hnil]; rfl
  · rfl

theorem Tracks.isFresh_iff (h : Tracks anchors es w) (t : String) : w.isFresh t = true ↔ linksOf t es = [] := by
  rw [Walk.isFresh, contains_eq_isSome_getElem?, h.tenants, entryOf]
  split <;> simp [*]

theorem Tracks.init : Tracks anchors [] (.init anchors) where
  tenants t := by simp [Walk.init, entryOf, linksOf]
  unconsumed t := by simp [Walk.init, unconsumedOf, linksOf, getElem?_map]
  advisory := rfl
  unverifiable := rfl
  unmodelled := rfl

/-- Without a link of its own, a tenant's entry does not change. -/
theorem linksOf_snoc_of_ne (h : ¬(e.isLink = true ∧ e.tenant = t)) : linksOf t (es ++ [e]) = linksOf t es := by
  rw [linksOf_append, linksOf_singleton, if_neg h, List.append_nil]

theorem linksOf_snoc_self (h : e.isLink = true) : linksOf e.tenant (es ++ [e]) = linksOf e.tenant es ++ [e] := by
  rw [linksOf_append, linksOf_singleton, if_pos ⟨h, rfl⟩]

theorem Tracks.skip (h : Tracks anchors es w) (he : e.isLink = false) : Tracks anchors (es ++ [e]) (w.skip e) := by
  have hsnoc : ∀ t, linksOf t (es ++ [e]) = linksOf t es := fun t => linksOf_snoc_of_ne (by simp [he])
  cases ha : e.isAdvisory <;>
  · simp only [Walk.skip, ha, if_true, Bool.false_eq_true, if_false]
    constructor
    · intro t; rw [h.tenants, entryOf, entryOf, hsnoc]
    · intro t; rw [h.unconsumed, unconsumedOf, unconsumedOf, hsnoc]
    · simp [h.advisory, he, ha]
    · simp [h.unverifiable, he, ha]
    · simp [h.unmodelled, he]

theorem Tracks.pushLink (h : Tracks anchors es w) (he : e.isLink = true) :
    Tracks anchors (es ++ [e]) (w.pushLink anchors e e.linkHead) where
  tenants t := by
    simp only [Walk.pushLink, getElem?_insert, Std.LawfulEqCmp.compare_eq_iff_eq, entryOf]
    by_cases ht : e.tenant = t
    · subst ht
      rw [if_pos rfl, linksOf_snoc_self he, h.chainOf_eq, TenantChain.ofLinks_push, if_neg (by simp)]
    · rw [if_neg ht, linksOf_snoc_of_ne (fun hl => ht hl.2), h.tenants, entryOf]
  unconsumed t := by
    rw [unconsumedOf]
    by_cases ht : e.tenant = t
    · subst ht
      rw [linksOf_snoc_self he, if_neg (by simp)]
      simp only [Walk.pushLink]
      split
      · simp
      · rename_i hf
        rw [h.isFresh_iff] at hf
        rw [h.unconsumed, unconsumedOf, if_neg hf]
    · rw [linksOf_snoc_of_ne (fun hl => ht hl.2), ← unconsumedOf, ← h.unconsumed]
      simp only [Walk.pushLink]
      split
      · simp [getElem?_erase, ht]
      · rfl
  advisory := by simp [Walk.pushLink, h.advisory, he]
  unverifiable := by simp [Walk.pushLink, h.unverifiable, he]
  unmodelled := by
    cases hm : e.isModelled <;> simp [Walk.pushLink, h.unmodelled, he, hm]

/-! ## One step -/

theorem chainStep_link (he : e.isLink = true) :
    chainStep x anchors w e = .ok w' ↔ KindBound e ∧ e.prevChecksum = (w.chainOf anchors e.tenant).head ∧
      e.linkHead = link x e.prevChecksum e.linkDigest ∧ w.pushLink anchors e e.linkHead = w' := by
  obtain ⟨d, c, hd, hc⟩ := Event.isLink_iff.mp he
  simp only [chainStep, hd, hc, bind_ok, checkKindPayload_ok_iff, refuse_ok, pure_ok, ne_eq, not_not,
    Event.linkHead, Event.linkDigest, Option.getD_some, exists_const]

theorem chainStep_skip (he : e.isLink = false) : chainStep x anchors w e = .ok w' ↔ KindBound e ∧ w.skip e = w' := by
  have hnone : e.digest = none ∨ e.checksum = none := by
    rw [Event.isLink, Bool.and_eq_false_iff] at he
    simpa using he
  rw [chainStep, bind_ok]
  rcases hnone with h | h
  · simp [h, checkKindPayload_ok_iff, pure_ok]
  · cases hd : e.digest <;> simp only [h, checkKindPayload_ok_iff, pure_ok, exists_const]

/-- A step succeeds on an event its past admits, and keeps the state in step with what was read. -/
theorem chainStep_tracks (h : Tracks anchors es w) (ha : Admits x anchors es e) :
    ∃ w', chainStep x anchors w e = .ok w' ∧ Tracks anchors (es ++ [e]) w' := by
  cases he : e.isLink with
  | true =>
    obtain ⟨hprev, hhash⟩ := ha.2 he
    refine ⟨_, (chainStep_link he).mpr ⟨ha.1, ?_, hhash, rfl⟩, h.pushLink he⟩
    rw [h.chainOf_eq]
    exact hprev
  | false => exact ⟨_, (chainStep_skip he).mpr ⟨ha.1, rfl⟩, h.skip he⟩

/-- A step that succeeds was admitted. -/
theorem chainStep_ok (h : Tracks anchors es w) (hs : chainStep x anchors w e = .ok w') : Admits x anchors es e := by
  cases he : e.isLink with
  | true =>
    obtain ⟨hb, hprev, hhash, -⟩ := (chainStep_link he).mp hs
    rw [h.chainOf_eq] at hprev
    exact ⟨hb, fun _ => ⟨hprev, hhash⟩⟩
  | false => exact ⟨((chainStep_skip he).mp hs).1, fun hl => by rw [he] at hl; cases hl⟩

/-! ## A whole run -/

theorem Chained.append {s : Bytes} {ls ms : List Event} :
    Chained x s (ls ++ ms) ↔ Chained x s ls ∧ Chained x (HashChain.lastHead Event.linkHead s ls) ms := by
  constructor
  · intro h
    rcases h with ⟨hl, hh⟩
    obtain ⟨h1, h2⟩ := (HashChain.linked_append s ls ms).mp hl
    exact ⟨⟨h1, fun e he => hh e (List.mem_append_left _ he)⟩, h2, fun e he => hh e (List.mem_append_right _ he)⟩
  · intro h
    rcases h with ⟨⟨h1, hh1⟩, h2, hh2⟩
    exact ⟨(HashChain.linked_append s ls ms).mpr ⟨h1, h2⟩, fun e he => (List.mem_append.mp he).elim (hh1 e) (hh2 e)⟩

theorem Chained.nil (s : Bytes) : Chained x s [] := ⟨trivial, by simp⟩

theorem Chained.singleton {s : Bytes} :
    Chained x s [e] ↔ e.prevChecksum = s ∧ e.linkHead = link x e.prevChecksum e.linkDigest :=
  ⟨fun h => ⟨h.linked.1, h.hashed e (List.mem_singleton_self e)⟩,
    fun h => ⟨⟨h.1, trivial⟩, fun f hf => by rw [List.mem_singleton.mp hf]; exact h.2⟩⟩

theorem ChainOk.append_left {fs : List Event} (h : ChainOk x anchors (es ++ fs)) : ChainOk x anchors es where
  bound e he := h.bound e (List.mem_append_left _ he)
  chained t := (Chained.append.mp (linksOf_append t es fs ▸ h.chained t)).1

/-- A stream is accepted one event at a time. -/
theorem ChainOk.snoc : ChainOk x anchors (es ++ [e]) ↔ ChainOk x anchors es ∧ Admits x anchors es e := by
  constructor
  · intro h
    refine ⟨h.append_left, h.bound e (by simp), fun he => ?_⟩
    have hc := h.chained e.tenant
    rw [linksOf_snoc_self he] at hc
    exact Chained.singleton.mp (Chained.append.mp hc).2
  · intro hx
    rcases hx with ⟨h, hb, hl⟩
    refine ⟨fun f hf => ?_, fun t => ?_⟩
    · rcases List.mem_append.mp hf with hf | hf
      · exact h.bound f hf
      · rw [List.mem_singleton.mp hf]; exact hb
    · by_cases ht : e.isLink = true ∧ e.tenant = t
      · obtain ⟨he, rfl⟩ := ht
        rw [linksOf_snoc_self he]
        exact Chained.append.mpr ⟨h.chained e.tenant, Chained.singleton.mpr (hl he)⟩
      · rw [linksOf_snoc_of_ne ht]
        exact h.chained t

theorem chainOk_nil : ChainOk x anchors [] := ⟨by simp, fun _ => Chained.nil _⟩

theorem Tracks.unique (h : Tracks anchors es w) (h' : Tracks anchors es w') : w = w' := by
  obtain ⟨ts, ua, ad, uv, um⟩ := w
  obtain ⟨ts', ua', ad', uv', um'⟩ := w'
  obtain rfl : ts = ts' := ext_getElem? fun t => (h.tenants t).trans (h'.tenants t).symm
  obtain rfl : ua = ua' := ext_getElem? fun t => (h.unconsumed t).trans (h'.unconsumed t).symm
  obtain rfl : ad = ad' := h.advisory.trans h'.advisory.symm
  obtain rfl : uv = uv' := h.unverifiable.trans h'.unverifiable.symm
  obtain rfl : um = um' := h.unmodelled.trans h'.unmodelled.symm
  rfl

/-- The walk over a stream that is accepted ends in the state that stands for it. -/
theorem foldlM_chainStep (es : List Event) :
    (ChainOk x anchors es → ∃ w, es.foldlM (chainStep x anchors) (.init anchors) = .ok w ∧ Tracks anchors es w) ∧
      ∀ w, es.foldlM (chainStep x anchors) (.init anchors) = .ok w → ChainOk x anchors es ∧ Tracks anchors es w :=
  foldlM_from_start (P := Tracks anchors) (Q := Admits x anchors) (R := ChainOk x anchors)
    (fun _ _ _ => chainStep_tracks) (fun _ _ _ _ => chainStep_ok) (fun _ _ => ChainOk.snoc) Tracks.init chainOk_nil es

theorem foldlM_chainStep_ok_iff :
    es.foldlM (chainStep x anchors) (.init anchors) = .ok w ↔ ChainOk x anchors es ∧ Tracks anchors es w := by
  obtain ⟨hrun, hback⟩ := foldlM_chainStep (x := x) es
  constructor
  · exact hback w
  · intro h
    obtain ⟨w', hw', ht'⟩ := hrun h.1
    rw [hw', h.2.unique ht']

/-- **The chain walk.** It accepts exactly the streams that meet `ChainOk`, and reports the state that stands for
them. -/
theorem chainByTenant_eq_ok_iff :
    chainByTenant x es anchors = .ok r ↔ ChainOk x anchors es ∧ ∃ w, Tracks anchors es w ∧ w.report es = r := by
  simp only [chainByTenant, bind_ok, foldlM_chainStep_ok_iff, pure_ok]
  constructor
  · intro h
    rcases h with ⟨w, ⟨hok, ht⟩, hr⟩; exact ⟨hok, w, ht, hr⟩
  · intro h
    rcases h with ⟨hok, w, ht, hr⟩; exact ⟨w, ⟨hok, ht⟩, hr⟩

theorem chainByTenant_ok_iff : (∃ r, chainByTenant x es anchors = .ok r) ↔ ChainOk x anchors es := by
  constructor
  · intro h
    obtain ⟨r, hr⟩ := h
    exact (chainByTenant_eq_ok_iff.mp hr).1
  · intro hok
    obtain ⟨w, -, ht⟩ := (foldlM_chainStep es).1 hok
    exact ⟨_, chainByTenant_eq_ok_iff.mpr ⟨hok, w, ht, rfl⟩⟩

/-- A report holds an entry for each tenant with a link, and no other. -/
theorem chainByTenant_tenants (h : chainByTenant x es anchors = .ok r) (t : String) :
    r.tenants[t]? = entryOf anchors t es := by
  obtain ⟨-, w, hw, rfl⟩ := chainByTenant_eq_ok_iff.mp h
  exact hw.tenants t

theorem chainByTenant_unconsumed (h : chainByTenant x es anchors = .ok r) (t : String) :
    r.unconsumedAnchors[t]? = unconsumedOf anchors t es := by
  obtain ⟨-, w, hw, rfl⟩ := chainByTenant_eq_ok_iff.mp h
  exact hw.unconsumed t

theorem entryOf_eq_some {c : TenantChain} :
    entryOf anchors t es = some c ↔ linksOf t es ≠ [] ∧ TenantChain.ofLinks (startOf anchors t) (linksOf t es) = c := by
  unfold entryOf
  split <;> simp [*]

/-- An entry of a report is the chain of the tenant's links. -/
theorem chainByTenant_entry (h : chainByTenant x es anchors = .ok r) {c : TenantChain} (hc : r.tenants[t]? = some c) :
    linksOf t es ≠ [] ∧ c = .ofLinks (startOf anchors t) (linksOf t es) := by
  rw [chainByTenant_tenants h, entryOf_eq_some] at hc
  exact ⟨hc.1, hc.2.symm⟩

/-! ## Single-tenant windows -/

/-- A map with one key lists one entry. -/
theorem toList_eq_singleton {α : Type} {m : TenantMap α} {k : String} {v : α} (hk : m[k]? = some v)
    (honly : ∀ k' v', m[k']? = some v' → k' = k) : m.toList = [(k, v)] := by
  have hmem := fun k' v' => mem_toList_iff_getElem?_eq_some (t := m) (k := k') (v := v')
  have hall : ∀ p ∈ m.toList, p = (k, v) := by
    rintro ⟨k', v'⟩ hp
    have hv := (hmem k' v').mp hp
    obtain rfl := honly k' v' hv
    rw [hk] at hv
    rw [Option.some.inj hv]
  have hd := distinct_keys_toList (t := m)
  match hl : m.toList with
  | [] => exact absurd ((hmem k v).mpr hk) (by simp [hl])
  | [p] => rw [hall p (by simp [hl])]
  | p :: q :: l =>
    rw [hl, List.pairwise_cons] at hd
    exact absurd (by rw [hall p (by simp [hl]), hall q (by simp [hl])]; simp) (hd.1 q List.mem_cons_self)

/-- The single-tenant view of a walk whose links are all one tenant's. -/
theorem Tracks.singleTenant_eq (h : Tracks anchors es w) (hne : linksOf t es ≠ [])
    (honly : ∀ t', linksOf t' es ≠ [] → t' = t) :
    singleTenant w.tenants = .ofLinks (startOf anchors t) (linksOf t es) := by
  have hsome : ∀ t', w.tenants[t']?.isSome = true → linksOf t' es ≠ [] := by
    intro t' ht' hnil
    rw [h.tenants, entryOf, if_pos hnil] at ht'
    cases ht'
  have hl := toList_eq_singleton (m := w.tenants) (k := t) (by rw [h.tenants, entryOf, if_neg hne])
    fun t' v hv => honly t' (hsome t' (by rw [hv]; rfl))
  rw [singleTenant, hl]

theorem chain_eq (es : List Event) : chain x es = chainByTenant x es ∅ := by
  simp [chain, chainAnchored]

theorem chainAnchored_eq {baseLen : UInt64} {baseHead : Bytes} (h : baseLen ≠ 0) :
    chainAnchored x es t baseLen baseHead = chainByTenant x es ((∅ : TenantMap _).insert t (baseLen, baseHead)) := by
  rw [chainAnchored, if_pos h]

/-- The top-level chain of a report. -/
def ChainReport.only (r : ChainReport) : TenantChain := ⟨r.head, r.links, r.heads, r.maxSchemaByLink, r.baseLen⟩

/-- When all links are one tenant's, the top-level chain of the report is that tenant's. -/
theorem chainByTenant_only (h : chainByTenant x es anchors = .ok r) (hne : linksOf t es ≠ [])
    (honly : ∀ t', linksOf t' es ≠ [] → t' = t) : r.only = .ofLinks (startOf anchors t) (linksOf t es) := by
  obtain ⟨-, w, hw, rfl⟩ := chainByTenant_eq_ok_iff.mp h
  exact hw.singleTenant_eq hne honly

/-- The top-level chain of a stream of one tenant. -/
theorem only_of_single (h : chainByTenant x es anchors = .ok r) (hsingle : ∀ e ∈ es, e.tenant = t)
    (hne : linksOf t es ≠ []) : r.only = .ofLinks (startOf anchors t) (linksOf t es) := by
  refine chainByTenant_only h hne fun t' ht' => ?_
  by_contra hnt
  exact ht' (linksOf_eq_nil fun e he => ne_of_eq_of_ne (hsingle e he) (Ne.symm hnt))

end SeamSdk
