import SeamSdk.Verify.Authenticity
import SeamSdk.Verify.Truncation

/-!
# Cutting a window at an attestation

A verified single-tenant stream can be cut at any attested position: without its first `P` links it verifies from the
attestation as its anchor, with the same running heads, and its attestations all hold again. Those below the cut have
nothing left to compare with, those at the cut meet the anchor's head, and those past it find their head and, since the
running schema maximum restarts at zero, a lower ceiling (`Holds.recut`). Only coverage can be lost, so
`window_cutting` says that the cut window authenticates exactly when it keeps an attestation past the cut.

The windows of a stream are walked one after the other as the stream is walked at once (`windows_compose`).
-/

namespace SeamSdk

open ByteCodec Checked List

variable {x : Externs} {t : String}

/-! ## Dropping links -/

/-- The stream without its first `n` links; events that are no links stay. -/
def dropLinks : Nat → List Event → List Event
  | 0, es => es
  | _ + 1, [] => []
  | n + 1, e :: es => if e.isLink then dropLinks n es else e :: dropLinks (n + 1) es

theorem dropLinks_subset : ∀ (n : Nat) (es : List Event), dropLinks n es ⊆ es
  | 0, es => by simp [dropLinks]
  | n + 1, [] => by simp [dropLinks]
  | n + 1, e :: es => by
    rw [dropLinks]
    split
    · exact subset_cons_of_subset _ (dropLinks_subset n es)
    · exact cons_subset_cons _ (dropLinks_subset (n + 1) es)

theorem linksOf_dropLinks : ∀ (n : Nat) {es : List Event}, (∀ e ∈ es, e.tenant = t) →
    linksOf t (dropLinks n es) = (linksOf t es).drop n
  | 0, es, _ => by simp [dropLinks]
  | n + 1, [], _ => by simp [dropLinks, linksOf]
  | n + 1, e :: es, h => by
    rw [forall_mem_cons] at h
    rw [dropLinks]
    cases he : e.isLink with
    | true =>
      have hcons : linksOf t (e :: es) = e :: linksOf t es := by simp [linksOf, he, h.1]
      rw [if_pos rfl, hcons, drop_succ_cons, linksOf_dropLinks n h.2]
    | false =>
      have hcons : ∀ fs, linksOf t (e :: fs) = linksOf t fs := by simp [linksOf, he]
      rw [if_neg Bool.false_ne_true, hcons, hcons, linksOf_dropLinks (n + 1) h.2]

/-! ## The cut chain -/

theorem Chained.drop {s head : Bytes} {ls : List Event} {k : Nat} (h : Chained x s ls)
    (hk : (HashChain.heads Event.linkHead s ls)[k]? = some head) : Chained x head (ls.drop k) := by
  rw [← take_append_drop k ls, Chained.append, HashChain.lastHead_take hk] at h
  exact h.2

theorem maxSchema_mono {m m' : UInt32} (h : m ≤ m') (e : Event) : maxSchema m e ≤ maxSchema m' e := by
  unfold maxSchema
  split
  · simp only [max, UInt32.le_iff_toNat_le] at h ⊢
    split_ifs <;> omega
  · exact h

/-- Starting the running schema maximum lower keeps it lower. -/
theorem foldl_maxSchema_mono {m m' : UInt32} (h : m ≤ m') (ls : List Event) :
    ls.foldl maxSchema m ≤ ls.foldl maxSchema m' := by
  induction ls generalizing m m' with
  | nil => exact h
  | cons e ls ih => exact ih (maxSchema_mono h e)

theorem maxSchema_drop {ls : List Event} {k j : Nat} {m : UInt32}
    (h : (ls.scanl maxSchema 0)[k + j]? = some m) : ∃ m' ≤ m, ((ls.drop k).scanl maxSchema 0)[j]? = some m' := by
  rw [List.getElem?_scanl] at h
  split at h
  · rename_i hle
    refine ⟨((ls.drop k).take j).foldl maxSchema 0, ?_, ?_⟩
    · rw [← Option.some.inj h, take_add, foldl_append]
      exact foldl_maxSchema_mono UInt32.zero_le _
    · rw [List.getElem?_scanl, if_pos (by rw [length_drop]; omega)]
  · cases h

/-! ## The cut window -/

/-- The window of a chain of links. -/
def linkWindow (base : UInt64 × Bytes) (ls : List Event) : Window where
  heads := HashChain.heads Event.linkHead base.2 ls
  maxSchemaByLink := ls.scanl maxSchema 0
  baseLen := base.1
  baseHead := base.2

variable {ls : List Event} {p : UInt64} {head : Bytes}

/-- In a window from genesis, every attestation but an empty one holds by covering. -/
theorem Window.Holds.head_eq {a : Attestation} (h : (linkWindow (0, genesis) ls).Holds a) (h0 : a.attestedLen ≠ 0) :
    (HashChain.heads Event.linkHead genesis ls)[a.attestedLen.toNat]? = some a.attestedHead := by
  have hlt : (0 : UInt64) < a.attestedLen := UInt64.lt_of_le_of_ne UInt64.zero_le (Ne.symm h0)
  simpa [linkWindow] using (h.covers hlt).2.1

/-- An attestation that holds in the window from genesis holds in the window cut at `p`. -/
theorem Window.Holds.recut (hp : (HashChain.heads Event.linkHead genesis ls)[p.toNat]? = some head)
    {a : Attestation} (h0 : a.attestedLen ≠ 0) (h : (linkWindow (0, genesis) ls).Holds a) :
    (linkWindow (p, head) (ls.drop p.toNat)).Holds a := by
  have hlt0 : (0 : UInt64) < a.attestedLen := UInt64.lt_of_le_of_ne UInt64.zero_le (Ne.symm h0)
  have hhead := h.head_eq h0
  obtain ⟨-, -, m, hm, hle⟩ := h.covers hlt0
  by_cases hlt : a.attestedLen < p
  · exact .inl hlt
  by_cases heq : a.attestedLen = p
  · rw [heq, hp] at hhead
    exact .inr (.inl ⟨heq, (Option.some.inj hhead).symm⟩)
  have hple : p ≤ a.attestedLen := UInt64.not_lt.mp hlt
  have hsub : (a.attestedLen - p).toNat = a.attestedLen.toNat - p.toNat := UInt64.toNat_sub_of_le _ _ hple
  have hadd : p.toNat + (a.attestedLen - p).toNat = a.attestedLen.toNat := by
    rw [hsub]
    exact Nat.add_sub_cancel' (UInt64.le_iff_toNat_le.mp hple)
  have hm' : (ls.scanl maxSchema 0)[p.toNat + (a.attestedLen - p).toNat]? = some m := by
    rw [hadd]
    simpa [linkWindow] using hm
  obtain ⟨m', hm'le, hm''⟩ := maxSchema_drop hm'
  refine .inr (.inr ⟨UInt64.lt_of_le_of_ne hple (Ne.symm heq), ?_, m', hm'', UInt32.le_trans hm'le hle⟩)
  rw [← hadd] at hhead
  exact (HashChain.heads_drop_of_head hp _).trans hhead

/-- The events of the cut stream pass whatever the whole stream passed; only coverage can be lost. -/
theorem AuthOk.dropLinks_iff {pinnedAids : List String} {es : List Event}
    (hp : (HashChain.heads Event.linkHead genesis ls)[p.toNat]? = some head)
    (h : AuthOk x pinnedAids (linkWindow (0, genesis) ls) es) (n : Nat) :
    AuthOk x pinnedAids (linkWindow (p, head) (ls.drop p.toNat)) (dropLinks n es) ↔
      ∃ f ∈ dropLinks n es, ∃ a, f.attestation = some a ∧ p < a.attestedLen := by
  refine ⟨fun hok => hok.covered, fun hcov => ⟨h.pins, fun e he => ?_, fun e he a ha => ?_, hcov⟩⟩
  · exact h.records e (dropLinks_subset n es he)
  · obtain ⟨ht, hs, h0, hpos⟩ := h.attests e (dropLinks_subset n es he) a ha
    exact ⟨ht, hs, h0, hpos.recut hp h0⟩

/-- The cut stream is accepted from its anchor. -/
theorem ChainOk.dropLinks {es : List Event} (h : ChainOk x ∅ es) (hsingle : ∀ e ∈ es, e.tenant = t)
    (hp : (HashChain.heads Event.linkHead genesis (linksOf t es))[p.toNat]? = some head) :
    ChainOk x ((∅ : TenantMap _).insert t (p, head)) (dropLinks p.toNat es) where
  bound e he := h.bound e (dropLinks_subset _ es he)
  chained t' := by
    by_cases ht : t = t'
    · subst ht
      rw [linksOf_dropLinks _ hsingle, startOf, Std.ExtTreeMap.getElem?_insert_self]
      exact (startOf_eq_genesis (t := t) Std.ExtTreeMap.getElem?_empty ▸ h.chained t).drop hp
    · rw [linksOf_eq_nil fun e he => ne_of_eq_of_ne (hsingle e (dropLinks_subset _ es he)) ht]
      exact Chained.nil _

/-- **Window cutting.** Let `S` be a stream of one tenant that verifies from genesis, and `A` an attestation in it at a
position inside. Without the first `A.attestedLen` links, the stream is accepted from `A` as its anchor, with the
running heads of `S` past the cut and no unconsumed anchor; and it authenticates exactly when it keeps an attestation
past the cut. -/
theorem window_cutting {S : List Event} {r : ChainReport} {pinnedAids : List String} {ir : IssuerReport} {e : Event}
    {A : Attestation} (hsingle : ∀ e ∈ S, e.tenant = t) (hchain : chain x S = .ok r)
    (hauth : verifyAuthenticity x S r.heads r.maxSchemaByLink pinnedAids = .ok ir) (he : e ∈ S)
    (hA : e.attestation = some A) (hpos : 0 < A.attestedLen) (hin : A.attestedLen.toNat < (linksOf t S).length) :
    ∃ r', chainAnchored x (dropLinks A.attestedLen.toNat S) t A.attestedLen A.attestedHead = .ok r' ∧
      (∀ k ≤ (linksOf t S).length - A.attestedLen.toNat,
        ∃ h, r'.heads[k]? = some h ∧ r.heads[A.attestedLen.toNat + k]? = some h) ∧
      r'.unconsumedAnchors = ∅ ∧
      ((∃ ir', verifyAuthenticityAnchored x (dropLinks A.attestedLen.toNat S) r'.heads r'.maxSchemaByLink pinnedAids
          A.attestedLen A.attestedHead = .ok ir') ↔
        ∃ f ∈ dropLinks A.attestedLen.toNat S, ∃ a, f.attestation = some a ∧ A.attestedLen < a.attestedLen) := by
  have hne0 : A.attestedLen ≠ 0 := fun h => by rw [h] at hpos; exact UInt64.lt_irrefl _ hpos
  rw [chain_eq] at hchain
  have hlinks : linksOf t (dropLinks A.attestedLen.toNat S) = (linksOf t S).drop A.attestedLen.toNat :=
    linksOf_dropLinks _ hsingle
  have hne : linksOf t (dropLinks A.attestedLen.toNat S) ≠ [] := by
    rw [hlinks, Ne, List.drop_eq_nil_iff]
    omega
  -- both reports are about the one tenant
  have hr := only_of_single hchain hsingle (fun h => by simp [h] at hin)
  rw [startOf_eq_genesis Std.ExtTreeMap.getElem?_empty] at hr
  have hheads : r.heads = (linkWindow (0, genesis) (linksOf t S)).heads := congrArg TenantChain.heads hr
  have hschema : r.maxSchemaByLink = (linkWindow (0, genesis) (linksOf t S)).maxSchemaByLink :=
    congrArg TenantChain.maxSchemaByLink hr
  rw [hheads, hschema] at hauth
  obtain ⟨hok, hunc⟩ := verifyAuthenticityAnchored_ok_iff.mp ⟨ir, hauth⟩
  have hhead := (hok.attests e he A hA).position.head_eq hne0
  obtain ⟨r', hr'⟩ := chainByTenant_ok_iff.mpr
    (ChainOk.dropLinks (chainByTenant_eq_ok_iff.mp hchain).1 hsingle hhead)
  have honly := only_of_single hr' (fun f hf => hsingle f (dropLinks_subset _ S hf)) hne
  rw [startOf, Std.ExtTreeMap.getElem?_insert_self, Option.getD_some, hlinks] at honly
  have hheads' : r'.heads = (linkWindow (A.attestedLen, A.attestedHead) _).heads := congrArg TenantChain.heads honly
  have hschema' : r'.maxSchemaByLink = (linkWindow (A.attestedLen, A.attestedHead) _).maxSchemaByLink :=
    congrArg TenantChain.maxSchemaByLink honly
  refine ⟨r', (chainAnchored_eq hne0).trans hr', fun k hk => ?_, Std.ExtTreeMap.ext_getElem? fun t' => ?_, ?_⟩
  · have hlen : A.attestedLen.toNat + k < r.heads.length := by
      rw [hheads]
      simp only [linkWindow, HashChain.length_heads]
      omega
    refine ⟨_, ?_, List.getElem?_eq_getElem hlen⟩
    rw [← List.getElem?_eq_getElem hlen, hheads', hheads]
    exact HashChain.heads_drop_of_head hhead k
  · rw [chainByTenant_unconsumed hr', unconsumedOf, Std.ExtTreeMap.getElem?_empty]
    by_cases ht : t = t'
    · subst ht
      rw [if_neg hne]
    · simp [ht]
  · rw [hheads', hschema', ← AuthOk.dropLinks_iff hhead hok]
    exact verifyAuthenticityAnchored_ok_iff.trans (and_iff_left fun f hf => hunc f (dropLinks_subset _ S hf))

/-- Two attested links, cut after the first. -/
theorem window_cutting_two_links :
    let a := Event.holdPlaced "t" 1 genesis
    let A := sampleAttestation "t" 1 a.linkHead
    let b := Event.holdPlaced "t" 3 a.linkHead
    let B := sampleAttestation "t" 2 b.linkHead
    let x := Externs.signing [A, B]
    let W := [Event.attesting 2 A, b, .attesting 4 B]
    dropLinks 1 [a, .attesting 2 A, b, .attesting 4 B] = W ∧
      ∃ r r', chain x (a :: W) = .ok r ∧ chainAnchored x W "t" 1 a.linkHead = .ok r' ∧
        (∃ h, r'.heads[1]? = some h ∧ r.heads[1 + 1]? = some h) ∧ r'.unconsumedAnchors = ∅ ∧
        ∃ ir', verifyAuthenticityAnchored x W r'.heads r'.maxSchemaByLink [sampleAid] 1 a.linkHead = .ok ir' := by
  intro a A b B x W
  have hdrop : dropLinks 1 [a, .attesting 2 A, b, .attesting 4 B] = W := by decide +kernel
  obtain ⟨ir, hir⟩ := exists_ok_of_isOk
    (show (chain x (a :: W) >>= fun r => verifyAuthenticity x (a :: W) r.heads r.maxSchemaByLink [sampleAid]).isOk = true
      by decide +kernel)
  obtain ⟨r, hr, hir⟩ := bind_ok.mp hir
  obtain ⟨r', hr', hheads, hanchors, hauth⟩ := window_cutting (t := "t") (e := .attesting 2 A) (A := A)
    (by decide +kernel) hr hir (by simp [W]) rfl (by decide +kernel) (by decide +kernel)
  rw [show dropLinks A.attestedLen.toNat (a :: W) = W from hdrop] at hr' hauth
  exact ⟨hdrop, r, r', hr, hr', hheads 1 (by decide +kernel), hanchors,
    hauth.mpr ⟨.attesting 4 B, by simp [W], B, rfl, by decide +kernel⟩⟩

/-! ## Consecutive windows -/

/-- Where a chain leaves its tenant: past the last of its links. -/
def TenantChain.finish (c : TenantChain) : UInt64 × Bytes := (c.baseLen + UInt64.ofNat c.links, c.head)

/-- The anchors of the window behind a report. -/
def ChainReport.anchorsAfter (r : ChainReport) (anchors : TenantMap (UInt64 × Bytes)) : TenantMap (UInt64 × Bytes) :=
  anchors ∪ r.tenants.map fun _ c => c.finish

/-- Each window is walked from where the one before it has left the tenants. -/
def chainWindows (x : Externs) : List (List Event) → TenantMap (UInt64 × Bytes) →
    Except String (TenantMap (UInt64 × Bytes))
  | [], anchors => .ok anchors
  | es :: windows, anchors => do chainWindows x windows ((← chainByTenant x es anchors).anchorsAfter anchors)

variable {anchors : TenantMap (UInt64 × Bytes)} {es fs : List Event} {r : ChainReport}

theorem startOf_anchorsAfter (h : chainByTenant x es anchors = .ok r) (t : String) :
    startOf (r.anchorsAfter anchors) t = (TenantChain.ofLinks (startOf anchors t) (linksOf t es)).finish := by
  rw [startOf, ChainReport.anchorsAfter, Std.ExtTreeMap.getElem?_union, Std.ExtTreeMap.getElem?_map,
    chainByTenant_tenants h, entryOf]
  split
  next hnil =>
    rw [hnil]
    exact Prod.ext (UInt64.add_zero _).symm rfl
  next => rfl

open Classical in
/-- A walk leaves every tenant past its links, if it succeeds. -/
theorem chainByTenant_leaves (es : List Event) (anchors : TenantMap (UInt64 × Bytes)) :
    ((chainByTenant x es anchors).toOption.map fun r => startOf (r.anchorsAfter anchors)) =
      if ChainOk x anchors es then some fun t => (TenantChain.ofLinks (startOf anchors t) (linksOf t es)).finish
      else none := by
  rw [← chainByTenant_ok_iff]
  cases h : chainByTenant x es anchors with
  | error e => simp [Except.toOption]
  | ok r =>
    rw [if_pos ⟨r, rfl⟩]
    exact congrArg some (funext (startOf_anchorsAfter h))

/-- Behind a window that is accepted, the rest is accepted from the anchors it leaves exactly if both are accepted as
one. -/
theorem ChainOk.append_iff (h : chainByTenant x es anchors = .ok r) :
    ChainOk x (r.anchorsAfter anchors) fs ↔ ChainOk x anchors (es ++ fs) := by
  have hes := (chainByTenant_eq_ok_iff.mp h).1
  have hstart : ∀ t, Chained x (startOf (r.anchorsAfter anchors) t).2 (linksOf t fs) ↔
      Chained x (startOf anchors t).2 (linksOf t (es ++ fs)) := by
    intro t
    rw [linksOf_append, Chained.append, startOf_anchorsAfter h, and_iff_right (hes.chained t)]
    rfl
  constructor
  · intro hok
    exact ⟨fun e he => (mem_append.mp he).elim (hes.bound e) (hok.bound e), fun t => (hstart t).mp (hok.chained t)⟩
  · intro hok
    exact ⟨fun e he => hok.bound e (mem_append_right _ he), fun t => (hstart t).mpr (hok.chained t)⟩

theorem TenantChain.finish_append (base : UInt64 × Bytes) (ls ms : List Event) :
    (TenantChain.ofLinks (TenantChain.ofLinks base ls).finish ms).finish =
      (TenantChain.ofLinks base (ls ++ ms)).finish := by
  refine Prod.ext ?_ (HashChain.lastHead_append base.2 ls ms).symm
  show base.1 + UInt64.ofNat ls.length + UInt64.ofNat ms.length = base.1 + UInt64.ofNat (ls ++ ms).length
  rw [length_append, UInt64.ofNat_add, UInt64.add_assoc]

/-- **Consecutive windows.** However a stream is cut into windows, walking each from where the one before it has left
the tenants succeeds exactly if the walk over the whole stream does; and both leave every tenant at the same length and
head. -/
theorem windows_compose (x : Externs) (windows : List (List Event)) (anchors : TenantMap (UInt64 × Bytes)) :
    (chainWindows x windows anchors).toOption.map startOf =
      (chainByTenant x windows.flatten anchors).toOption.map fun r => startOf (r.anchorsAfter anchors) := by
  rw [chainByTenant_leaves]
  induction windows generalizing anchors with
  | nil =>
    rw [flatten_nil, if_pos chainOk_nil]
    exact congrArg some (funext fun t => Prod.ext (UInt64.add_zero _).symm rfl)
  | cons es windows ih =>
    rw [chainWindows, flatten_cons]
    cases h : chainByTenant x es anchors with
    | error e =>
      -- a stream is refused with its first window
      refine (if_neg fun hok => ?_).symm
      obtain ⟨r, hr⟩ := chainByTenant_ok_iff.mpr hok.append_left
      cases h.symm.trans hr
    | ok r =>
      refine (ih _).trans ?_
      simp only [startOf_anchorsAfter h, TenantChain.finish_append, linksOf_append]
      classical exact if_congr (ChainOk.append_iff h) rfl rfl

end SeamSdk
