import SeamSdk.Verify.Chain

/-!
# Tampering and truncation

A hash chain shows every change to a stream but one: cutting off its end. If the hash has no collision among the
inputs concerned and does not lead back to genesis, a stream that only uses the links of an accepted one uses a prefix
of them (`tamper_evident_up_to_truncation`). What is left is `checkNotTruncated`, which compares the walk with an
attestation held independently of the stream; `truncation_detected` says exactly when it passes.
-/

namespace SeamSdk

open ByteCodec Checked TenantChain

variable {x : Externs} {anchors : TenantMap (UInt64 × Bytes)}

/-! ## Heads are hashes -/

theorem length_genesis : genesis.length = 32 := List.length_replicate ..

variable {ls : List Event} {base : UInt64 × Bytes} {r : ChainReport} {expect : Attestation}

/-- Every link of a chain from a 32-byte head extends a 32-byte head. -/
theorem Chained.length_prev {s : Bytes} (h : Chained x s ls) (hs : s.length = 32) :
    ∀ e ∈ ls, e.prevChecksum.length = 32 := by
  induction ls generalizing s with
  | nil => simp
  | cons f ls ih =>
    rw [← List.singleton_append, Chained.append, Chained.singleton] at h
    obtain ⟨⟨hprev, hhash⟩, hls⟩ := h
    intro e he
    rcases List.mem_cons.mp he with rfl | he
    · rw [hprev, hs]
    · refine ih hls ?_ e he
      rw [HashChain.lastHead_cons, HashChain.lastHead_nil, hhash]
      exact x.length_sha256 _

/-- The hash inputs of a list of links. -/
def linkPreimages (ls : List Event) : List Bytes := ls.map fun e => e.prevChecksum ++ e.linkDigest

theorem mem_linkPreimages {e : Event} (he : e ∈ ls) : e.prevChecksum ++ e.linkDigest ∈ linkPreimages ls :=
  List.mem_map_of_mem he

/-- Without collisions, links that produce the same head extend the same head with the same digest. -/
theorem Chained.eq_of_linkHead_eq {s s' : Bytes} {ms : List Event} (hs : s.length = 32) (hs' : s'.length = 32)
    (hl : Chained x s ls) (hm : Chained x s' ms) (hinj : x.CollisionFree (linkPreimages (ls ++ ms))) {e f : Event}
    (he : e ∈ ls) (hf : f ∈ ms) (h : e.linkHead = f.linkHead) :
    e.prevChecksum = f.prevChecksum ∧ e.linkDigest = f.linkDigest := by
  rw [hl.hashed e he, hm.hashed f hf, link, link] at h
  have hpre := hinj _ (mem_linkPreimages (List.mem_append_left _ he)) _
    (mem_linkPreimages (List.mem_append_right _ hf)) h
  exact List.append_inj hpre ((hl.length_prev hs e he).trans (hm.length_prev hs' f hf).symm)

theorem startOf_eq_genesis {t : String} (h : anchors[t]? = none) : startOf anchors t = (0, genesis) := by
  rw [startOf, h]; rfl

/-! ## Only truncation goes unseen -/

/-- **Tamper evidence up to truncation.** Take a stream accepted with `t` from genesis. Any accepted stream whose
`t`-links are all among its `t`-links, in any order and with any repetition, has exactly a prefix of them. -/
theorem tamper_evident_up_to_truncation {anchors' : TenantMap (UInt64 × Bytes)} {t : String} {es fs : List Event}
    {r r' : ChainReport} (hes : chainByTenant x es anchors = .ok r) (hfs : chainByTenant x fs anchors' = .ok r')
    (hgen : anchors[t]? = none) (hgen' : anchors'[t]? = none) (hsub : ∀ e ∈ linksOf t fs, e ∈ linksOf t es)
    (hinj : x.CollisionFree (linkPreimages (linksOf t es)))
    (hzero : ∀ b ∈ linkPreimages (linksOf t es), x.sha256 b ≠ genesis) :
    ∃ m ≤ (linksOf t es).length, linksOf t fs = (linksOf t es).take m := by
  have hl := (chainByTenant_eq_ok_iff.mp hes).1.chained t
  have hm := (chainByTenant_eq_ok_iff.mp hfs).1.chained t
  rw [startOf_eq_genesis hgen] at hl
  rw [startOf_eq_genesis hgen'] at hm
  have hprev : ∀ e ∈ linksOf t es, ∀ f ∈ linksOf t es, e.linkHead = f.linkHead → e.prevChecksum = f.prevChecksum := by
    intro e he f hf h
    refine (hl.eq_of_linkHead_eq length_genesis length_genesis hl (hinj.mono ?_) he hf h).1
    simp [linkPreimages]
  have hstart : ∀ e ∈ linksOf t es, e.linkHead ≠ genesis := by
    intro e he
    rw [hl.hashed e he]
    exact hzero _ (mem_linkPreimages he)
  have hpre := HashChain.prefix_of_subset hl.linked hprev hstart hm.linked hsub
  exact ⟨_, hpre.length_le, List.prefix_iff_eq_take.mp hpre⟩

/-- A chain of two links and the stream that keeps the first. -/
theorem tamper_evident_up_to_truncation_two_links :
    let x := Externs.sample []
    let a := (Event.bare "t" "K" 1).chainedTo x genesis [1]
    let b := (Event.bare "t" "K" 2).chainedTo x a.linkHead [2]
    ∃ m ≤ 2, linksOf "t" [a] = (linksOf "t" [a, b]).take m := by
  intro x a b
  obtain ⟨r, hr⟩ := exists_ok_of_isOk (show (chainByTenant x [a, b] ∅).isOk = true by decide +kernel)
  obtain ⟨r', hr'⟩ := exists_ok_of_isOk (show (chainByTenant x [a] ∅).isOk = true by decide +kernel)
  exact tamper_evident_up_to_truncation (t := "t") hr hr' Std.ExtTreeMap.getElem?_empty
    Std.ExtTreeMap.getElem?_empty (by decide +kernel) (by decide +kernel) (by decide +kernel)

/-! ## The truncation check -/

section Check

variable (x)

def truncatedMessage (expect : Attestation) (covered : UInt64) : String :=
  s!"TRUNCATED STREAM — tenant {x.debugStr expect.tenant}: an independently-held CHAIN_HEAD_ATTESTATION " ++
  "(fetched separately, e.g. from GET /v1/anchors, and signature-verified against the " ++
  s!"pinned issuer before this check ran) attests length {expect.attestedLen}, but this window's verified " ++
  s!"chain only reaches {covered}.\n  " ++
  "The window you verified is internally consistent — a truncated stream always is, " ++
  "which is exactly what makes truncation undetectable from the stream alone. This " ++
  "anchor proves events exist past where this stream stops."

def divergenceMessage (expect : Attestation) (want : Bytes) : String :=
  s!"ANCHOR DIVERGENCE — tenant {x.debugStr expect.tenant}: an independently-held " ++
  s!"CHAIN_HEAD_ATTESTATION attests head {RustText.hex expect.attestedHead} at len {expect.attestedLen}, but this " ++
  s!"window's own chain walk reached head {RustText.hex want} at that same position.\n  " ++
  "The window reaches far enough, but does not agree with the " ++
  "independently-held anchor from that point — it is long enough to pass a " ++
  "length-only check while having been cut and spliced with a different " ++
  "tail. The anchor's signature is valid, so this window diverges from the " ++
  "real chain, not the other way around."

/-- Compare the walk with an independently held attestation. An attestation below the window's start has no head
there to compare with and is skipped. -/
def checkNotTruncated (report : ChainReport) (expect : Attestation) : Except String Unit := do
  let tc := report.tenants[expect.tenant]?
  let covered := (tc.map fun c => c.baseLen + UInt64.ofNat c.links).getD 0
  refuse (expect.attestedLen > covered) (truncatedMessage x expect covered)
  match tc with
  | none => return ()
  | some tc =>
    if expect.attestedLen ≥ tc.baseLen then
      match tc.heads[(expect.attestedLen - tc.baseLen).toNat]? with
      | some want => refuse (want ≠ expect.attestedHead) (divergenceMessage x expect want)
      | none => return ()
    else return ()

end Check

theorem checkNotTruncated_none (h : r.tenants[expect.tenant]? = none) :
    checkNotTruncated x r expect = .ok () ↔ expect.attestedLen = 0 := by
  simp only [checkNotTruncated, h, bind_ok, refuse_ok, exists_const, Option.map_none, Option.getD_none, pure_ok,
    and_true, gt_iff_lt, UInt64.not_lt]
  exact UInt64.le_zero_iff

/-- With an entry, the check is a length comparison and, inside the window, a head comparison. -/
theorem checkNotTruncated_some {c : TenantChain} (h : r.tenants[expect.tenant]? = some c) :
    checkNotTruncated x r expect = .ok () ↔ expect.attestedLen ≤ c.baseLen + UInt64.ofNat c.links ∧
      (c.baseLen ≤ expect.attestedLen →
        ∀ want, c.heads[(expect.attestedLen - c.baseLen).toNat]? = some want → want = expect.attestedHead) := by
  simp only [checkNotTruncated, h, bind_ok, refuse_ok, exists_const, Option.map_some, Option.getD_some, gt_iff_lt,
    UInt64.not_lt, ge_iff_le]
  refine and_congr_right fun _ => ?_
  split
  · rename_i hle
    cases hw : c.heads[(expect.attestedLen - c.baseLen).toNat]? with
    | none => simp [pure_ok]
    | some want => simp [refuse_ok, hle]
  · rename_i hle
    simp [pure_ok, hle]

/-- Below `2 ^ 64` the covered length does not wrap. -/
theorem covered_toNat {c : TenantChain} (h : c.baseLen.toNat + c.links < 2 ^ 64) :
    (c.baseLen + UInt64.ofNat c.links).toNat = c.baseLen.toNat + c.links := by
  rw [UInt64.toNat_add, UInt64.toNat_ofNat']
  omega

theorem TenantChain.headAt_ofLinks (base : UInt64 × Bytes) (ls : List Event) (p : Nat) : (ofLinks base ls).headAt p =
      if base.1.toNat ≤ p then (HashChain.heads Event.linkHead base.2 ls)[p - base.1.toNat]? else none := rfl

/-- A position with a running head lies between the start and the end of the window. -/
theorem TenantChain.headAt_bounds {p : Nat} {head : Bytes} (h : (ofLinks base ls).headAt p = some head) :
    base.1.toNat ≤ p ∧ p ≤ base.1.toNat + ls.length := by
  rw [headAt_ofLinks] at h
  split at h
  · rename_i hle
    have hlt := (List.getElem?_eq_some_iff.mp h).1
    rw [HashChain.length_heads] at hlt
    omega
  · cases h

/-- Inside the window the check compares with the running head at the attested position: there always is one. -/
theorem TenantChain.headAt_eq_some_iff {n : UInt64} {head : Bytes} (hle : base.1 ≤ n)
    (hreach : n.toNat ≤ base.1.toNat + ls.length) :
    (∀ want, (HashChain.heads Event.linkHead base.2 ls)[(n - base.1).toNat]? = some want → want = head) ↔
      (ofLinks base ls).headAt n.toNat = some head := by
  have hle' : base.1.toNat ≤ n.toNat := UInt64.le_iff_toNat_le.mp hle
  rw [headAt_ofLinks, if_pos hle', UInt64.toNat_sub_of_le _ _ hle]
  obtain ⟨want, hwant⟩ : ∃ want, (HashChain.heads Event.linkHead base.2 ls)[n.toNat - base.1.toNat]? = some want :=
    ⟨_, List.getElem?_eq_getElem (by rw [HashChain.length_heads]; omega)⟩
  rw [hwant]
  simp

/-- The check on a walk that reached the tenant. -/
theorem checkNotTruncated_entry_iff (hc : r.tenants[expect.tenant]? = some (.ofLinks base ls))
    (hm : base.1.toNat + ls.length < 2 ^ 64) :
    checkNotTruncated x r expect = .ok () ↔ expect.attestedLen.toNat ≤ base.1.toNat + ls.length ∧
      (expect.attestedLen < base.1 ∨
        (ofLinks base ls).headAt expect.attestedLen.toNat = some expect.attestedHead) := by
  rw [checkNotTruncated_some hc, UInt64.le_iff_toNat_le, covered_toNat hm]
  refine and_congr_right fun hreach => ?_
  by_cases hle : base.1 ≤ expect.attestedLen
  · rw [← headAt_eq_some_iff hle hreach]
    exact ⟨fun hw => .inr (hw hle), fun hw _ => hw.resolve_left (UInt64.not_lt.mpr hle)⟩
  · exact ⟨fun _ => .inl (UInt64.not_le.mp hle), fun _ hle' => absurd hle' hle⟩

/-- **Truncation detection.** The check passes exactly when the walk reaches the attested length and, if the attested
position lies in the window, has the attested head there; without an entry, exactly for length `0`. So if the stream
`fs` is accepted and carries the attested head at a position that `es`, with fewer links of the tenant (for instance
a proper prefix of them), does not reach, the check fails on `es` and passes on `fs`. -/
theorem truncation_detected {es : List Event} {r : ChainReport} (h : chainByTenant x es anchors = .ok r)
    (expect : Attestation) :
    (∀ c, r.tenants[expect.tenant]? = some c → c.baseLen.toNat + c.links < 2 ^ 64 →
      (checkNotTruncated x r expect = .ok () ↔ expect.attestedLen.toNat ≤ c.baseLen.toNat + c.links ∧
        (expect.attestedLen < c.baseLen ∨ c.headAt expect.attestedLen.toNat = some expect.attestedHead))) ∧
    (r.tenants[expect.tenant]? = none → (checkNotTruncated x r expect = .ok () ↔ expect.attestedLen = 0)) ∧
    ∀ fs r' c, chainByTenant x fs anchors = .ok r' → r'.tenants[expect.tenant]? = some c →
      c.baseLen.toNat + c.links < 2 ^ 64 → c.headAt expect.attestedLen.toNat = some expect.attestedHead →
      c.baseLen.toNat + (linksOf expect.tenant es).length < expect.attestedLen.toNat →
      checkNotTruncated x r expect ≠ .ok () ∧ checkNotTruncated x r' expect = .ok () := by
  refine ⟨fun c hc hm => ?_, checkNotTruncated_none, fun fs r' c hfs hc hm hhead hpast => ⟨fun hok => ?_, ?_⟩⟩
  · obtain ⟨-, rfl⟩ := chainByTenant_entry h hc
    exact checkNotTruncated_entry_iff hc hm
  · -- the two walks start alike, so the shorter one falls short of the attested position
    obtain ⟨-, rfl⟩ := chainByTenant_entry hfs hc
    rw [ofLinks_baseLen] at hpast
    cases hr : r.tenants[expect.tenant]? with
    | none =>
      rw [(checkNotTruncated_none hr).mp hok] at hpast
      exact absurd hpast (Nat.not_lt_zero _)
    | some d =>
      obtain ⟨-, rfl⟩ := chainByTenant_entry h hr
      have hm' := hpast.trans expect.attestedLen.toNat_lt
      exact absurd ((checkNotTruncated_entry_iff hr hm').mp hok).1 (Nat.not_le.mpr hpast)
  · obtain ⟨-, rfl⟩ := chainByTenant_entry hfs hc
    exact (checkNotTruncated_entry_iff hc hm).mpr ⟨(headAt_bounds hhead).2, .inr hhead⟩

/-- Two links, then the first alone, against an attestation of the second head. -/
theorem truncation_detected_two_links :
    let x := Externs.sample []
    let a := (Event.bare "t" "K" 1).chainedTo x genesis [1]
    let b := (Event.bare "t" "K" 2).chainedTo x a.linkHead [2]
    let expect : Attestation := ⟨2, b.linkHead, 0, "", 0, [], "t"⟩
    ∃ r r', chainByTenant x [a] ∅ = .ok r ∧ chainByTenant x [a, b] ∅ = .ok r' ∧
      checkNotTruncated x r expect ≠ .ok () ∧ checkNotTruncated x r' expect = .ok () := by
  intro x a b expect
  obtain ⟨r, hr⟩ := exists_ok_of_isOk (show (chainByTenant x [a] ∅).isOk = true by decide +kernel)
  obtain ⟨r', hr'⟩ := exists_ok_of_isOk (show (chainByTenant x [a, b] ∅).isOk = true by decide +kernel)
  refine ⟨r, r', hr, hr', ?_⟩
  refine (truncation_detected hr expect).2.2 [a, b] r' (.ofLinks (0, genesis) [a, b]) hr' ?_ ?_ ?_ ?_
  · rw [chainByTenant_tenants hr', entryOf_eq_some]
    decide +kernel
  · decide +kernel
  · decide +kernel
  · decide +kernel

end SeamSdk
