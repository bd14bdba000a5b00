import SeamSdk.Verify.Bundle
import SeamSdk.Verify.IssuerRun

/-!
# The second step of a bundle and the command

`checkWindow` and `cmdChain` are two drivers over the same library calls: they read the files differently, ask for a
single tenant at different places, and authenticate by different branches. Both come down to `StreamOk`.

- `loadAnchor_files_iff`, `readEvents_files_iff`: the members of the bundle, read as the command reads files;
- `tenants_size_eq_one_iff`: the span of a window;
- `checkWindow_iff_cmdChain`: the step succeeds exactly if the window is one tenant's and the command succeeds.
-/

namespace SeamSdk

open ByteCodec Checked

/-- The directory of a bundle as the command sees it when it is run there: a file is read as UTF-8 text. -/
def BundleDir.files (dir : BundleDir) (stdin : Except String String) : Files where
  read name := do
    let raw ← dir.read name
    demand (ofUtf8? raw) "stream did not contain valid UTF-8"
  stdin := stdin

/-! ## Reading -/

variable {x : Readers} {dir : BundleDir} {stdin : Except String String} {pinned : String}

theorem files_read_ok_iff {name text : String} : (dir.files stdin).read name = .ok text ↔ HasText dir name text := by
  simp only [BundleDir.files, bind_ok, demand_ok, HasText]

theorem loadAnchor_files_iff {anchor : Option Attestation} :
    loadAnchor x (dir.files stdin) (some "anchor.json") [pinned] = .ok anchor ↔
      ∃ a, anchor = some a ∧ readAnchor x dir pinned = .ok a := by
  simp only [loadAnchor, bind_ok, mapError_ok, pure_ok, files_read_ok_iff, readAnchor_ok_iff]
  constructor
  · intro h
    rcases h with ⟨text, htext, a, hparse, _, hv, rfl⟩
    exact ⟨a, rfl, text, htext, hparse, hv⟩
  · intro h
    rcases h with ⟨a, rfl, text, htext, hparse, hv⟩
    exact ⟨text, htext, a, hparse, (), hv, rfl⟩

/-- The lines of the window. The two drivers number them under different names, which only errors show. -/
theorem readEvents_files_iff (stdin : Except String String) {es : List Event} :
    readEvents x dir = .ok es ↔ ∃ ls, readLines (dir.files stdin) "events.jsonl" = .ok ls ∧ ls ≠ [] ∧
      parseLines x "line" ls = .ok es := by
  have hlines : ∀ ls, readLines (dir.files stdin) "events.jsonl" = .ok ls ↔
      ∃ text, HasText dir "events.jsonl" text ∧ eventLines text = ls := by
    intro ls
    rw [readLines, if_neg (by decide)]
    simp only [bind_ok, mapError_ok, pure_ok, files_read_ok_iff]
  simp only [readEvents_ok_iff, hlines, parseLines_ok_iff]
  constructor
  · intro h
    rcases h with ⟨hne, text, htext, hparse⟩
    refine ⟨_, ⟨text, htext, rfl⟩, fun hnil => hne ?_, hparse⟩
    rwa [hnil, List.forall₂_nil_left_iff] at hparse
  · intro h
    rcases h with ⟨_, ⟨text, htext, rfl⟩, hne, hparse⟩
    refine ⟨fun hnil => hne ?_, text, htext, hparse⟩
    rwa [hnil, List.forall₂_nil_right_iff] at hparse

/-! ## One tenant -/

theorem size_pos_iff {α : Type} {m : TenantMap α} : 0 < m.size ↔ ∃ t : String, m[t]?.isSome = true := by
  rw [← Std.ExtTreeMap.length_toList, List.length_pos_iff, ne_eq, ← List.head?_eq_none_iff, head?_toList_eq_none]
  simp only [not_forall, Option.isSome_iff_ne_none, ne_eq]

/-- The report has one tenant when the chained events span exactly one. -/
theorem tenants_size_eq_one_iff {x : Externs} {anchors : TenantMap (UInt64 × Bytes)} {es : List Event}
    {r : ChainReport} (h : chainByTenant x es anchors = .ok r) : r.tenants.size = 1 ↔ ∃! t, linksOf t es ≠ [] := by
  have hpos : 0 < r.tenants.size ↔ ∃ t, linksOf t es ≠ [] := by
    simp only [size_pos_iff, isSome_tenants_iff h]
  have hmany := one_lt_tenants_iff h
  constructor
  · intro hone
    obtain ⟨t, ht⟩ := hpos.mp (by omega)
    refine ⟨t, ht, fun t' ht' => ?_⟩
    by_contra hne
    have := hmany.mpr ⟨t', t, hne, ht', ht⟩
    omega
  · intro hx
    obtain ⟨t, ht, honly⟩ := hx
    have hle : ¬1 < r.tenants.size := by
      rw [hmany]
      rintro ⟨u, v, huv, hu, hv⟩
      exact huv ((honly u hu).trans (honly v hv).symm)
    have := hpos.mpr ⟨t, ht⟩
    omega

/-! ## The step -/

/-- **The second step is the published check**: it succeeds exactly if the chained events span one tenant and
`chain events.jsonl --issuer AID --from-anchor anchor.json --strict` succeeds in the directory of the bundle. -/
theorem checkWindow_iff_cmdChain (x : Readers) (dir : BundleDir) (stdin : Except String String) (pinned : String) :
    (∃ w, checkWindow x dir pinned = .ok w) ↔
      (∃ es, FileEvents x (dir.files stdin) "events.jsonl" es ∧ ∃! t, linksOf t es ≠ []) ∧
        ∃ run, cmdChain x (dir.files stdin) (bundleFlags pinned) = .ok run := by
  constructor
  · rintro ⟨w, hw⟩
    obtain ⟨ha, es, n, r, hes, hwin⟩ := checkWindow_ok_iff.mp hw
    obtain ⟨ls, hls, hne, hparse⟩ := (readEvents_files_iff stdin).mp hes
    obtain ⟨kept, hd, hev⟩ := hwin.deduped
    have hok := hwin.stream
    have hspan := (tenants_size_eq_one_iff hok.walk).mp hwin.single
    rw [hev] at hok hspan
    simp only [linksOf_ne_nil, mem_stream (parseLines_hasIdentity hparse) hd] at hspan
    obtain ⟨run, hrun, -⟩ := cmdChain_ok_iff.mpr ⟨_, none, ls, es, kept, n, r, loadAnchor_files_iff.mpr ⟨_, rfl, ha⟩, rfl,
      hls, hne, hparse, hd, hok, rfl⟩
    refine ⟨⟨es, ⟨ls, hls, hparse⟩, ?_⟩, run, hrun⟩
    simpa only [linksOf_ne_nil] using hspan
  · rintro ⟨⟨es, ⟨ls, hls, hparse⟩, hspan⟩, run, hrun⟩
    obtain ⟨anchor, expect, ls', es', kept, n, r, ha, he, hls', hne, hparse', hd, hok, -⟩ :=
      cmdChain_ok_iff.mp ⟨run, hrun, rfl⟩
    obtain rfl := Except.ok.inj (hls.symm.trans hls')
    obtain rfl := Except.ok.inj (hparse.symm.trans hparse')
    obtain rfl := Except.ok.inj he
    obtain ⟨a, rfl, hread⟩ := loadAnchor_files_iff.mp ha
    simp only [linksOf_ne_nil, ← mem_stream (parseLines_hasIdentity hparse) hd] at hspan
    have hes : readEvents x dir = .ok es := (readEvents_files_iff stdin).mpr ⟨ls, hls, hne, hparse⟩
    have hsingle : r.tenants.size = 1 := by
      rw [tenants_size_eq_one_iff hok.walk]
      simpa only [linksOf_ne_nil] using hspan
    let w : BundleWindow :=
      { events := sortBySeq kept
        report := { r with duplicates := n }
        issuer := issuerReport x.toExterns (r.window (baseOf (some a))) (sortBySeq kept)
        anchor := a }
    have hwin : WindowOk x.toExterns pinned es w n r := ⟨⟨kept, hd, rfl⟩, hok, hsingle, rfl, rfl⟩
    exact ⟨w, checkWindow_ok_iff.mpr ⟨hread, es, n, r, hes, hwin⟩⟩

end SeamSdk
