import SeamSdk.Verify.ByTenant
import SeamSdk.Verify.Stream
import SeamSdk.Verify.Truncation

/-!
# The command `seam-verify chain`

`cmdChain` loads and validates the anchors, reads the file, walks its chains and, when issuers are pinned, checks
authenticity: over all events in one window when at most one tenant has a link, tenant by tenant otherwise.

- `loadAnchor_some`: an anchor is validated before it is used;
- `checkChain_ok_iff`: what is asked of the stream of a file (`StreamOk`);
- `cmdChain_ok_iff`: the whole command; `cmdChain_checked`: a run that succeeds has checked the events of its file.
-/

namespace SeamSdk

open ByteCodec Checked

/-- How a run ends without success. -/
inductive Stop
  | ioError (msg : String)
  | fail (msg banner : String)
  | notEstablished (uncovered : List Uncovered)

def Stop.exitCode : Stop → Nat
  | .ioError _ => 1
  | .fail _ _ => 2
  | .notEstablished _ => 2

structure ChainFlags where
  path : String
  strict : Bool
  json : Bool
  issuers : List String
  fromAnchor : Option String
  expectAnchor : Option String
  allowUncovered : Bool

/-- The reports under `--issuer`: one for the file, or one for each tenant. -/
structure Authenticity where
  single : Option IssuerReport
  byTenant : Option (TenantMap IssuerReport)

/-- What a successful run prints. -/
structure ChainRun where
  report : ChainReport
  authenticity : Authenticity
  anchor : Option Attestation
  expect : Option Attestation

def Authenticity.reports (a : Authenticity) : List IssuerReport :=
  a.single.toList ++ (a.byTenant.map fun m => m.toList.map Prod.snd).getD []

/-- The uncovered entries across all reports, by `seq`. -/
def Authenticity.uncovered (a : Authenticity) : List Uncovered :=
  Classes.sortByKey Uncovered.seq (a.reports.flatMap IssuerReport.uncovered)

/-! ## Anchors -/

/-- An anchor that contradicts itself is refused; any other document that is no anchor is unreadable. -/
def anchorParseStop (path e : String) : Stop :=
  if RustText.startsWith e anchorSelfContradicts then .fail s!"{path}: {e}" anchorSelfContradicts
  else .ioError s!"{path}: {e}"

def anchorRejected (e : String) : Stop :=
  .fail e (if RustText.contains e "VACUOUS" then "VACUOUS ANCHOR" else "ANCHOR REJECTED")

/-- Load and validate an anchor, before anything is verified from it. -/
def loadAnchor (x : Readers) (files : Files) (path : Option String) (issuers : List String) :
    Except Stop (Option Attestation) :=
  match path with
  | none => return none
  | some path => do
    let raw ← (files.read path).mapError fun e => .ioError s!"{path}: {e}"
    let anchor ← (Attestation.parseDocument x raw).mapError (anchorParseStop path)
    (verifyAnchor x.toExterns anchor issuers).mapError anchorRejected
    return some anchor

/-- The start an anchor gives to the one tenant it names. -/
def anchorsOf : Option Attestation → TenantMap (UInt64 × Bytes)
  | some a => if a.attestedLen ≠ 0 then (∅ : TenantMap _).insert a.tenant (a.attestedLen, a.attestedHead) else ∅
  | none => ∅

/-! ## The stream -/

section Check

variable (x : Externs) (f : ChainFlags) (anchor expect : Option Attestation)

def walkFrom (events : List Event) : Except String ChainReport :=
  match anchor with
  | some a => chainAnchored x events a.tenant a.attestedLen a.attestedHead
  | none => chain x events

def unconsumedMessage (p : String × UInt64) : String :=
  s!"tenant {x.debugStr p.1}: NO VALID ATTESTATION — an anchor was given for this tenant " ++
  s!"(attested_len {p.2}), but the window has no chained event for it, so nothing " ++
  "was verified from that start.\n  " ++
  "An anchor seeds exactly the tenant it names: a tenant anchor must be v2 over " ++
  "that tenant, and an anchor with no tenant (v1) seeds only the system partition " ++
  "\"\" — never a tenant's chain (#835 step 4)."

def truncationStop (err : String) : Stop :=
  .fail err (if RustText.startsWith err "ANCHOR DIVERGENCE" then "ANCHOR DIVERGENCE" else "TRUNCATED STREAM")

/-- The comparison with an attestation held independently, if one was given. -/
def checkExpected (r : ChainReport) : Except Stop Unit :=
  match expect with
  | none => return ()
  | some e => (checkNotTruncated x r e).mapError truncationStop

def strictMessage (unverifiable : List UInt64) : String :=
  s!"{unverifiable.length} event(s) carry no digest/checksum and are not advisory (first seq: " ++
  s!"{unverifiable.headD 0}). They " ++
  "predate the chain fields, so this tool CANNOT verify them — and --strict refuses to " ++
  "report a green chain over history it never checked."

/-- An uncovered entry is named as such, with a hint. -/
def authenticityFailed (e : String) : Stop :=
  if RustText.contains e uncoveredEntry then
    .fail (e ++ "\n  (`chain --issuer <AID> --allow-uncovered` prints a diagnostic report of them; it still exits 2)")
      "REFUSED (--issuer)"
  else .fail e "AUTHENTICITY VERIFICATION FAILED"

/-- The start of the only tenant's window. -/
def baseOf : UInt64 × Bytes :=
  match anchor with
  | some a => (a.attestedLen, a.attestedHead)
  | none => (0, genesis)

/-- The window of the file as a whole. -/
def ChainReport.window (r : ChainReport) (base : UInt64 × Bytes) : Window := ⟨r.heads, r.maxSchemaByLink, base.1, base.2⟩

/-- The check of all events in one window. -/
def verifyWhole (r : ChainReport) (events : List Event) : Except String IssuerReport :=
  let w := r.window (baseOf anchor)
  verifyAuthenticityAnchoredWith x events w.heads w.maxSchemaByLink f.issuers w.baseLen w.baseHead ⟨f.allowUncovered⟩

/-- A window of more than one tenant has no single running head, and is checked tenant by tenant. -/
def authenticate (r : ChainReport) (events : List Event) : Except String Authenticity :=
  if f.issuers = [] then return ⟨none, none⟩
  else if 1 < r.tenants.size then do
    let m ← verifyAuthenticityByTenantWith x events f.issuers r ⟨f.allowUncovered⟩
    return ⟨none, some m⟩
  else do
    let ir ← verifyWhole x f anchor r events
    return ⟨some ir, none⟩

def uncoveredCountMessage (n : Nat) : String :=
  s!"{uncoveredEntry} — {n} uncovered chained entr" ++ (if n = 1 then "y" else "ies") ++
  " (this build cannot recompute them)"

/-- What is checked of the events of a file, once they are in order. -/
def checkChain (events : List Event) (duplicates : Nat) : Except Stop ChainRun := do
  let r ← (walkFrom x anchor events).mapError (.fail · "CHAIN VERIFICATION FAILED")
  let r := { r with duplicates }
  refuseSome r.unconsumedAnchors.toList.head?
    fun p => .fail (unconsumedMessage x p) "AUTHENTICITY VERIFICATION FAILED"
  checkExpected x expect r
  refuse (f.strict = true ∧ r.unverifiable ≠ []) (.fail (strictMessage r.unverifiable) "REFUSED (--strict)")
  let a ← (authenticate x f anchor r events).mapError authenticityFailed
  refuse (a.uncovered ≠ [] ∧ f.json = true) (.fail (uncoveredCountMessage a.uncovered.length) "REFUSED (--issuer)")
  refuse (a.uncovered ≠ []) (.notEstablished a.uncovered)
  return ⟨r, a, anchor, expect⟩

end Check

/-- `seam-verify chain`. -/
def cmdChain (x : Readers) (files : Files) (f : ChainFlags) : Except Stop ChainRun := do
  let anchor ← loadAnchor x files f.fromAnchor f.issuers
  let expect ← loadAnchor x files f.expectAnchor f.issuers
  let lines ← (readLines files f.path).mapError .ioError
  refuse (lines = []) (.ioError s!"{f.path}: no events — refusing to report a green chain over nothing")
  let events ← (parseLines x "line" lines).mapError .ioError
  let (kept, duplicates) ← (dedup events).mapError (.fail · "CHAIN VERIFICATION FAILED")
  checkChain x.toExterns f anchor expect (sortBySeq kept) duplicates

/-! ## What a run has checked -/

variable {x : Externs} {f : ChainFlags} {anchor expect : Option Attestation} {es : List Event}

variable {r : ChainReport} {files : Files} {run : ChainRun}

/-- An anchor that is loaded is signed by a pin and attests a position. -/
theorem loadAnchor_some {x : Readers} {path : Option String} {issuers : List String} {a : Attestation}
    (h : loadAnchor x files path issuers = .ok (some a)) : SignedBy x.toExterns issuers a ∧ a.attestedLen ≠ 0 := by
  cases path with
  | none => cases h
  | some path =>
    simp only [loadAnchor, bind_ok, mapError_ok, pure_ok, Option.some.injEq] at h
    obtain ⟨_, -, b, -, u, hv, rfl⟩ := h
    exact (verifyAnchor_ok_iff.mp hv).2

theorem walkFrom_eq (x : Externs) (anchor : Option Attestation) (es : List Event) :
    walkFrom x anchor es = chainByTenant x es (anchorsOf anchor) := by
  cases anchor with
  | none => exact chain_eq es
  | some a => rfl

/-- A map lists nothing when it has no entry. -/
theorem head?_toList_eq_none {α : Type} {m : TenantMap α} : m.toList.head? = none ↔ ∀ t : String, m[t]? = none := by
  rw [List.head?_eq_none_iff, List.eq_nil_iff_forall_not_mem]
  constructor
  · intro h t
    cases hm : m[t]? with
    | none => rfl
    | some v => exact absurd (Std.ExtTreeMap.mem_toList_iff_getElem?_eq_some.mpr hm) (h (t, v))
  · rintro h ⟨t, v⟩ hp
    rw [Std.ExtTreeMap.mem_toList_iff_getElem?_eq_some, h t] at hp
    cases hp

theorem Authenticity.uncovered_eq_nil {a : Authenticity} :
    a.uncovered = [] ↔ ∀ ir ∈ a.reports, ir.uncovered = [] := by
  rw [uncovered, ← List.length_eq_zero_iff, (Classes.sortByKey_perm _ _).length_eq, List.length_eq_zero_iff,
    List.flatMap_eq_nil_iff]

theorem verifyWhole_ok_iff {ir : IssuerReport} :
    verifyWhole x f anchor r es = .ok ir ↔ AuthOk x f.issuers (r.window (baseOf anchor)) es ∧
      (f.allowUncovered = true ∨ ∀ e ∈ es, isUncovered x e = false) ∧
      issuerReport x (r.window (baseOf anchor)) es = ir :=
  verifyAuthenticity_eq_ok_iff

theorem checkExpected_ok_iff {u : Unit} :
    checkExpected x expect r = .ok u ↔ ∀ e ∈ expect, checkNotTruncated x r e = .ok () := by
  cases expect with
  | none => simp [checkExpected, pure_ok]
  | some e => simp [checkExpected, mapError_ok]

/-- What is asked of a stream under pinned issuers. -/
def AuthenticOk (x : Externs) (issuers : List String) (anchor : Option Attestation) (r : ChainReport)
    (es : List Event) : Prop :=
  if 1 < r.tenants.size then
    ∀ t c, r.tenants[t]? = some c →
      AuthOk x issuers c.window (eventsOf t es) ∧ ∀ e ∈ eventsOf t es, isUncovered x e = false
  else AuthOk x issuers (r.window (baseOf anchor)) es ∧ ∀ e ∈ es, isUncovered x e = false

/-- An authentication without an uncovered entry. -/
theorem authenticate_ok_iff (hi : f.issuers ≠ []) :
    (∃ a, authenticate x f anchor r es = .ok a ∧ a.uncovered = []) ↔ AuthenticOk x f.issuers anchor r es := by
  rw [authenticate, if_neg hi, AuthenticOk]
  split
  · simp only [bind_ok, pure_ok, verifyAuthenticityByTenant_eq_ok_iff]
    constructor
    · rintro ⟨_, ⟨_, ⟨hok, -, rfl⟩, rfl⟩, hu⟩ t c hc
      refine ⟨hok t c hc, ?_⟩
      rw [Authenticity.uncovered_eq_nil] at hu
      refine (issuerReport_uncovered_eq_nil (w := c.window)).mp (hu _ ?_)
      simp only [Authenticity.reports, Option.toList_none, List.nil_append, Option.map_some, Option.getD_some,
        List.mem_map, Prod.exists, Std.ExtTreeMap.mem_toList_iff_getElem?_eq_some, Std.ExtTreeMap.getElem?_map,
        exists_eq_right]
      exact ⟨t, by rw [hc]; rfl⟩
    · intro h
      refine ⟨_, ⟨_, ⟨fun t c hc => (h t c hc).1, .inr fun t c hc => (h t c hc).2, rfl⟩, rfl⟩, ?_⟩
      rw [Authenticity.uncovered_eq_nil]
      simp only [Authenticity.reports, Option.toList_none, List.nil_append, Option.map_some, Option.getD_some,
        List.mem_map, Prod.exists, Std.ExtTreeMap.mem_toList_iff_getElem?_eq_some, Std.ExtTreeMap.getElem?_map,
        exists_eq_right, Option.map_eq_some_iff]
      rintro _ ⟨t, c, hc, rfl⟩
      exact issuerReport_uncovered_eq_nil.mpr (h t c hc).2
  · simp only [bind_ok, pure_ok, verifyWhole_ok_iff]
    constructor
    · intro hx
      rcases hx with ⟨_, ⟨_, ⟨hok, -, rfl⟩, rfl⟩, hu⟩
      rw [Authenticity.uncovered_eq_nil] at hu
      exact ⟨hok, (issuerReport_uncovered_eq_nil (w := r.window (baseOf anchor))).mp (hu _ List.mem_cons_self)⟩
    · intro hx
      rcases hx with ⟨hok, hu⟩
      refine ⟨_, ⟨_, ⟨hok, .inr hu, rfl⟩, rfl⟩, ?_⟩
      rw [Authenticity.uncovered_eq_nil]
      simpa [Authenticity.reports] using issuerReport_uncovered_eq_nil.mpr hu

/-- **What `chain` asks of the stream of a file.** -/
structure StreamOk (x : Externs) (f : ChainFlags) (anchor expect : Option Attestation) (es : List Event)
    (r : ChainReport) : Prop where
  walk : chainByTenant x es (anchorsOf anchor) = .ok r
  consumed : ∀ t : String, r.unconsumedAnchors[t]? = none
  reach : ∀ e ∈ expect, checkNotTruncated x r e = .ok ()
  strict : f.strict = true → r.unverifiable = []
  authentic : f.issuers ≠ [] → AuthenticOk x f.issuers anchor r es

theorem authenticate_ok_iff_of_nil (hi : f.issuers = []) {a : Authenticity} :
    authenticate x f anchor r es = .ok a ↔ a = ⟨none, none⟩ := by
  rw [authenticate, if_pos hi, pure_ok, eq_comm]

/-- Authentication succeeds without an uncovered entry exactly as `StreamOk` asks. -/
theorem exists_authenticate : (∃ a, authenticate x f anchor r es = .ok a ∧ a.uncovered = []) ↔
      (f.issuers ≠ [] → AuthenticOk x f.issuers anchor r es) := by
  by_cases hi : f.issuers = []
  · simp only [authenticate_ok_iff_of_nil hi, exists_eq_left, hi, ne_eq, not_true_eq_false, false_imp_iff, iff_true]
    rw [Authenticity.uncovered_eq_nil]
    simp [Authenticity.reports]
  · rw [authenticate_ok_iff hi]
    simp [hi]

/-- **The check of a stream.** -/
theorem checkChain_ok_iff {duplicates : Nat} {r' : ChainReport} :
    (∃ run, checkChain x f anchor expect es duplicates = .ok run ∧ run.report = r') ↔
      ∃ r, StreamOk x f anchor expect es r ∧ { r with duplicates } = r' := by
  simp only [checkChain, bind_ok, mapError_ok, walkFrom_eq, refuseSome_ok, refuse_ok, exists_const, pure_ok,
    head?_toList_eq_none, checkExpected_ok_iff, not_and, ne_eq, not_not]
  constructor
  · intro h
    rcases h with ⟨_, ⟨r, hwalk, hcons, hreach, hstrict, a, ha, -, hu, rfl⟩, rfl⟩
    exact ⟨r, ⟨hwalk, hcons, hreach, hstrict, exists_authenticate.mp ⟨a, ha, hu⟩⟩, rfl⟩
  · intro h
    rcases h with ⟨r, ⟨hwalk, hcons, hreach, hstrict, hauth⟩, rfl⟩
    obtain ⟨a, ha, hu⟩ := exists_authenticate.mpr hauth
    exact ⟨_, ⟨r, hwalk, hcons, hreach, hstrict, a, ha, fun hne => absurd hu hne, hu, rfl⟩, rfl⟩

/-- A run reports what its authentication gave. -/
theorem checkChain_authenticate {duplicates : Nat} (h : checkChain x f anchor expect es duplicates = .ok run) :
    authenticate x f anchor run.report es = .ok run.authenticity := by
  simp only [checkChain, bind_ok, mapError_ok, refuseSome_ok, refuse_ok, exists_const, pure_ok] at h
  obtain ⟨r, -, -, _, -, -, a, ha, -, -, rfl⟩ := h
  exact ha

/-- The command up to the check of the stream. -/
theorem cmdChain_eq_ok_iff {x : Readers} : cmdChain x files f = .ok run ↔
      ∃ anchor expect ls es kept n, loadAnchor x files f.fromAnchor f.issuers = .ok anchor ∧
        loadAnchor x files f.expectAnchor f.issuers = .ok expect ∧ readLines files f.path = .ok ls ∧ ls ≠ [] ∧
        parseLines x "line" ls = .ok es ∧ dedup es = .ok (kept, n) ∧
        checkChain x.toExterns f anchor expect (sortBySeq kept) n = .ok run := by
  simp only [cmdChain, bind_ok, mapError_ok, refuse_ok, exists_const]
  constructor
  · intro h
    rcases h with ⟨anchor, ha, expect, he, ls, hls, hne, es, hes, ⟨kept, n⟩, hd, hrun⟩
    exact ⟨anchor, expect, ls, es, kept, n, ha, he, hls, hne, hes, hd, hrun⟩
  · intro h
    rcases h with ⟨anchor, expect, ls, es, kept, n, ha, he, hls, hne, hes, hd, hrun⟩
    exact ⟨anchor, ha, expect, he, ls, hls, hne, es, hes, (kept, n), hd, hrun⟩

/-- **The command.** It succeeds when its anchors load, its file has an event, and the stream of the file is as
asked. -/
theorem cmdChain_ok_iff {x : Readers} {r' : ChainReport} : (∃ run, cmdChain x files f = .ok run ∧ run.report = r') ↔
      ∃ anchor expect ls es kept n r, loadAnchor x files f.fromAnchor f.issuers = .ok anchor ∧
        loadAnchor x files f.expectAnchor f.issuers = .ok expect ∧ readLines files f.path = .ok ls ∧ ls ≠ [] ∧
        parseLines x "line" ls = .ok es ∧ dedup es = .ok (kept, n) ∧
        StreamOk x.toExterns f anchor expect (sortBySeq kept) r ∧ { r with duplicates := n } = r' := by
  simp only [cmdChain_eq_ok_iff]
  constructor
  · intro h
    rcases h with ⟨run, ⟨anchor, expect, ls, es, kept, n, ha, he, hls, hne, hes, hd, hrun⟩, hr⟩
    obtain ⟨r, hok, hr'⟩ := checkChain_ok_iff.mp ⟨run, hrun, hr⟩
    exact ⟨anchor, expect, ls, es, kept, n, r, ha, he, hls, hne, hes, hd, hok, hr'⟩
  · intro h
    rcases h with ⟨anchor, expect, ls, es, kept, n, r, ha, he, hls, hne, hes, hd, hok, hr'⟩
    obtain ⟨run, hrun, hr⟩ := checkChain_ok_iff.mpr ⟨r, hok, hr'⟩
    exact ⟨run, ⟨anchor, expect, ls, es, kept, n, ha, he, hls, hne, hes, hd, hrun⟩, hr⟩

/-- A run that succeeds has checked the events of its file. -/
theorem cmdChain_checked {x : Readers} (h : cmdChain x files f = .ok run) {es : List Event}
    (hes : FileEvents x files f.path es) {anchor : Option Attestation}
    (ha : loadAnchor x files f.fromAnchor f.issuers = .ok anchor) :
    ∃ expect ordered n r, (∀ e, e ∈ ordered ↔ e ∈ es) ∧ StreamOk x.toExterns f anchor expect ordered r ∧
      { r with duplicates := n } = run.report := by
  obtain ⟨anchor', expect, ls, es', kept, n, r, ha', -, hls, -, hps, hd, hok, hr⟩ := cmdChain_ok_iff.mp ⟨run, h, rfl⟩
  obtain ⟨ls', hls', hps'⟩ := hes
  obtain rfl : ls = ls' := Except.ok.inj (hls.symm.trans hls')
  obtain rfl : es' = es := Except.ok.inj (hps.symm.trans hps')
  obtain rfl : anchor' = anchor := Except.ok.inj (ha'.symm.trans ha)
  exact ⟨expect, sortBySeq kept, n, r, fun e => mem_stream (parseLines_hasIdentity hps) hd, hok, hr⟩

/-! ## Files to run the command on -/

/-- A decoder for the events of a table, with an issuer that has signed the attestations given. -/
def Readers.sample (as : List Attestation) (table : List Event) : Readers where
  toExterns := .signing as
  jsonDocument _ := none
  jsonValue _ := .error "expected value"
  serdeError _ _ := "expected value"
  decodePb raw :=
    match table.find? fun e => e.toPb.encodeToVec == raw with
    | some e => .ok e.toPb
    | none => .error "failed to decode"
  strictError _ := "expected value"
  f64OfNumber _ := 0
  debugF64 _ := "0.0"

/-- Every file holds the events as protobuf lines. -/
def Files.sample (es : List Event) : Files := ⟨fun _ => .ok (RustText.unlines (es.map Event.protobufLine)), .error ""⟩

/-- The flags `--issuer` for each AID and nothing else. -/
def ChainFlags.sample (issuers : List String) : ChainFlags := ⟨"events.jsonl", false, false, issuers, none, none, false⟩

theorem Readers.sample_decodes (as : List Attestation) (table : List Event) : Decodes (.sample as table) table := by
  intro e he
  simp only [Readers.sample]
  cases hf : table.find? fun e' => e'.toPb.encodeToVec == e.toPb.encodeToVec with
  | none => exact absurd (List.find?_eq_none.mp hf e he) (by simp)
  | some e' =>
    have hb := List.find?_some hf
    rw [beq_iff_eq] at hb
    exact congrArg Except.ok (SeamEventPb.encodeToVec_inj hb)

theorem readLines_sample (es : List Event) (issuers : List String) :
    readLines (.sample es) (ChainFlags.sample issuers).path = .ok (es.map Event.protobufLine) := by
  rw [readLines, if_neg (show ¬(ChainFlags.sample issuers).path = "-" from (by decide : ¬"events.jsonl" = "-"))]
  exact congrArg Except.ok (eventLines_protobuf es)

theorem fileEvents_sample {as : List Attestation} {es : List Event} (hid : ∀ e ∈ es, e.eventId ≠ "")
    (issuers : List String) :
    FileEvents (.sample as es) (.sample es) (ChainFlags.sample issuers).path (es.map Event.withIdentity) :=
  ⟨_, readLines_sample es issuers, parseLines_protobuf hid (Readers.sample_decodes as es)⟩

/-- The check of the events of a file, with the flags of the sample. -/
def checkSample (as : List Attestation) (es : List Event) (issuers : List String) : Except Stop ChainRun := do
  let p ← (dedup (es.map Event.withIdentity)).mapError (.fail · "CHAIN VERIFICATION FAILED")
  checkChain (.signing as) (.sample issuers) none none (sortBySeq p.1) p.2

/-- On such a file the command comes down to the check of its events. -/
theorem cmdChain_sample (as : List Attestation) {es : List Event} (hne : es ≠ []) (hid : ∀ e ∈ es, e.eventId ≠ "")
    (issuers : List String) :
    cmdChain (.sample as es) (.sample es) (.sample issuers) = checkSample as es issuers := by
  have hlines : ¬es.map Event.protobufLine = [] := by simpa using hne
  rw [cmdChain, readLines_sample es issuers]
  simp only [loadAnchor, ChainFlags.sample, pure, Except.pure, bind, Except.bind, Except.mapError,
    parseLines_protobuf hid (Readers.sample_decodes as es), refuse, if_neg hlines]
  rfl

theorem exists_cmdChain_sample (as : List Attestation) (es : List Event) (hne : es ≠ [])
    (hid : ∀ e ∈ es, e.eventId ≠ "") (h : (checkSample as es [sampleAid]).isOk = true) :
    ∃ run, cmdChain (.sample as es) (.sample es) (.sample [sampleAid]) = .ok run ∧
      FileEvents (.sample as es) (.sample es) (ChainFlags.sample [sampleAid]).path (es.map Event.withIdentity) := by
  rw [cmdChain_sample as hne hid]
  obtain ⟨run, hrun⟩ := exists_ok_of_isOk h
  exact ⟨run, hrun, fileEvents_sample hid _⟩

end SeamSdk
