import SeamSdk.Verify.Externs
import SeamSdk.Verify.Wire

/-!
# The digests of chained entries

Every chained event that is not a sealed decision is recomputed from its own fields: an `AUDIT_ENTRY` under the domain
its action selects, a `CHAIN_HEAD_ATTESTATION` and an `ERASURE_CERTIFICATE` under one domain each. The envelope
classification lies outside these digests and is fixed by the action or the kind instead. `Recomputes` holds the parts
each entry's digest commits to, and `recompute_recomputed_iff` says that these are what `recompute` accepts.
-/

namespace SeamSdk

open ByteCodec List

def managementDomain : String := "seam.audit.management.v1"

def managementActions : List String :=
  ["session_resumed", "party_registered", "party_removed", "cross_namespace_grant_placed",
    "cross_namespace_grant_revoked", "tenant_enrolled", "tenant_revoked", "config_snapshot_installed",
    "config_section_removed", "events_redriven", "erasure_previewed", "subject_commitments_recomputed",
    "subject_commitment_recompute_refused", "subject_commitment_tombstoned", "tenant_move_out", "tenant_move_in"]

/-- The other writers, each with the actions it emits. -/
def domains : List (String × List String) :=
  [("seam.audit.legal-hold.v1", ["hold_placed", "hold_released"]),
    ("seam.audit.archive-evict.v1", ["ciphertext_evicted"]),
    ("seam.audit.boundary.v1", ["boundary.data_flagged"]),
    ("seam.audit.denial.v1", ["admit.compat_reject", "execute.scope_deny"]),
    ("seam.audit.purge.v1", ["crypto_shred_purge"]),
    ("seam.audit.erasure.v1", ["gdpr_erasure", "tenant_kek_shred"]),
    ("seam.audit.context-recall.v1", ["context_recalled"])]

/-- The domain an action is digested under. `fact_appended` chains the fact's own checksum, and an unknown action comes
from a newer producer; neither has one. -/
def auditDomain (action : String) : Option String :=
  if action = "fact_appended" then none
  else if managementActions.contains action then some managementDomain
  else (domains.find? fun d => d.2.contains action).map Prod.fst

/-- The classification an action is written with. -/
def auditClassification (action : String) : String :=
  if action = "execute.scope_deny" ∨ action = "boundary.data_flagged" then "Confidential"
  else if action = "gdpr_erasure" then "Pii"
  else "Internal"

def kindClassificationContract : List (String × String) :=
  [("DECISION_SEALED", "varies"), ("AUDIT_ENTRY", "varies"), ("LEARNING_DECISION", "varies"),
    ("LEARNING_OUTCOME", "varies"), ("BUDGET_BREACH", "Internal"), ("ERASURE_CERTIFICATE", "Pii"),
    ("CHAIN_HEAD_ATTESTATION", "Internal"), ("SESSION_LIFECYCLE", "Internal"), ("AUTHORIZE_EVALUATED", "Internal"),
    ("POLICY_DENIED", "Internal"), ("EVENT_REDRIVEN", "varies")]

/-- The classification a kind is written with. -/
def fixedClassification (kind : String) : String :=
  ((kindClassificationContract.find? fun c => c.1 == kind).map Prod.snd).getD ""

/-! ## Preimages -/

/-- Seven frames, the bare time, and a frame for the actor only when there is one. -/
def auditEntryParts (e : Event) (a : AuditEntry) (domain : String) : List Part :=
  frames ([domain, a.action, e.tenant, e.nameSpace, e.sessionId.getD "", a.subject, a.reason].map utf8) ++
    [.raw (u64le e.occurredAt)] ++ frames (a.actor.map utf8).toList

/-- The attesting tenant is not among the parts: its signature binds it. -/
def chainAttestParts (a : Attestation) : List Bytes :=
  [utf8 "seam.audit.chain-attest-entry.v1", u64le a.attestedLen, a.attestedHead, u64le a.attestedAt,
    u32le a.digestSchema, utf8 a.issuerAid, a.signature]

/-- Both lists are counted, so that no id can move from one to the other. -/
def erasureCertParts (c : Cert) : List Bytes :=
  [utf8 "seam.audit.erasure-cert.v2", utf8 c.subject, u32le (UInt32.ofNat c.erased.length)] ++ c.erased.map utf8 ++
    [u32le (UInt32.ofNat c.held.length)] ++ c.held.map utf8 ++
    [u64le c.erasedAt, c.chainHead, utf8 c.issuerAid, c.signature]

section

variable (x : Externs)

def auditEntryDigest (e : Event) (a : AuditEntry) (domain : String) : Bytes :=
  x.sha256 (layout (auditEntryParts e a domain))

def framed (parts : List Bytes) : Bytes := x.sha256 (layout (frames parts))

def chainAttestDigest (a : Attestation) : Bytes := framed x (chainAttestParts a)

def erasureCertDigest (c : Cert) : Bytes := framed x (erasureCertParts c)

/-! ## Recomputing an entry -/

/-- What recomputing a link found. -/
inductive Body
  | recomputed
  | rewritten (what : String)
  | uncovered
  deriving DecidableEq, Repr

/-- The classification is checked before the digest, so that a relabel is named as one. -/
def Body.check (what label fixed : String) (digest stored : Bytes) : Body :=
  if label ≠ fixed then .rewritten (what ++ "'s classification")
  else if digest = stored then .recomputed
  else .rewritten what

def recompute (e : Event) : Body :=
  match e.digest with
  | none => .uncovered
  | some stored =>
    if e.kind = "AUDIT_ENTRY" then
      match e.audit with
      | none => .uncovered
      | some a =>
        match auditDomain a.action with
        | none => .uncovered
        | some domain =>
          .check "AUDIT_ENTRY" e.classification (auditClassification a.action) (auditEntryDigest x e a domain) stored
    else if e.kind = "CHAIN_HEAD_ATTESTATION" then
      match e.attestation with
      | none => .uncovered
      | some a =>
        .check "CHAIN_HEAD_ATTESTATION" e.classification (fixedClassification "CHAIN_HEAD_ATTESTATION")
          (chainAttestDigest x a) stored
    else if e.kind = "ERASURE_CERTIFICATE" then
      match e.cert with
      | none => .uncovered
      | some c =>
        .check "ERASURE_CERTIFICATE" e.classification (fixedClassification "ERASURE_CERTIFICATE")
          (erasureCertDigest x c) stored
    else .uncovered

end

/-- An entry with the parts its digest commits to and the classification it must carry. -/
inductive Recomputes (e : Event) : List Part → Prop
  | audit {a : AuditEntry} {domain : String} (kind : e.kind = "AUDIT_ENTRY") (payload : e.audit = some a)
    (dom : auditDomain a.action = some domain) (label : e.classification = auditClassification a.action) :
    Recomputes e (auditEntryParts e a domain)
  | attestation {a : Attestation} (kind : e.kind = "CHAIN_HEAD_ATTESTATION") (payload : e.attestation = some a)
    (label : e.classification = "Internal") : Recomputes e (frames (chainAttestParts a))
  | cert {c : Cert} (kind : e.kind = "ERASURE_CERTIFICATE") (payload : e.cert = some c)
    (label : e.classification = "Pii") : Recomputes e (frames (erasureCertParts c))

theorem fixedClassification_attestation : fixedClassification "CHAIN_HEAD_ATTESTATION" = "Internal" := by decide

theorem fixedClassification_cert : fixedClassification "ERASURE_CERTIFICATE" = "Pii" := by decide

theorem Body.check_eq_recomputed {what label fixed : String} {digest stored : Bytes} :
    Body.check what label fixed digest stored = .recomputed ↔ label = fixed ∧ digest = stored := by
  unfold Body.check
  split_ifs <;> simp_all

/-- **What `recompute` accepts**: the hash of the entry's own fields, under its own classification. -/
theorem recompute_recomputed_iff {x : Externs} {e : Event} :
    recompute x e = .recomputed ↔ ∃ ps, Recomputes e ps ∧ e.digest = some (x.sha256 (layout ps)) := by
  constructor
  · intro h
    unfold recompute at h
    split at h
    · cases h
    rename_i stored hd
    split_ifs at h with hk1 hk2 hk3
    · split at h
      · cases h
      rename_i a ha
      split at h
      · cases h
      rename_i domain hdom
      obtain ⟨hl, rfl⟩ := Body.check_eq_recomputed.mp h
      exact ⟨_, .audit hk1 ha hdom hl, hd⟩
    · split at h
      · cases h
      rename_i a ha
      obtain ⟨hl, rfl⟩ := Body.check_eq_recomputed.mp h
      exact ⟨_, .attestation hk2 ha (hl.trans fixedClassification_attestation), hd⟩
    · split at h
      · cases h
      rename_i c hc
      obtain ⟨hl, rfl⟩ := Body.check_eq_recomputed.mp h
      exact ⟨_, .cert hk3 hc (hl.trans fixedClassification_cert), hd⟩
  · intro hx
    rcases hx with ⟨_, ⟨hk, hp, hdom, hl⟩ | ⟨hk, hp, hl⟩ | ⟨hk, hp, hl⟩, hd⟩
    · simp [recompute, hd, hk, hp, hdom, hl, Body.check, auditEntryDigest]
    · simp [recompute, hd, hk, hp, hl, fixedClassification_attestation, Body.check, chainAttestDigest, framed]
    · simp [recompute, hd, hk, hp, hl, fixedClassification_cert, Body.check, erasureCertDigest, framed]

/-! ## The parts determine the entry -/

/-- An audit entry's parts determine every field, whether there is an actor included. -/
theorem auditEntryParts_inj {e f : Event} {a b : AuditEntry} {dom dom' : String}
    (he : ∀ p ∈ auditEntryParts e a dom, p.Short) (hf : ∀ p ∈ auditEntryParts f b dom', p.Short)
    (h : layout (auditEntryParts e a dom) = layout (auditEntryParts f b dom')) :
    dom = dom' ∧ a = b ∧ e.tenant = f.tenant ∧ e.nameSpace = f.nameSpace ∧
      e.sessionId.getD "" = f.sessionId.getD "" ∧ e.occurredAt = f.occurredAt := by
  unfold auditEntryParts at he hf h
  rw [forall_mem_append] at he hf
  rw [layout_append _ (frames _), layout_append _ (frames _)] at h
  -- the first eight parts have one shape; what is left is no frame or one
  obtain ⟨hfixed, hactor⟩ := layout_split (by simp [frames, Part.SameShape]) he.1 hf.1 h
  have hactor := congrArg List.head? (frames_inj he.2 hf.2 hactor)
  rw [Option.head?_toList, Option.head?_toList, (Option.map_injective utf8_injective).eq_iff] at hactor
  simp only [frames, map_cons, map_nil, cons_append, nil_append, List.cons.injEq, Part.frame.injEq,
    Part.raw.injEq, utf8_inj, u64le_inj, and_true] at hfixed
  obtain ⟨hdom, haction, htenant, hns, hsession, hsubject, hreason, htime⟩ := hfixed
  cases a
  cases b
  simp only [AuditEntry.mk.injEq]
  exact ⟨hdom, ⟨haction, hsubject, hreason, hactor⟩, htenant, hns, hsession, htime⟩

/-- An attestation entry's parts determine every field but the tenant. -/
theorem chainAttestParts_inj {a b : Attestation} (ha : ∀ p ∈ frames (chainAttestParts a), p.Short)
    (hb : ∀ p ∈ frames (chainAttestParts b), p.Short)
    (h : layout (frames (chainAttestParts a)) = layout (frames (chainAttestParts b))) :
    { a with tenant := "" } = { b with tenant := "" } := by
  have hparts := frames_inj ha hb h
  simp only [chainAttestParts, List.cons.injEq, utf8_inj, u64le_inj, u32le_inj, true_and, and_true] at hparts
  obtain ⟨hlen, hhead, hat, hschema, haid, hsig⟩ := hparts
  rw [hlen, hhead, hat, hschema, haid, hsig]

/-- What both digests of a certificate commit to, behind their domain. -/
def Cert.body (c : Cert) : List Bytes :=
  [utf8 c.subject, u32le (UInt32.ofNat c.erased.length)] ++ c.erased.map utf8 ++
    [u32le (UInt32.ofNat c.held.length)] ++ c.held.map utf8 ++ [u64le c.erasedAt, c.chainHead, utf8 c.issuerAid]

/-- The counts of a certificate's lists are read back. -/
structure Cert.Counted (c : Cert) : Prop where
  erased : c.erased.length < 2 ^ 32
  held : c.held.length < 2 ^ 32

/-- The body determines every field but the signature: each list stands behind its own count. -/
theorem Cert.body_split {c d : Cert} (hc : c.Counted) (hd : d.Counted) {r s : List Bytes}
    (h : c.body ++ r = d.body ++ s) : { c with signature := [] } = { d with signature := [] } ∧ r = s := by
  simp only [body, cons_append, nil_append, append_assoc, List.cons.injEq, utf8_inj] at h
  obtain ⟨hsubject, hcount, h⟩ := h
  have hlen := u32le_length_inj hc.erased hd.erased hcount
  obtain ⟨herased, h⟩ := append_inj h (by simpa using hlen)
  rw [List.cons.injEq] at h
  have hlen' := u32le_length_inj hc.held hd.held h.1
  obtain ⟨hheld, hrest⟩ := append_inj h.2 (by simpa using hlen')
  simp only [List.cons.injEq, u64le_inj, utf8_inj] at hrest
  obtain ⟨hat, hhead, haid, hrs⟩ := hrest
  have hmap := map_injective_iff.mpr utf8_injective
  rw [hsubject, hmap herased, hmap hheld, hat, hhead, haid]
  exact ⟨rfl, hrs⟩

/-- A certificate's parts determine every field. -/
theorem erasureCertParts_inj {c d : Cert} (hc : ∀ p ∈ frames (erasureCertParts c), p.Short)
    (hd : ∀ p ∈ frames (erasureCertParts d), p.Short)
    (hce : c.erased.length < 2 ^ 32) (hde : d.erased.length < 2 ^ 32)
    (hch : c.held.length < 2 ^ 32) (hdh : d.held.length < 2 ^ 32)
    (h : layout (frames (erasureCertParts c)) = layout (frames (erasureCertParts d))) : c = d := by
  have hparts : ∀ c : Cert, erasureCertParts c = utf8 "seam.audit.erasure-cert.v2" :: (c.body ++ [c.signature]) := by
    intro c
    simp [erasureCertParts, Cert.body]
  have heq := frames_inj hc hd h
  rw [hparts, hparts, List.cons.injEq] at heq
  obtain ⟨hfields, hsig⟩ := Cert.body_split ⟨hce, hch⟩ ⟨hde, hdh⟩ heq.2
  cases c
  cases d
  simp_all

end SeamSdk
