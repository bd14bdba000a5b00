import SeamSdk.Verify.Externs
import SeamSdk.Verify.Wire

/-!
# Payload binds to kind

Each payload slot belongs to exactly one kind. `checkKindPayload` refuses an event that carries another kind's
payload, an event of a known kind without its own, and an advisory event with chain fields. `checkKindPayload_ok_iff`
states the three rules as `KindBound`; from it, a slot is filled exactly on the events of its kind
(`KindBound.present_iff`), and no advisory event is a link (`KindBound.not_advisory_of_isLink`).
-/

namespace SeamSdk

open Checked

/-- A payload slot: its label, whether the event carries it, and the kind it belongs to. -/
structure PayloadSlot where
  field : String
  present : Bool
  owner : String

def payloadSlots (e : Event) : List PayloadSlot :=
  let p := e.presence
  [⟨"payload (tag 13)", e.decision.isSome, "DECISION_SEALED"⟩,
    ⟨"learning_decision (tag 14)", p.learningDecision, "LEARNING_DECISION"⟩,
    ⟨"learning_outcome (tag 15)", p.learningOutcome, "LEARNING_OUTCOME"⟩,
    ⟨"audit_entry (tag 16)", e.audit.isSome, "AUDIT_ENTRY"⟩,
    ⟨"budget_breach (tag 17)", p.budgetBreach, "BUDGET_BREACH"⟩,
    ⟨"erasure_certificate (tag 18)", e.cert.isSome, "ERASURE_CERTIFICATE"⟩,
    ⟨"session_lifecycle (tag 21)", p.sessionLifecycle, "SESSION_LIFECYCLE"⟩,
    ⟨"chain_head_attestation (tag 22)", e.attestation.isSome, "CHAIN_HEAD_ATTESTATION"⟩,
    ⟨"authorize_evaluated (tag 23)", e.authorize.isSome, "AUTHORIZE_EVALUATED"⟩,
    ⟨"policy_denied (tag 24)", e.denial.isSome, "POLICY_DENIED"⟩,
    ⟨"event_redriven (tag 26)", p.eventRedriven, "EVENT_REDRIVEN"⟩]

def foreignPayloadMessage (e : Event) (s : PayloadSlot) : String :=
  s!"tenant '{e.tenant}': seq {e.seq}: KIND/PAYLOAD MISMATCH — a {e.kind} event carries {s.field}, which only a " ++
  s!"{s.owner} carries. A payload was grafted onto another kind (e.g. a sealed decision dressed as an " ++
  "advisory row), or the producer is non-conforming."

def missingPayloadMessage (e : Event) (s : PayloadSlot) : String :=
  s!"tenant '{e.tenant}': seq {e.seq}: KIND/PAYLOAD MISMATCH — a {e.kind} event carries no {s.owner} payload."

def advisoryChainFieldsMessage (e : Event) : String :=
  s!"tenant '{e.tenant}': seq {e.seq}: ADVISORY EVENT WITH CHAIN FIELDS — a {e.kind} event is never a chain link, " ++
  "but it carries digest/checksum. An advisory row cannot be promoted into the chain."

def checkKindPayload (e : Event) : Except String Unit := do
  refuseSome ((payloadSlots e).find? fun s => s.present && s.owner != e.kind) (foreignPayloadMessage e)
  refuseSome (((payloadSlots e).find? fun s => s.owner == e.kind).filter fun s => !s.present) (missingPayloadMessage e)
  refuse (e.isAdvisory = true ∧ (e.digest.isSome = true ∨ e.checksum.isSome = true)) (advisoryChainFieldsMessage e)

/-- What `checkKindPayload` asks of an event. -/
structure KindBound (e : Event) : Prop where
  own : ∀ s ∈ payloadSlots e, s.present = true → s.owner = e.kind
  carried : ∀ s ∈ payloadSlots e, s.owner = e.kind → s.present = true
  unchained : e.isAdvisory = true → e.digest = none ∧ e.checksum = none

/-- No two slots belong to one kind. -/
theorem owner_inj {e : Event} : ∀ s ∈ payloadSlots e, ∀ s' ∈ payloadSlots e, s.owner = s'.owner → s = s' := by
  have hn : ((payloadSlots e).map PayloadSlot.owner).Nodup := by
    simp only [payloadSlots, List.map_cons, List.map_nil]
    decide
  exact fun s hs s' hs' h => List.inj_on_of_nodup_map hn hs hs' h

/-- The slot found for the event's kind is the only one of that kind. -/
theorem find_owner_filter_eq_none {e : Event} :
    ((payloadSlots e).find? fun s => s.owner == e.kind).filter (fun s => !s.present) = none ↔
      ∀ s ∈ payloadSlots e, s.owner = e.kind → s.present = true := by
  cases hf : (payloadSlots e).find? fun s => s.owner == e.kind with
  | none =>
    have hno : ∀ s ∈ payloadSlots e, s.owner ≠ e.kind := by simpa using hf
    exact ⟨fun _ s hs ho => absurd ho (hno s hs), fun _ => rfl⟩
  | some s =>
    have hs := List.mem_of_find?_eq_some hf
    have ho : s.owner = e.kind := by simpa using List.find?_some hf
    simp only [Option.filter_eq_none_iff, Option.some.injEq, forall_eq', Bool.not_eq_true, Bool.not_eq_false']
    constructor
    · intro hp s' hs' ho'
      exact owner_inj s hs s' hs' (ho.trans ho'.symm) ▸ hp
    · intro h; exact h s hs ho

theorem checkKindPayload_ok_iff {e : Event} {u : Unit} : checkKindPayload e = .ok u ↔ KindBound e := by
  simp only [checkKindPayload, bind_ok, refuseSome_ok, refuse_ok, find_owner_filter_eq_none, exists_const]
  constructor
  · intro hx
    rcases hx with ⟨hown, hcarried, hadv⟩
    exact ⟨by simpa using hown, hcarried, by simpa using hadv⟩
  · intro h
    exact ⟨by simpa using h.own, h.carried, by simpa using h.unchained⟩

namespace KindBound

variable {e : Event}

/-- A slot is filled exactly on the events of its kind. -/
theorem present_iff (h : KindBound e) {s : PayloadSlot} (hs : s ∈ payloadSlots e) :
    s.present = true ↔ e.kind = s.owner :=
  ⟨fun hp => (h.own s hs hp).symm, fun hk => h.carried s hs hk.symm⟩

theorem decision_iff (h : KindBound e) : e.decision.isSome = true ↔ e.kind = "DECISION_SEALED" :=
  h.present_iff (s := ⟨"payload (tag 13)", e.decision.isSome, "DECISION_SEALED"⟩) (by simp [payloadSlots])

theorem not_advisory_of_isLink (h : KindBound e) (hl : e.isLink = true) : e.isAdvisory = false := by
  cases ha : e.isAdvisory with
  | false => rfl
  | true =>
    rw [Event.isLink, (h.unchained ha).1] at hl
    cases hl

end KindBound

end SeamSdk
