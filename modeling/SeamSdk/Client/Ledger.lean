import SeamSdk.Lib.ByteCodec
import Mathlib.Data.Finset.Card
import Mathlib.Data.Finset.Option
import Mathlib.Data.List.Basic

/-!
# Tickets and what becomes of them

Whatever happens between a client and the server is noted in a log, newest first (`Event`). The surroundings, that is
clock and server, are limited by what a statement says of the log (`Surroundings`).

A ticket is dead when a call has received `UNAUTHENTICATED` for it, or when it was dropped because a write under it was
burned (`dead`). The other tickets that were given out are alive.

- `SpentBut.admitted`, `Quiet.dropped`: what giving out a ticket and dropping one do to those that are alive;
- `length_admissions_le`: if at most one ticket is alive, there is at most one admission more than dead tickets.
-/

namespace SeamSdk

open ByteCodec List

/-! ## Errors -/

inductive StatusCode
  | invalidArgument
  | failedPrecondition
  | permissionDenied
  | unauthenticated
  | notFound
  | alreadyExists
  | resourceExhausted
  | unavailable
  | deadlineExceeded
  | unimplemented
  | internal
  deriving DecidableEq, Repr

/-- What a call to the server raises: the status, and from its details a reason and a delay in seconds. -/
structure SeamRpcError where
  code : StatusCode
  reason : Option String
  retryAfter : Option Rat
  deriving DecidableEq, Repr

namespace SeamRpcError

variable (e : SeamRpcError)

def isSessionUnavailable : Bool := e.code = .unavailable ∧ e.reason = some "SESSION_UNAVAILABLE"

def isTenantMoving : Bool := e.code = .failedPrecondition ∧ e.reason = some "TENANT_MOVING"

def isRetryable : Bool := e.isSessionUnavailable || e.isTenantMoving

/-- Errors without details on when to come back, for runs. -/
def sessionUnavailable : SeamRpcError := ⟨.unavailable, some "SESSION_UNAVAILABLE", none⟩

def unauthenticated : SeamRpcError := ⟨.unauthenticated, none, none⟩

end SeamRpcError

/-- The writes whose signature the server burns before it takes the session. -/
def replayGuarded : List String :=
  (["OpenSession", "SubmitProposal", "SubmitEvaluation", "SubmitObjection", "SubmitVote", "SubmitCommit",
    "SubmitApprovalRequest", "SubmitBallot", "CancelSession", "ExpireSession"].map
      fun verb => "/seam.api.v1.SeamCoordination/" ++ verb) ++ ["/seam.api.v1.SeamContext/RegisterContext"]

/-- Whether a refusal has burned the signature of the write. -/
def burns (rpcFullName : String) (e : SeamRpcError) : Bool :=
  replayGuarded.contains rpcFullName && (e.isSessionUnavailable || e.isTenantMoving)

def errorOf {α : Type} : Except SeamRpcError α → Option SeamRpcError
  | .ok _ => none
  | .error e => some e

def authorizeRpc : String := "/seam.api.v1.SeamAuthorization/Authorize"

/-- The calls that use the ticket of the identity. -/
inductive Call
  | admitAgent
  | authorize
  | signedOnce (rpcFullName : String)
  | credentialedCall (rpcFullName : String) (retry : Bool)
  deriving DecidableEq, Repr

namespace Ledger

/-! ## Clock and server -/

section Surroundings

variable {E : Type} {ticket? : E → Option Bytes} {clock? : E → Option Int} {log : List E} {e : E}

/-- The server gives out no ticket twice. -/
def newTicket (ticket? : E → Option Bytes) (log : List E) (e : E) : Bool :=
  (ticket? e).all fun t => t ∉ log.filterMap ticket?

/-- The clock does not go back. -/
def onward (clock? : E → Option Int) (log : List E) (e : E) : Bool :=
  (clock? e).all fun now => (log.filterMap clock?).all (· ≤ now)

theorem notMem_of_newTicket (h : newTicket ticket? log e = true) {t : Bytes} (he : ticket? e = some t) :
    t ∉ log.filterMap ticket? := by
  rw [newTicket, he] at h
  exact of_decide_eq_true h

theorem le_of_onward (h : onward clock? log e = true) {now n : Int} (he : clock? e = some now) {e' : E} (hlog : e' ∈ log)
    (he' : clock? e' = some n) : n ≤ now := by
  rw [onward, he] at h
  exact of_decide_eq_true (all_eq_true.mp h n (mem_filterMap.mpr ⟨e', hlog, he'⟩))

end Surroundings

/-! ## Events -/

/-- Where a fetch begins, the ticket it returns, and what is over. -/
inductive Mark
  | fetching
  | fetched (ticket : Bytes)
  | refreshed (failed : Bytes)
  | forgot (ticket : Bytes)
  | attempt (n : Nat)
  deriving DecidableEq, Repr

inductive Event
  | clock (nowMs : Int)
  | admitted (ticket : Bytes) (expiresAtMs : Int)
  | stored (ticket : Bytes) (expiresAtMs nowMs : Int)
  | got (thread : Nat) (nowMs : Int) (ticket : Bytes)
  | dropped (ticket : Bytes)
  | answered (thread : Nat) (rpcFullName : String) (ticket : Bytes) (error : Option SeamRpcError)
  | marked (thread : Nat) (m : Mark)
  deriving DecidableEq, Repr

/-- What clock and server may do next, after what has happened. -/
abbrev Surroundings := List Event → Event → Bool

def Event.ticket? : Event → Option Bytes
  | .admitted t _ => some t
  | _ => none

def Event.clock? : Event → Option Int
  | .clock now => some now
  | _ => none

/-- The tickets the server has given out. -/
def admissions (log : List Event) : List Bytes := log.filterMap Event.ticket?

variable {log : List Event} {t : Bytes} {exp : Int}

theorem mem_admissions : t ∈ admissions log ↔ ∃ exp, .admitted t exp ∈ log := by
  unfold admissions
  rw [mem_filterMap]
  constructor
  · intro h
    obtain ⟨e, he, ht⟩ := h
    cases e with
    | admitted s exp =>
      cases ht
      exact ⟨exp, he⟩
    | _ => cases ht
  · intro h
    obtain ⟨exp, he⟩ := h
    exact ⟨_, he, rfl⟩

theorem admissions_cons {e : Event} (he : ∀ t exp, e ≠ .admitted t exp) (log : List Event) :
    admissions (e :: log) = admissions log := by
  cases e with
  | admitted t exp => exact absurd rfl (he t exp)
  | _ => rfl

/-- The server never repeats a ticket and gives no empty one, and the clock stays before every expiry. -/
def withinTtl : Surroundings
  | log, .admitted t _ => t ≠ [] ∧ t ∉ admissions log
  | log, .clock now => log.all fun
    | .admitted _ exp => now < exp
    | _ => true
  | _, _ => true

theorem withinTtl_admitted (h : withinTtl log (.admitted t exp) = true) : t ≠ [] ∧ t ∉ admissions log := by
  simpa [withinTtl] using h

theorem withinTtl_clock {now : Int} (h : withinTtl log (.clock now) = true) (he : .admitted t exp ∈ log) :
    now < exp := by
  simp only [withinTtl, all_eq_true] at h
  simpa using h _ he

/-- The clock stays also where every stored ticket is fresh. -/
def whileFresh (fresh : (nowMs expiresAtMs storedAtMs : Int) → Bool) : Surroundings
  | log, .clock now => withinTtl log (.clock now) && log.all fun
    | .stored _ exp n => fresh now exp n
    | _ => true
  | log, e => withinTtl log e

theorem withinTtl_of_whileFresh {fresh : Int → Int → Int → Bool} {e : Event} (h : whileFresh fresh log e = true) :
    withinTtl log e = true := by
  cases e with
  | clock now =>
    simp only [whileFresh, Bool.and_eq_true] at h
    exact h.1
  | _ => exact h

theorem whileFresh_stored {fresh : Int → Int → Int → Bool} {now : Int} (h : whileFresh fresh log (.clock now) = true)
    {n : Int} (he : .stored t exp n ∈ log) : fresh now exp n = true := by
  simp only [whileFresh, Bool.and_eq_true, all_eq_true] at h
  exact h.2 _ he

/-! ## Dead tickets -/

/-- A ticket for which a call received `UNAUTHENTICATED`. -/
def Event.rejects : Event → Option Bytes
  | .answered _ _ t (some e) => if e.code = .unauthenticated then some t else none
  | _ => none

/-- A ticket under which a guarded write was burned. -/
def Event.burns : Event → Option Bytes
  | .answered _ rpc t (some e) => if SeamSdk.burns rpc e then some t else none
  | _ => none

def Event.drops : Event → Option Bytes
  | .dropped t => some t
  | _ => none

/-- Rejected, or dropped as burned. -/
def dead (log : List Event) : List Bytes :=
  log.filterMap Event.rejects ++ (log.filterMap Event.drops).filter fun t => t ∈ log.filterMap Event.burns

theorem mem_dead : t ∈ dead log ↔ t ∈ log.filterMap Event.rejects ∨
    t ∈ log.filterMap Event.drops ∧ t ∈ log.filterMap Event.burns := by
  simp [dead]

theorem mem_filterMap_of_suffix {f : Event → Option Bytes} {log' : List Event} (h : log <:+ log')
    (ht : t ∈ log.filterMap f) : t ∈ log'.filterMap f :=
  (h.sublist.filterMap f).subset ht

theorem mem_dead_of_suffix {log' : List Event} (h : log <:+ log') (ht : t ∈ dead log) : t ∈ dead log' := by
  rcases mem_dead.mp ht with hr | ⟨hd, hb⟩
  · exact mem_dead.mpr (.inl (mem_filterMap_of_suffix h hr))
  · exact mem_dead.mpr (.inr ⟨mem_filterMap_of_suffix h hd, mem_filterMap_of_suffix h hb⟩)

/-! ## Condemned tickets -/

/-- A call received `UNAUTHENTICATED` for the ticket. -/
def Rejected (t : Bytes) (log : List Event) : Prop := t ∈ log.filterMap Event.rejects

/-- The ticket was rejected, or a guarded write was burned under it. -/
def Condemned (t : Bytes) (log : List Event) : Prop := Rejected t log ∨ t ∈ log.filterMap Event.burns

section

variable {log log' : List Event} {t : Bytes} {cached : Option Bytes}

theorem Rejected.mono (h : Rejected t log) (hlog : log <:+ log') : Rejected t log' := mem_filterMap_of_suffix hlog h

theorem Condemned.mono (h : Condemned t log) (hlog : log <:+ log') : Condemned t log' :=
  h.imp (·.mono hlog) (mem_filterMap_of_suffix hlog)

/-- A condemned ticket is dead once it is dropped. -/
theorem Condemned.dropped (h : Condemned t log) : t ∈ dead (.dropped t :: log) := by
  rcases h with h | h
  · exact mem_dead.mpr (.inl (mem_filterMap_of_suffix (suffix_cons _ _) h))
  · exact mem_dead.mpr (.inr ⟨.head _, mem_filterMap_of_suffix (suffix_cons _ _) h⟩)

/-- What an error tells of the ticket that was sent. -/
def Told (rpc : String) (t : Bytes) (e : SeamRpcError) (log : List Event) : Prop :=
  (e.code = .unauthenticated → Rejected t log) ∧ (SeamSdk.burns rpc e = true → Condemned t log)

theorem Told.mono {rpc : String} {e : SeamRpcError} (h : Told rpc t e log) (hlog : log <:+ log') : Told rpc t e log' :=
  ⟨fun hcode => (h.1 hcode).mono hlog, fun hburns => (h.2 hburns).mono hlog⟩

theorem told_answered (i : Nat) (rpc : String) (t : Bytes) (e : SeamRpcError) (log : List Event) :
    Told rpc t e (.answered i rpc t (some e) :: log) := by
  constructor
  · intro hcode
    simp [Rejected, Event.rejects, hcode]
  · intro hburns
    right
    simp [Event.burns, hburns]

/-! ## Tickets that are alive -/

/-- Every ticket but the one given is dead. -/
def SpentBut (t : Option Bytes) (log : List Event) : Prop := ∀ s ∈ admissions log, some s = t ∨ s ∈ dead log

/-- Every ticket is dead or in the cache. -/
def Quiet (cached : Option Bytes) (log : List Event) : Prop := ∀ t ∈ admissions log, t ∈ dead log ∨ cached = some t

theorem SpentBut.mono {t : Option Bytes} (h : SpentBut t log) (hlog : log <:+ log')
    (hadmissions : admissions log' = admissions log) : SpentBut t log' := by
  intro s hs
  rw [hadmissions] at hs
  exact (h s hs).imp_right (mem_dead_of_suffix hlog)

theorem Quiet.mono (h : Quiet cached log) (hlog : log <:+ log') (hadmissions : admissions log' = admissions log) :
    Quiet cached log' := by
  intro s hs
  rw [hadmissions] at hs
  exact (h s hs).imp_left (mem_dead_of_suffix hlog)

/-- Giving out a ticket when all are dead. -/
theorem SpentBut.admitted (h : SpentBut none log) (t : Bytes) (exp : Int) :
    SpentBut (some t) (.admitted t exp :: log) := by
  intro s hs
  rcases mem_cons.mp hs with rfl | hs
  · exact .inl rfl
  · exact .inr (mem_dead_of_suffix (suffix_cons _ _) ((h s hs).resolve_left nofun))

theorem SpentBut.quiet (h : SpentBut cached log) : Quiet cached log := fun s hs => (h s hs).symm.imp_right Eq.symm

theorem SpentBut.quiet_of_none (h : SpentBut none log) (cached : Option Bytes) : Quiet cached log :=
  fun s hs => .inl ((h s hs).resolve_left nofun)

theorem Quiet.spent (h : Quiet none log) : SpentBut none log := fun s hs => .inr ((h s hs).resolve_right nofun)

/-- Dropping a condemned ticket from the cache. -/
theorem Quiet.dropped (h : Quiet (some t) log) (ht : Condemned t log) : SpentBut none (.dropped t :: log) := by
  intro s hs
  rcases h s hs with hdead | hs
  · exact .inr (mem_dead_of_suffix (suffix_cons _ _) hdead)
  · obtain rfl := Option.some.inj hs
    exact .inr ht.dropped

/-- At most one ticket is alive, so the others are dead tickets, all different. -/
theorem length_admissions_le {t : Option Bytes} (hnodup : (admissions log).Nodup) (ht : SpentBut t log) :
    (admissions log).length ≤ 1 + (dead log).toFinset.card := by
  have hsub : (admissions log).toFinset ⊆ t.toFinset ∪ (dead log).toFinset := by
    intro s hs
    rw [mem_toFinset] at hs
    rw [Finset.mem_union, Option.mem_toFinset, mem_toFinset]
    exact (ht s hs).imp_left Eq.symm
  have hone : t.toFinset.card ≤ 1 := by
    cases t <;> simp
  calc (admissions log).length = (admissions log).toFinset.card := (toFinset_card_of_nodup hnodup).symm
    _ ≤ (t.toFinset ∪ (dead log).toFinset).card := Finset.card_le_card hsub
    _ ≤ t.toFinset.card + (dead log).toFinset.card := Finset.card_union_le _ _
    _ ≤ 1 + (dead log).toFinset.card := Nat.add_le_add_right hone _

end

end Ledger

end SeamSdk
