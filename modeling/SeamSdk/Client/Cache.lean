import SeamSdk.Client.Ledger

/-!
# The ticket cache

The blocking and the asyncio client keep their ticket in one kind of cache. What becomes of a ticket in it is the same for
both. A ticket that is not in the cache, or stale there at a reading of the clock, is not found by a later look
(`not_stale_of_get`), and what a look does not find is such a ticket (`stale_of_get`). Dropping a ticket or storing
another one does not bring it back (`stale_invalidate`, `stale_store`).
-/

namespace SeamSdk

open ByteCodec

namespace PyClient

structure TicketCache where
  ticket : Option Bytes
  refreshAtMs : Int
  deriving DecidableEq, Repr

/-- When a ticket stored at `nowMs` becomes stale: at four fifths of its time to live. -/
def refreshPoint (expiresAtMs nowMs : Int) : Int := nowMs + (expiresAtMs - nowMs) * 8 / 10

namespace TicketCache

/-- Also the cache at first. -/
def invalidate : TicketCache := ⟨none, 0⟩

def get (c : TicketCache) (nowMs : Int) : Option Bytes :=
  if c.ticket.isSome ∧ nowMs < c.refreshAtMs then c.ticket else none

/-- A ticket that is empty or has expired is not kept. -/
def store (ticket : Bytes) (expiresAtMs nowMs : Int) : TicketCache :=
  if expiresAtMs - nowMs ≤ 0 ∨ ticket = [] then invalidate else ⟨some ticket, refreshPoint expiresAtMs nowMs⟩

theorem get_eq_some_iff {c : TicketCache} {nowMs : Int} {t : Bytes} :
    c.get nowMs = some t ↔ c.ticket = some t ∧ nowMs < c.refreshAtMs := by
  unfold get
  split
  · rename_i h
    simp [h.2]
  · rename_i h
    constructor
    · intro hnone
      cases hnone
    · intro hsome
      exact absurd ⟨by simp [hsome.1], hsome.2⟩ h

theorem get_eq_none_iff {c : TicketCache} {nowMs : Int} :
    c.get nowMs = none ↔ ∀ t, c.ticket = some t → c.refreshAtMs ≤ nowMs := by
  constructor
  · intro h t ht
    by_contra hlt
    have hget := get_eq_some_iff.mpr ⟨ht, not_le.mp hlt⟩
    rw [h] at hget
    cases hget
  · intro h
    cases hget : c.get nowMs with
    | none => rfl
    | some t =>
      obtain ⟨ht, hlt⟩ := get_eq_some_iff.mp hget
      exact absurd (h t ht) (not_le.mpr hlt)

theorem store_ticket {ticket t : Bytes} {expiresAtMs nowMs : Int}
    (h : (store ticket expiresAtMs nowMs).ticket = some t) : t = ticket ∧ nowMs < expiresAtMs ∧
      (store ticket expiresAtMs nowMs).refreshAtMs = refreshPoint expiresAtMs nowMs := by
  unfold store at h ⊢
  split at h
  · cases h
  · rename_i hc
    rw [if_neg hc]
    push Not at hc
    exact ⟨(Option.some.inj h).symm, by omega, rfl⟩

theorem store_ticket_of_lt {ticket : Bytes} {expiresAtMs nowMs : Int} (hne : ticket ≠ [])
    (hlt : nowMs < expiresAtMs) : (store ticket expiresAtMs nowMs).ticket = some ticket := by
  unfold store
  rw [if_neg]
  intro h
  rcases h with h | h
  · omega
  · exact hne h

/-! ## Stale tickets -/

section Stale

variable {c : TicketCache} {read read' : Int → Prop} {good good' : Bytes → Prop} {s t : Bytes} {exp now : Int}
  {r : Option Bytes}

/-- Not in the cache, or stale there at a reading of the clock. -/
def Stale (c : TicketCache) (read : Int → Prop) (t : Bytes) : Prop :=
  c.ticket = some t → ∃ now, read now ∧ c.refreshAtMs ≤ now

theorem Stale.mono (h : c.Stale read t) (hread : ∀ now, read now → read' now) : c.Stale read' t := by
  intro ht
  obtain ⟨now, hnow, hle⟩ := h ht
  exact ⟨now, hread now hnow, hle⟩

theorem stale_invalidate : invalidate.Stale read t := nofun

theorem stale_store (h : t ≠ s) : (store s exp now).Stale read t := fun ht => absurd (store_ticket ht).1 h

theorem stale_of_get (hnow : read now) (h : c.get now ≠ some t) : c.Stale read t :=
  fun ht => ⟨now, hnow, not_lt.mp fun hlt => h (get_eq_some_iff.mpr ⟨ht, hlt⟩)⟩

/-- **The latest look finds no stale ticket.** -/
theorem not_stale_of_get (hlatest : ∀ n, read n → n ≤ now) (h : c.get now = some t) : ¬c.Stale read t := by
  obtain ⟨ht, hlt⟩ := get_eq_some_iff.mp h
  intro hstale
  obtain ⟨n, hn, hle⟩ := hstale ht
  exact absurd (hle.trans (hlatest n hn)) (not_le.mpr hlt)

/-- What a look at the cache gives: a ticket that is good. Any other one is stale. -/
structure Looked (c : TicketCache) (read : Int → Prop) (good : Bytes → Prop) (r : Option Bytes) : Prop where
  found : ∀ t, r = some t → good t
  others : ∀ t, r ≠ some t → c.Stale read t

theorem Looked.mono (h : c.Looked read good r) (hread : ∀ now, read now → read' now) (hgood : ∀ t, good t → good' t) :
    c.Looked read' good' r :=
  ⟨fun t ht => hgood t (h.found t ht), fun t ht => (h.others t ht).mono hread⟩

theorem looked_get (hnow : read now) (hgood : ∀ t, c.get now = some t → good t) : c.Looked read good (c.get now) :=
  ⟨hgood, fun _ ht => stale_of_get hnow ht⟩

end Stale

end TicketCache

theorem refreshPoint_lt {expiresAtMs nowMs : Int} (h : nowMs < expiresAtMs) :
    refreshPoint expiresAtMs nowMs < expiresAtMs := by
  unfold refreshPoint
  omega

end PyClient

namespace Ledger

variable {ε : Type} {good good' : Bytes → Prop} {r : Except ε Bytes}

/-- What a fetch returns is good. -/
def Returns (good : Bytes → Prop) (r : Except ε Bytes) : Prop := ∀ t, r = .ok t → good t

theorem returns_ok {t : Bytes} (h : good t) : Returns good (.ok t : Except ε Bytes) := by
  intro s hs
  cases hs
  exact h

theorem returns_error (e : ε) : Returns good (.error e) := nofun

theorem Returns.mono (h : Returns good r) (hgood : ∀ t, good t → good' t) : Returns good' r :=
  fun t ht => hgood t (h t ht)

end Ledger

end SeamSdk
