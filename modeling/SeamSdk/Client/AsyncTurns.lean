import SeamSdk.Client.AsyncTickets

/-!
# Turns of the asynchronous client

What one operation does to the two maps and the log, and the invariant that follows for the handshakes: the map holds
the one handshake that is not settled, and is cleared by the call that began it.

- `Mine.of_step`: no call touches the promises of another one or their entry in the map;
- `Shared.step`, `Coalesced.step`: the invariants of the handshakes and of the tickets.
-/

namespace SeamSdk.AsyncClient

open ByteCodec Threads Ledger EventLoop List

/-! ## The data -/

section Data

variable {env : Surroundings} {i : Nat} {s s' : State}

theorem note_eq_some {e : Event} : note env e s = some s' ↔ env s.log e = true ∧ s' = { s with log := e :: s.log } := by
  unfold note
  rw [Option.ite_none_right_eq_some, Option.some.injEq, @eq_comm _ s']

theorem sync_dateNow {now : Int} : sync env .dateNow now s = some s' ↔
    now.natAbs ≤ maxTime ∧ env s.log (.clock now) = true ∧ s' = { s with log := .clock now :: s.log } := by
  have hsync : sync env .dateNow now s = if now.natAbs ≤ maxTime then note env (.clock now) s else none := rfl
  rw [hsync, Option.ite_none_right_eq_some, note_eq_some]

theorem sync_ticketsGet {r : Option CachedTicket} : sync env .ticketsGet r s = some s' ↔ r = s.tickets ∧ s' = s := by
  have hsync : sync env .ticketsGet r s = if r = s.tickets then some s else none := rfl
  rw [hsync, Option.ite_none_right_eq_some, Option.some.injEq, @eq_comm _ s']

theorem sync_admittingGet {r : Option Nat} : sync env .admittingGet r s = some s' ↔ r = s.admitting ∧ s' = s := by
  have hsync : sync env .admittingGet r s = if r = s.admitting then some s else none := rfl
  rw [hsync, Option.ite_none_right_eq_some, Option.some.injEq, @eq_comm _ s']

theorem sync_ticketsDelete {r : Unit} : sync env .ticketsDelete r s = some s' ↔
    (s.tickets = none ∧ s' = s) ∨ ∃ c, s.tickets = some c ∧ env s.log (.dropped c.ticket) = true ∧
      s' = { s with tickets := none, log := .dropped c.ticket :: s.log } := by
  obtain ⟨tickets, admitting, log⟩ := s
  cases tickets with
  | none =>
    show some _ = some s' ↔ _
    simp [@eq_comm _ s']
  | some c =>
    refine note_eq_some.trans ?_
    simp

theorem deliver_requestAdmit {r : Except SeamRpcError (Bytes × Int)} : deliver env i .requestAdmit r s = some s' ↔
    ((∃ e, r = .error e) ∧ s' = s) ∨ ∃ t exp, r = .ok (t, exp) ∧ env s.log (.admitted t exp) = true ∧
      s' = { s with log := .admitted t exp :: s.log } := by
  cases r with
  | error e =>
    show some s = some s' ↔ _
    simp [@eq_comm _ s']
  | ok a =>
    refine note_eq_some.trans ?_
    simp [Prod.ext_iff]

/-- What every operation does to the log, and those that are not about a handshake to the map. -/
theorem log_of_sync {o : Sync} {r : Ans o} (h : sync env o r s = some s') :
    s.log <:+ s'.log ∧ admissions s'.log = admissions s.log := by
  cases o with
  | dateNow =>
    obtain ⟨-, -, rfl⟩ := sync_dateNow.mp h
    exact ⟨suffix_cons _ _, rfl⟩
  | ticketsGet =>
    obtain ⟨-, rfl⟩ := sync_ticketsGet.mp h
    exact ⟨suffix_refl _, rfl⟩
  | ticketsSet =>
    obtain ⟨-, rfl⟩ := note_eq_some.mp h
    exact ⟨suffix_cons _ _, rfl⟩
  | ticketsDelete =>
    rcases sync_ticketsDelete.mp h with ⟨-, rfl⟩ | ⟨c, -, -, rfl⟩
    · exact ⟨suffix_refl _, rfl⟩
    · exact ⟨suffix_cons _ _, rfl⟩
  | admittingGet =>
    obtain ⟨-, rfl⟩ := sync_admittingGet.mp h
    exact ⟨suffix_refl _, rfl⟩
  | admittingSet | admittingDelete =>
    cases h
    exact ⟨suffix_refl _, rfl⟩

/-- The operations on the map of handshakes. -/
def Sync.writes : Sync → Bool
  | .admittingSet _ | .admittingDelete => true
  | _ => false

theorem admitting_of_sync {o : Sync} {r : Ans o} (h : sync env o r s = some s') (ho : o.writes = false) :
    s'.admitting = s.admitting := by
  cases o with
  | admittingSet | admittingDelete => cases ho
  | dateNow =>
    obtain ⟨-, -, rfl⟩ := sync_dateNow.mp h
    rfl
  | ticketsGet =>
    obtain ⟨-, rfl⟩ := sync_ticketsGet.mp h
    rfl
  | ticketsSet =>
    obtain ⟨-, rfl⟩ := note_eq_some.mp h
    rfl
  | ticketsDelete =>
    rcases sync_ticketsDelete.mp h with ⟨-, rfl⟩ | ⟨c, -, -, rfl⟩
    · rfl
    · rfl
  | admittingGet =>
    obtain ⟨-, rfl⟩ := sync_admittingGet.mp h
    rfl

theorem tickets_of_deliver {q : Req} {r : Reply q} (h : deliver env i q r s = some s') :
    s'.tickets = s.tickets ∧ s'.admitting = s.admitting ∧ s.log <:+ s'.log := by
  cases q with
  | issueChallenge =>
    cases h
    exact ⟨rfl, rfl, suffix_refl _⟩
  | requestAdmit =>
    rcases deliver_requestAdmit.mp h with ⟨-, rfl⟩ | ⟨t, exp, -, -, rfl⟩
    · exact ⟨rfl, rfl, suffix_refl _⟩
    · exact ⟨rfl, rfl, suffix_cons _ _⟩
  | send =>
    obtain ⟨-, rfl⟩ := note_eq_some.mp h
    exact ⟨rfl, rfl, suffix_cons _ _⟩

/-- Only `Admit` gives out tickets. -/
theorem admissions_of_deliver {q : Req} {r : Reply q} (h : deliver env i q r s = some s') (hq : q ≠ .requestAdmit) :
    admissions s'.log = admissions s.log := by
  cases q with
  | issueChallenge =>
    cases h
    rfl
  | requestAdmit => exact absurd rfl hq
  | send =>
    obtain ⟨-, rfl⟩ := note_eq_some.mp h
    rfl

end Data

/-! ## What a call owes the others -/

/-- Every ticket is dead or in the cache, and dead while a handshake is under way. -/
def Idle (w : World) : Prop :=
  Quiet (w.data.tickets.map CachedTicket.ticket) w.data.log ∧ ∀ p i, w.Pending p i → SpentBut none w.data.log

/-- A handshake that is not settled is in the map. -/
structure Parked (strict : Prop) (i : Nat) (w : World) : Prop where
  pending : ∀ p, w.Pending p i → w.data.admitting = some p
  idle : strict → Idle w

/-- No settled handshake of the call is in the map. -/
def Cleared (i : Nat) (w : World) : Prop := ∀ p, w.data.admitting = some p → ¬w.Settled p i

/-- What is owed before an operation. If `strict`, it is also about the tickets. -/
def owes (strict : Prop) (i : Nat) : Operation → World → Prop
  | .leave, w => Parked strict i w ∧ Cleared i w
  | .request _, w => Parked strict i w ∧ Cleared i w
  | .suspendOn _, w => Parked strict i w ∧ Cleared i w
  | .yield, w => Parked strict i w
  | .promise, w => (∀ p j, ¬w.Pending p j) ∧ (strict → SpentBut none w.data.log)
  | .settle p _, w => w.Pending p i
  | .sync (.admittingSet p), w => w.data.admitting = none ∧ w.Pending p i
  | .sync .admittingDelete, w => ∃ p, w.data.admitting = some p ∧ w.Settled p i
  | .deliver .requestAdmit, w => ∃ p, w.Pending p i
  | _, _ => True

section Step

variable {env : Surroundings} {strict : Prop} {i j p : Nat} {o : Operation} {r : Answer o} {w w' : World}

theorem turn_sync {o : Sync} {r : Ans o} : step (machine env) i (.sync o : Operation) r w = some w' ↔
    w.running = some i ∧ ∃ d, sync env o r w.data = some d ∧ w' = { w with data := d } :=
  step_sync

theorem turn_deliver {q : Req} {r : Reply q} : step (machine env) i (.deliver q : Operation) r w = some w' ↔
    (w.running = none ∧ w.ready = []) ∧
      ∃ d, deliver env i q r w.data = some d ∧ w' = { w with running := some i, data := d } :=
  step_deliver

theorem parked_of_owes (h : owes strict i o w) (ho : o.suspends = true) : Parked strict i w := by
  cases o with
  | leave | request | suspendOn => exact h.1
  | yield => exact h
  | _ => cases ho

theorem cleared_of_owes (h : owes strict i o w) (ho : o.suspends = true) (hyield : o ≠ .yield) : Cleared i w := by
  cases o with
  | leave | request | suspendOn => exact h.2
  | yield => exact absurd rfl hyield
  | _ => cases ho

/-! ## The promises of a call -/

/-- The promises a call has made are as before, and so is their entry in the map. -/
structure Mine (i : Nat) (w w' : World) : Prop where
  promises : ∀ p v, w'.Has p i v ↔ w.Has p i v
  entry : ∀ p v, w.Has p i v → (w'.data.admitting = some p ↔ w.data.admitting = some p)
  log : w.data.log <:+ w'.data.log

/-- **No call touches the handshake of another one.** -/
theorem Mine.of_step (hne : j ≠ i) (howes : owes strict j o w) (h : step (machine env) j o r w = some w') :
    Mine i w w' := by
  have hpromises : ∀ p v, w'.Has p i v ↔ w.Has p i v := by
    intro p v
    refine has_of_step hne h ?_
    rintro q x rfl
    exact howes
  have hdata : ∀ {w' : World}, w'.data = w.data → ∀ p v, w.Has p i v →
      (w'.data.admitting = some p ↔ w.data.admitting = some p) := by
    intro w' hdata p v _
    rw [hdata]
  cases o with
  | enter | resume | wake =>
    have heq := (taken_of_step h rfl).data
    exact ⟨hpromises, hdata heq, heq ▸ suffix_refl _⟩
  | leave | request | suspendOn | yield =>
    have heq := (suspended_of_step h rfl).data
    exact ⟨hpromises, hdata heq, heq ▸ suffix_refl _⟩
  | promise =>
    obtain ⟨-, -, rfl⟩ := step_promise.mp h
    exact ⟨hpromises, hdata rfl, suffix_refl _⟩
  | settle =>
    obtain ⟨-, rfl⟩ := step_settle.mp h
    exact ⟨hpromises, hdata rfl, suffix_refl _⟩
  | deliver =>
    obtain ⟨-, d, hd, rfl⟩ := turn_deliver.mp h
    obtain ⟨-, hadmitting, hlog⟩ := tickets_of_deliver hd
    exact ⟨hpromises, fun p v _ => by rw [hadmitting], hlog⟩
  | sync o =>
    obtain ⟨-, d, hd, rfl⟩ := turn_sync.mp h
    refine ⟨hpromises, ?_, (log_of_sync hd).1⟩
    intro p v hp
    by_cases ho : o.writes = false
    · rw [admitting_of_sync hd ho]
    · -- The entry that is written is one of the call itself.
      cases o with
      | admittingSet q =>
        cases hd
        obtain ⟨hnone, hq⟩ := howes
        rw [hnone]
        constructor
        · intro heq
          cases heq
          exact absurd (hq.unique hp).1 hne
        · intro heq
          cases heq
      | admittingDelete =>
        cases hd
        obtain ⟨q, hentry, x, hq⟩ := howes
        rw [hentry]
        constructor
        · intro heq
          cases heq
        · intro heq
          cases heq
          exact absurd (hq.unique hp).1 hne
      | _ => exact absurd rfl ho

/-! ## The handshakes -/

/-- At most one handshake is not settled, and it is in the map. A settled one is there only until the call that began it
runs again. -/
structure Shared (w : World) : Prop where
  one : ∀ p q i j, w.Pending p i → w.Pending q j → p = q
  known : ∀ p i, w.Pending p i → w.data.admitting = some p ∨ w.running = some i
  made : ∀ p, w.data.admitting = some p → ∃ i v, w.Has p i v
  led : ∀ p i, w.data.admitting = some p → w.Settled p i → w.running = some i ∨ i ∈ w.ready

theorem has_congr (h : w'.promises = w.promises) {p i : Nat} {v : Option Outcome} : w'.Has p i v ↔ w.Has p i v := by
  unfold Loop.Has
  rw [h]

theorem not_settled_of_pending (h : w.Pending p i) : ¬w.Settled p j := by
  intro hsettled
  obtain ⟨r, hr⟩ := hsettled
  cases (h.unique hr).2

/-- What is left to ask of a step that makes no promise, settles none and leaves `admitting` alone. -/
theorem Shared.congr (hw : Shared w) (hpromises : w'.promises = w.promises)
    (hadmitting : w'.data.admitting = w.data.admitting)
    (hknown : ∀ p j, w.Pending p j → w.running = some j → w.data.admitting = some p ∨ w'.running = some j)
    (hled : ∀ p j, w.data.admitting = some p → w.Settled p j → w.running = some j ∨ j ∈ w.ready →
      w'.running = some j ∨ j ∈ w'.ready) : Shared w' := by
  have hhas : ∀ {p j v}, w'.Has p j v ↔ w.Has p j v := has_congr hpromises
  refine ⟨?_, ?_, ?_, ?_⟩
  · intro p q j k hp hq
    exact hw.one p q j k (hhas.mp hp) (hhas.mp hq)
  · intro p j hp
    rw [hadmitting]
    exact (hw.known p j (hhas.mp hp)).elim .inl (hknown p j (hhas.mp hp))
  · intro p hp
    obtain ⟨j, v, hmade⟩ := hw.made p (hadmitting ▸ hp)
    exact ⟨j, v, hhas.mpr hmade⟩
  · intro p j hp hsettled
    obtain ⟨x, hx⟩ := hsettled
    have hentry : w.data.admitting = some p := hadmitting ▸ hp
    exact hled p j hentry ⟨x, hhas.mp hx⟩ (hw.led p j hentry ⟨x, hhas.mp hx⟩)

theorem Shared.taken (hw : Shared w) (h : Taken i w w') : Shared w' := by
  refine hw.congr h.promises (by rw [h.data]) ?_ ?_
  · intro p j _ hrun
    rw [h.before] at hrun
    cases hrun
  · intro p j _ _ hled
    rw [h.before, or_iff_right nofun] at hled
    by_cases hj : j = i
    · exact .inl (hj ▸ h.after)
    · exact .inr (h.ready j hled hj)

theorem Shared.suspended (hw : Shared w) (hparked : Parked strict i w) (hcleared : o ≠ .yield → Cleared i w)
    (h : Suspended i o w w') : Shared w' := by
  refine hw.congr h.promises (by rw [h.data]) ?_ ?_
  · intro p j hp hrun
    rw [h.before, Option.some.injEq] at hrun
    subst hrun
    exact .inl (hparked.pending p hp)
  · intro p j hentry hsettled hled
    right
    rcases hled with hrun | hready
    · rw [h.before, Option.some.injEq] at hrun
      subst hrun
      by_cases hyield : o = .yield
      · exact h.yield hyield
      · exact absurd hsettled (hcleared hyield p hentry)
    · exact h.ready hready

theorem Shared.sync {o : Sync} {r : Ans o} {d : State} (hw : Shared w) (howes : owes strict i (.sync o) w)
    (h : sync env o r w.data = some d) : Shared { w with data := d } := by
  by_cases ho : o.writes = false
  · exact hw.congr rfl (admitting_of_sync h ho) (fun _ _ _ hrun => .inr hrun) fun _ _ _ _ hled => hled
  · cases o with
    | admittingSet q =>
      cases h
      refine ⟨hw.one, ?_, ?_, ?_⟩
      · intro p j hp
        rw [hw.one p q j i hp howes.2]
        exact .inl rfl
      · intro p hp
        cases hp
        exact ⟨i, none, howes.2⟩
      · intro p j hp hsettled
        cases hp
        exact absurd hsettled (not_settled_of_pending howes.2)
    | admittingDelete =>
      cases h
      obtain ⟨q, hentry, hsettled⟩ := howes
      refine ⟨hw.one, ?_, nofun, nofun⟩
      intro p j hp
      refine .inr ((hw.known p j hp).resolve_left ?_)
      intro hp'
      rw [hentry, Option.some.injEq] at hp'
      exact not_settled_of_pending (hp' ▸ hp) hsettled
    | _ => exact absurd rfl ho

/-- **No operation breaks the invariant of the handshakes.** -/
theorem Shared.step (hw : Shared w) (howes : owes strict i o w) (h : step (machine env) i o r w = some w') :
    Shared w' := by
  cases o with
  | enter | resume | wake => exact hw.taken (taken_of_step h rfl)
  | leave | request | suspendOn | yield =>
    exact hw.suspended (parked_of_owes howes rfl) (cleared_of_owes howes rfl) (suspended_of_step h rfl)
  | sync o =>
    obtain ⟨-, d, hd, rfl⟩ := turn_sync.mp h
    exact hw.sync howes hd
  | promise =>
    obtain ⟨hrun, -, rfl⟩ := step_promise.mp h
    have hnew : ∀ {p j}, ({ w with promises := w.promises ++ [⟨i, none⟩] } : World).Pending p j →
        p = w.promises.length ∧ j = i := by
      intro p j hp
      have hmade := (Loop.Has.promise.mp hp).resolve_left (howes.1 p j)
      exact ⟨hmade.1, hmade.2.1⟩
    refine ⟨?_, ?_, ?_, ?_⟩
    · intro p q j k hp hq
      rw [(hnew hp).1, (hnew hq).1]
    · intro p j hp
      exact .inr ((hnew hp).2 ▸ hrun)
    · intro p hp
      obtain ⟨j, v, hmade⟩ := hw.made p hp
      exact ⟨j, v, Loop.Has.promise.mpr (.inl hmade)⟩
    · intro p j hp hsettled
      obtain ⟨x, hx⟩ := hsettled
      exact hw.led p j hp ⟨x, (Loop.Has.promise.mp hx).resolve_right fun hnone => nomatch hnone.2.2⟩
  | settle q x =>
    obtain ⟨hrun, rfl⟩ := step_settle.mp h
    have hq : w.Pending q i := howes
    have hold : ∀ {p j}, (w.settle q x).Pending p j → w.Pending p j := by
      intro p j hp
      exact ((Loop.Has.settle hq).mp hp |>.resolve_right fun hnone => nomatch hnone.2.2).2
    refine ⟨?_, ?_, ?_, ?_⟩
    · exact fun p p' j k hp hp' => hw.one p p' j k (hold hp) (hold hp')
    · exact fun p j hp => hw.known p j (hold hp)
    · intro p hp
      by_cases hpq : p = q
      · exact ⟨i, some x, (Loop.Has.settle hq).mpr (.inr ⟨hpq, rfl, rfl⟩)⟩
      · obtain ⟨j, v, hmade⟩ := hw.made p hp
        exact ⟨j, v, (Loop.Has.settle hq).mpr (.inl ⟨hpq, hmade⟩)⟩
    · intro p j hp hsettled
      obtain ⟨y, hy⟩ := hsettled
      rcases (Loop.Has.settle hq).mp hy with ⟨-, hold⟩ | ⟨-, rfl, -⟩
      · exact (hw.led p j hp ⟨y, hold⟩).imp_right (mem_append_left _)
      · exact .inl hrun
  | deliver =>
    obtain ⟨⟨hrun, hready⟩, d, hd, rfl⟩ := turn_deliver.mp h
    obtain ⟨-, hadmitting, -⟩ := tickets_of_deliver hd
    refine hw.congr rfl hadmitting ?_ ?_
    · intro p j _ hrun'
      rw [hrun] at hrun'
      cases hrun'
    · intro p j _ _ hled
      rw [hrun, hready] at hled
      rcases hled with hled | hled
      · cases hled
      · cases hled

/-! ## The tickets -/

/-- The clock stays before every refresh point as well. -/
def beforeRefresh : Surroundings := whileFresh fun now exp n => (now : Rat) < refreshPoint exp n

/-- The surroundings do no more than that. -/
def Calm (env : Surroundings) : Prop := ∀ log e, env log e = true → beforeRefresh log e = true

/-- At most one ticket is alive; while nothing runs, it is in the cache. -/
structure Coalesced (w : World) : Prop where
  nodup : (admissions w.data.log).Nodup
  alive : ∃ t, SpentBut t w.data.log
  idle : w.running = none → Idle w
  cached : ∀ c, w.data.tickets = some c →
    ∃ exp n, .stored c.ticket exp n ∈ w.data.log ∧ c.refreshAtMs = refreshPoint exp n

theorem Idle.congr (h : Idle w) (hpromises : w'.promises = w.promises) (hdata : w'.data = w.data) : Idle w' := by
  unfold Idle
  rw [hdata]
  exact ⟨h.1, fun p j hp => h.2 p j ((has_congr hpromises).mp hp)⟩

theorem Coalesced.congr (hw : Coalesced w) (hdata : w'.data = w.data) (hidle : w'.running = none → Idle w') :
    Coalesced w' := by
  refine ⟨?_, ?_, hidle, ?_⟩
  · exact hdata ▸ hw.nodup
  · exact hdata ▸ hw.alive
  · rw [hdata]
    exact hw.cached

/-- A turn after which a function runs. -/
theorem Coalesced.grow (hw : Coalesced w) (hrun : w'.running = some i) (hlog : w.data.log <:+ w'.data.log)
    (hadmissions : admissions w'.data.log = admissions w.data.log)
    (hcached : ∀ c, w'.data.tickets = some c → w.data.tickets = some c ∨
      ∃ exp n, .stored c.ticket exp n ∈ w'.data.log ∧ c.refreshAtMs = refreshPoint exp n) : Coalesced w' := by
  refine ⟨hadmissions ▸ hw.nodup, hw.alive.imp fun _ ht => ht.mono hlog hadmissions, ?_, ?_⟩
  · rw [hrun]
    exact nofun
  · intro c hc
    rcases hcached c hc with hold | hnew
    · obtain ⟨exp, n, hstored, hrefresh⟩ := hw.cached c hold
      exact ⟨exp, n, hlog.subset hstored, hrefresh⟩
    · exact hnew

/-- The cached ticket is the one from before, or has just been stored. -/
theorem cached_of_sync {o : Sync} {r : Ans o} {s s' : State} (h : sync env o r s = some s') {c : CachedTicket}
    (hc : s'.tickets = some c) : s.tickets = some c ∨
      ∃ exp n, .stored c.ticket exp n ∈ s'.log ∧ c.refreshAtMs = refreshPoint exp n := by
  cases o with
  | dateNow =>
    obtain ⟨-, -, rfl⟩ := sync_dateNow.mp h
    exact .inl hc
  | ticketsGet =>
    obtain ⟨-, rfl⟩ := sync_ticketsGet.mp h
    exact .inl hc
  | ticketsSet t exp n =>
    obtain ⟨-, rfl⟩ := note_eq_some.mp h
    cases hc
    exact .inr ⟨exp, n, .head _, rfl⟩
  | ticketsDelete =>
    rcases sync_ticketsDelete.mp h with ⟨-, rfl⟩ | ⟨_, -, -, rfl⟩
    · exact .inl hc
    · cases hc
  | admittingGet =>
    obtain ⟨-, rfl⟩ := sync_admittingGet.mp h
    exact .inl hc
  | admittingSet | admittingDelete =>
    cases h
    exact .inl hc

theorem Coalesced.suspended (hw : Coalesced w) (hidle : Idle w) (h : Suspended i o w w') : Coalesced w' :=
  hw.congr h.data fun _ => hidle.congr h.promises h.data

theorem Coalesced.taken (hw : Coalesced w) (h : Taken i w w') : Coalesced w' := by
  refine hw.congr h.data ?_
  rw [h.after]
  exact nofun

/-- **No operation breaks the invariant of the tickets.** -/
theorem Coalesced.step (hw : Coalesced w) (henv : Calm env) (hstrict : strict) (howes : owes strict i o w)
    (h : step (machine env) i o r w = some w') : Coalesced w' := by
  cases o with
  | enter | resume | wake => exact hw.taken (taken_of_step h rfl)
  | leave | request | suspendOn | yield =>
    exact hw.suspended ((parked_of_owes howes rfl).idle hstrict) (suspended_of_step h rfl)
  | sync o =>
    obtain ⟨hrun, d, hd, rfl⟩ := turn_sync.mp h
    obtain ⟨hlog, hadmissions⟩ := log_of_sync hd
    exact hw.grow hrun hlog hadmissions fun c hc => cached_of_sync hd hc
  | promise =>
    obtain ⟨hrun, -, rfl⟩ := step_promise.mp h
    exact hw.grow hrun (suffix_refl _) rfl fun _ hc => .inl hc
  | settle =>
    obtain ⟨hrun, rfl⟩ := step_settle.mp h
    exact hw.grow hrun (suffix_refl _) rfl fun _ hc => .inl hc
  | deliver q =>
    obtain ⟨⟨hrun, -⟩, d, hd, rfl⟩ := turn_deliver.mp h
    obtain ⟨htickets, -, hlog⟩ := tickets_of_deliver hd
    by_cases hq : q = .requestAdmit
    · subst hq
      rcases deliver_requestAdmit.mp hd with ⟨-, rfl⟩ | ⟨t, exp, -, hnote, rfl⟩
      · exact hw.grow rfl (suffix_refl _) rfl fun _ hc => .inl hc
      · -- The call has a handshake under way, so that all tickets are dead.
        obtain ⟨p, hp⟩ := howes
        have hspent := (hw.idle hrun).2 p i hp
        obtain ⟨-, hnew⟩ := withinTtl_admitted (withinTtl_of_whileFresh (henv _ _ hnote))
        refine ⟨nodup_cons.mpr ⟨hnew, hw.nodup⟩, ⟨some t, hspent.admitted t exp⟩, nofun, ?_⟩
        intro c hc
        obtain ⟨exp', n, hstored, hrefresh⟩ := hw.cached c hc
        exact ⟨exp', n, .tail _ hstored, hrefresh⟩
    · exact hw.grow rfl hlog (admissions_of_deliver hd hq) fun c hc => .inl (htickets.symm.trans hc)

end Step

/-! ## The discipline -/

variable {env : Surroundings} {strict : Prop} (henv : strict → Calm env)

def sharing : Discipline (client env) where
  inv w := Shared w ∧ (strict → Coalesced w)
  pre := owes strict
  keeps hw howes h := ⟨hw.1.step howes h, fun hstrict => (hw.2 hstrict).step (henv hstrict) hstrict howes h⟩

end SeamSdk.AsyncClient
