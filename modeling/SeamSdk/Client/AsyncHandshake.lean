import SeamSdk.Client.AsyncTurns

/-!
# A handshake of the asynchronous client

A function runs on until it awaits; what it relies on then is what the others leave alone (`Own`), its own handshake above
all. The operations of a handshake keep the discipline of `sharing`.

- `suspend_spec`, `take_spec`: giving up the control, and taking it again;
- `handshake_spec`: challenge and `Admit`, after which the ticket is in the cache;
- `lead_spec`: the same from the entry in the map to its deletion.
-/

namespace SeamSdk.AsyncClient

open ByteCodec Threads Ledger EventLoop Binary64 Client

/-! ## What lasts -/

variable {P : World → Prop} {α : Type}

section Lasting

variable {i p : Nat} {w w' : World} {B : List Event → Prop}

/-- What the others leave alone. -/
def Own (i : Nat) (C : World → Prop) : Prop := ∀ w w', Mine i w w' → C w → C w'

/-- What a larger log leaves true. -/
def Growing (B : List Event → Prop) : Prop := ∀ log log', log <:+ log' → B log → B log'

theorem Growing.own (hB : Growing B) : Own i fun w => B w.data.log := fun _ _ h hw => hB _ _ h.log hw

theorem Own.and {C C' : World → Prop} (hC : Own i C) (hC' : Own i C') : Own i fun w => C w ∧ C' w :=
  fun w w' h hw => ⟨hC w w' h hw.1, hC' w w' h hw.2⟩

/-- The call has no handshake under way, and none of its own in the map. -/
def Clear (i : Nat) (w : World) : Prop := (∀ p, ¬w.Pending p i) ∧ Cleared i w

/-- The handshake of the call is under way and in the map. -/
def Leading (i p : Nat) (w : World) : Prop := w.Pending p i ∧ w.data.admitting = some p

/-- The handshake of the call is over and still in the map. -/
def Led (i p : Nat) (w : World) : Prop := (w.Settled p i ∧ w.data.admitting = some p) ∧ ∀ q, ¬w.Pending q i

theorem own_clear : Own i (Clear i) := by
  intro w w' h hw
  refine ⟨fun p hp => hw.1 p ((h.promises p none).mp hp), ?_⟩
  intro p hentry hsettled
  obtain ⟨x, hx⟩ := hsettled
  have hold := (h.promises p (some x)).mp hx
  exact hw.2 p ((h.entry p _ hold).mp hentry) ⟨x, hold⟩

theorem own_leading : Own i (Leading i p) := fun _ _ h hw =>
  ⟨(h.promises p none).mpr hw.1, (h.entry p none hw.1).mpr hw.2⟩

theorem own_led : Own i (Led i p) := by
  intro w w' h hw
  obtain ⟨⟨⟨x, hx⟩, hentry⟩, hclear⟩ := hw
  refine ⟨⟨⟨x, (h.promises p _).mpr hx⟩, (h.entry p _ hx).mpr hentry⟩, ?_⟩
  exact fun q hq => hclear q ((h.promises q none).mp hq)

/-- Promises and maps are as before, and nothing was given out. -/
structure Grown (w w' : World) : Prop where
  promises : w'.promises = w.promises
  tickets : w'.data.tickets = w.data.tickets
  admitting : w'.data.admitting = w.data.admitting
  log : w.data.log <:+ w'.data.log
  admissions : admissions w'.data.log = admissions w.data.log

theorem Grown.mine (h : Grown w w') : Mine i w w' where
  promises _ _ := has_congr h.promises
  entry _ _ _ := by rw [h.admitting]
  log := h.log

/-- What is left true then. -/
def Steady (P : World → Prop) : Prop := ∀ w w', Grown w w' → P w → P w'

theorem Own.steady {C : World → Prop} (hC : Own i C) : Steady C := fun w w' h hw => hC w w' h.mine hw

theorem Steady.and {P' : World → Prop} (hP : Steady P) (hP' : Steady P') : Steady fun w => P w ∧ P' w :=
  fun w w' h hw => ⟨hP w w' h hw.1, hP' w w' h hw.2⟩

theorem Steady.imp (hP : Steady P) (strict : Prop) : Steady fun w => strict → P w :=
  fun w w' h hw hstrict => hP w w' h (hw hstrict)

theorem steady_idle : Steady Idle := by
  intro w w' h hw
  refine ⟨?_, fun p i hp => (hw.2 p i ((has_congr h.promises).mp hp)).mono h.log h.admissions⟩
  rw [h.tickets]
  exact hw.1.mono h.log h.admissions

theorem steady_spent (t : Option Bytes) : Steady fun w => SpentBut t w.data.log :=
  fun _ _ h hw => hw.mono h.log h.admissions

theorem steady_tickets (r : Option CachedTicket) : Steady fun w => w.data.tickets = r :=
  fun _ _ h hw => h.tickets.trans hw

end Lasting

/-! ## Operations -/

section Operations

variable {env : Surroundings} {strict : Prop} {henv : strict → Calm env} {i : Nat} {o : Operation} {P C : World → Prop}

theorem Own.stable (hC : Own i C) : (sharing henv).Stable i C := by
  intro w w' h hw
  obtain ⟨-, j, hne, o, r, hpre, hstep⟩ := h
  exact hC w w' (.of_step hne hpre hstep) hw

/-- While a function runs it may do what it likes. -/
theorem perform_running {Q : Answer o → World → Prop} (hpre : ∀ w, Shared w → P w → owes strict i o w)
    (hstep : ∀ r w w', (sharing henv).inv w → P w → step (machine env) i o r w = some w' → Running i (Q r) w') :
    (sharing henv).Triple i P (perform o) fun r => Running i (Q r) :=
  .perform (fun w hw hP => hpre w hw.1 hP) hstep fun _ => stable_running

theorem suspend_spec (ho : o.suspends = true) (hC : Own i C) (hpre : ∀ w, Shared w → P w → owes strict i o w)
    (hP : ∀ w, P w → C w) : (sharing henv).Triple i (Running i P) (perform o) fun _ => C := by
  refine .perform (fun w hw h => hpre w hw.1 h.2) ?_ fun _ => hC.stable
  intro r w w' _ h hstep
  have hsuspended := suspended_of_step hstep ho
  have hsame : Grown w w' := by
    refine ⟨hsuspended.promises, ?_, ?_, ?_, ?_⟩ <;> rw [hsuspended.data]
  exact hC w w' hsame.mine (hP w h.2)

theorem owes_of_takes (ho : o.takes = true) (w : World) : owes strict i o w := by
  cases o with
  | enter | resume | wake => exact trivial
  | _ => cases ho

/-- Whoever takes the control finds every ticket dead or in the cache. -/
theorem take_spec (ho : o.takes = true) (hC : Own i C) :
    (sharing henv).Triple i C (perform o) fun _ => Running i fun w => C w ∧ (strict → Idle w) := by
  refine perform_running (fun w _ _ => owes_of_takes ho w) ?_
  intro r w w' hw h hstep
  have htaken := taken_of_step hstep ho
  have hsame : Grown w w' := by
    refine ⟨htaken.promises, ?_, ?_, ?_, ?_⟩ <;> rw [htaken.data]
  refine ⟨htaken.after, hC w w' hsame.mine h, ?_⟩
  exact fun hstrict => steady_idle w w' hsame ((hw.2 hstrict).idle htaken.before)

theorem hop_spec (hC : Own i C) (hpre : ∀ w, Shared w → P w → Parked strict i w) (hP : ∀ w, P w → C w) :
    (sharing henv).Triple i (Running i P) hop fun _ => Running i fun w => C w ∧ (strict → Idle w) :=
  .bind (suspend_spec rfl hC hpre hP) fun _ => take_spec rfl hC

/-- An operation on the data that leaves the maps alone. -/
theorem perform_grown {o : Sync} {Q : Ans o → World → Prop} (hP : Steady P) (howes : ∀ w, owes strict i (.sync o) w)
    (hgrown : ∀ r (w : World) d, sync env o r w.data = some d → Grown w { w with data := d })
    (hstep : ∀ r w d, (sharing henv).inv w → P w → sync env o r w.data = some d → Q r { w with data := d }) :
    (sharing henv).Triple i (Running i P) (perform (.sync o)) fun r => Running i fun w => P w ∧ Q r w := by
  refine perform_running (fun w _ _ => howes w) ?_
  intro r w w' hw h hstep'
  obtain ⟨hrun, d, hd, rfl⟩ := turn_sync.mp hstep'
  exact ⟨hrun, hP w _ (hgrown r w d hd) h.2, hstep r w d hw h.2 hd⟩

theorem Grown.refl (w : World) : Grown w w := ⟨rfl, rfl, rfl, List.suffix_refl _, rfl⟩

theorem ticketsGet_spec (hP : Steady P) : (sharing henv).Triple i (Running i P) (perform (.sync .ticketsGet)) fun r =>
      Running i fun w => P w ∧ w.data.tickets = r := by
  refine perform_grown hP (fun _ => trivial) ?_ ?_
  · intro r w d h
    obtain ⟨-, rfl⟩ := sync_ticketsGet.mp h
    exact .refl w
  · intro r w d _ _ h
    obtain ⟨rfl, rfl⟩ := sync_ticketsGet.mp h
    rfl

theorem admittingGet_spec (hP : Steady P) :
    (sharing henv).Triple i (Running i P) (perform (.sync .admittingGet)) fun r =>
      Running i fun w => P w ∧ w.data.admitting = r := by
  refine perform_grown hP (fun _ => trivial) ?_ ?_
  · intro r w d h
    obtain ⟨-, rfl⟩ := sync_admittingGet.mp h
    exact .refl w
  · intro r w d _ _ h
    obtain ⟨rfl, rfl⟩ := sync_admittingGet.mp h
    rfl

/-- The clock is before the refresh point of the cached ticket and before every expiry. -/
def Timely (now : Int) (w : World) : Prop :=
  (∀ c, w.data.tickets = some c → (now : Rat) < c.refreshAtMs) ∧ ∀ t exp, .admitted t exp ∈ w.data.log → now < exp

theorem dateNow_spec (hP : Steady P) : (sharing henv).Triple i (Running i P) (perform (.sync .dateNow)) fun now =>
      Running i fun w => P w ∧ now.natAbs ≤ maxTime ∧ (strict → Timely now w) := by
  refine perform_grown hP (fun _ => trivial) ?_ ?_
  · intro now w d h
    obtain ⟨-, -, rfl⟩ := sync_dateNow.mp h
    exact ⟨rfl, rfl, rfl, List.suffix_cons _ _, rfl⟩
  · intro now w d hw _ h
    obtain ⟨hmax, hnote, rfl⟩ := sync_dateNow.mp h
    refine ⟨hmax, fun hstrict => ?_⟩
    have hcalm := henv hstrict _ _ hnote
    refine ⟨?_, ?_⟩
    · intro c hc
      obtain ⟨exp, n, hstored, hrefresh⟩ := (hw.2 hstrict).cached c hc
      rw [hrefresh]
      exact of_decide_eq_true (whileFresh_stored hcalm hstored)
    · intro t exp ht
      rcases List.mem_cons.mp ht with ht | ht
      · cases ht
      · exact withinTtl_clock (withinTtl_of_whileFresh hcalm) ht

/-- The cached ticket, if it is fresh. Before the refresh point it always is. -/
theorem fresh_then {f : Option Bytes → Client α} {Q : Except SeamRpcError α → World → Prop} (hP : Steady P)
    (hf : ∀ r, (sharing henv).Triple i
    (Running i fun w => P w ∧ (strict → w.data.tickets.map CachedTicket.ticket = r)) (f r).run Q) :
    (sharing henv).Triple i (Running i P) (fresh >>= f).run Q := by
  refine .bindE (R := fun x => Running i fun w => P w ∧ ∃ r, x = .ok r ∧
    (strict → w.data.tickets.map CachedTicket.ticket = r)) (.thenE (ticketsGet_spec hP) ?_) ?_ ?_
  · intro cached
    cases cached with
    | none => exact .ret fun w _ h => ⟨h.1, h.2.1, none, rfl, fun _ => by rw [h.2.2]; rfl⟩
    | some c =>
      refine .thenE (dateNow_spec (hP.and (steady_tickets _))) ?_
      intro now
      refine .ret fun w _ h => ⟨h.1, h.2.1.1, _, rfl, fun hstrict => ?_⟩
      rw [if_pos ((h.2.2.2 hstrict).1 c h.2.1.2), h.2.1.2]
      rfl
  · intro r w hw h
    obtain ⟨hrun, hw', _, heq, hr⟩ := h
    cases heq
    exact hf r w hw ⟨hrun, hw', hr⟩
  · intro e w _ h
    obtain ⟨-, -, _, heq, -⟩ := h
    cases heq

end Operations

/-! ## Handshakes -/

section Handshakes

variable {env : Surroundings} {strict : Prop} {henv : strict → Calm env} {i p : Nat} {B : List Event → Prop}

theorem ttlMs_pos {expiresAtMs nowMs : Int} (hmax : nowMs.natAbs ≤ maxTime) (h : nowMs < expiresAtMs) :
    0 < ttlMs expiresAtMs nowMs := by
  unfold maxTime at hmax
  have hnext : roundInt (nowMs + 1) = nowMs + 1 := roundInt_of_natAbs_le (by omega)
  have hle : roundInt (nowMs + 1) ≤ roundInt expiresAtMs := roundInt_mono (by omega)
  have hone : roundInt 1 ≤ roundInt (roundInt expiresAtMs - nowMs) := roundInt_mono (by omega)
  rw [roundInt_of_natAbs_le (by decide)] at hone
  unfold ttlMs
  omega

/-- While the handshake of the call is under way, every ticket is dead. -/
def Lead (strict : Prop) (i p : Nat) (B : List Event → Prop) (w : World) : Prop :=
  (Leading i p w ∧ B w.data.log) ∧ (strict → SpentBut none w.data.log)

theorem steady_lead (hB : Growing B) : Steady (Lead strict i p B) :=
  (own_leading.and hB.own).steady.and ((steady_spent none).imp strict)

variable {w : World}

theorem Lead.of_idle (h : (Leading i p w ∧ B w.data.log) ∧ (strict → Idle w)) : Lead strict i p B w :=
  ⟨h.1, fun hstrict => (h.2 hstrict).2 p i h.1.1.1⟩

theorem Lead.parked (h : Lead strict i p B w) (hw : Shared w) : Parked strict i w where
  pending q hq := hw.one q p i i hq h.1.1.1 ▸ h.1.1.2
  idle hstrict := ⟨(h.2 hstrict).quiet_of_none _, fun _ _ _ => h.2 hstrict⟩

theorem Lead.cleared (h : Lead strict i p B w) : Cleared i w := by
  intro q hq
  rw [h.1.1.2, Option.some.injEq] at hq
  exact hq ▸ not_settled_of_pending h.1.1.1

theorem issueChallenge_spec (hB : Growing B) :
    (sharing henv).Triple i (Running i (Lead strict i p B)) issueChallenge.run fun _ =>
      Running i (Lead strict i p B) := by
  have hown := own_leading (i := i) (p := p) |>.and hB.own
  refine .bind (suspend_spec rfl hown (fun w hw h => ⟨h.parked hw, h.cleared⟩) fun _ h => h.1) fun _ => ?_
  refine perform_running (fun _ _ _ => trivial) ?_
  intro r w w' hw h hstep
  obtain ⟨⟨hrun, -⟩, d, hd, rfl⟩ := turn_deliver.mp hstep
  cases hd
  exact ⟨rfl, .of_idle ⟨h, fun hstrict => (hw.2 hstrict).idle hrun⟩⟩

theorem presentation_spec (hB : Growing B) :
    (sharing henv).Triple i (Running i (Lead strict i p B)) presentation.run fun _ =>
      Running i (Lead strict i p B) := by
  refine .bindE (issueChallenge_spec hB) (fun _ => ?_) fun _ _ _ h => h
  exact .thenE (dateNow_spec (steady_lead hB)) fun _ => .ret fun _ _ h => ⟨h.1, h.2.1⟩

/-- What the reply to `Admit` brings. -/
def Admitted : Except SeamRpcError (Bytes × Int) → World → Prop
  | .ok (t, exp), w => SpentBut (some t) w.data.log ∧ .admitted t exp ∈ w.data.log ∧ t ≠ []
  | .error _, w => SpentBut none w.data.log

theorem steady_admitted (r : Except SeamRpcError (Bytes × Int)) : Steady (Admitted r) := by
  intro w w' h hw
  rcases r with e | ⟨t, exp⟩
  · exact steady_spent none w w' h hw
  · exact ⟨steady_spent _ w w' h hw.1, h.log.subset hw.2.1, hw.2.2⟩

theorem requestAdmit_spec (hB : Growing B) :
    (sharing henv).Triple i (Running i (Lead strict i p B)) requestAdmit.run fun r =>
      Running i fun w => (Leading i p w ∧ B w.data.log) ∧ (strict → Admitted r w) := by
  have hown := own_leading (i := i) (p := p) |>.and hB.own
  refine .bind (suspend_spec rfl hown (fun w hw h => ⟨h.parked hw, h.cleared⟩) fun _ h => h.1) fun _ => ?_
  refine perform_running (fun w _ h => ⟨p, h.1.1⟩) ?_
  intro r w w' hw h hstep
  obtain ⟨⟨hrun, -⟩, d, hd, rfl⟩ := turn_deliver.mp hstep
  have hspent : strict → SpentBut none w.data.log := fun hstrict => ((hw.2 hstrict).idle hrun).2 p i h.1.1
  rcases deliver_requestAdmit.mp hd with ⟨⟨e, rfl⟩, rfl⟩ | ⟨t, exp, rfl, hnote, rfl⟩
  · exact ⟨rfl, h, hspent⟩
  · refine ⟨rfl, ⟨h.1, hB _ _ (List.suffix_cons _ _) h.2⟩, fun hstrict => ?_⟩
    have hcalm := withinTtl_of_whileFresh (henv hstrict _ _ hnote)
    exact ⟨(hspent hstrict).admitted t exp, .head _, (withinTtl_admitted hcalm).1⟩

/-- The cache is written last. -/
def Brought (strict : Prop) (i p : Nat) (B : List Event → Prop) (w : World) : Prop :=
  (Leading i p w ∧ B w.data.log) ∧ (strict → Quiet (w.data.tickets.map CachedTicket.ticket) w.data.log)

theorem Lead.brought (h : Lead strict i p B w) : Brought strict i p B w :=
  ⟨h.1, fun hstrict => (h.2 hstrict).quiet_of_none _⟩

theorem handshake_spec (hB : Growing B) :
    (sharing henv).Triple i (Running i (Lead strict i p B)) handshake.run fun _ =>
      Running i (Brought strict i p B) := by
  refine .bindE (R := fun _ => Running i (Lead strict i p B)) (.bind (presentation_spec hB) fun _ => ?_) ?_
    fun _ _ _ h => ⟨h.1, h.2.brought⟩
  · refine .bind (hop_spec (own_leading.and hB.own) (fun w hw h => h.parked hw) fun _ h => h.1) fun _ => ?_
    exact .ret fun _ _ h => ⟨h.1, .of_idle h.2⟩
  intro _
  refine .bindE (requestAdmit_spec hB) ?_ fun e w _ h => ⟨h.1, h.2.1, fun hstrict => (h.2.2 hstrict).quiet_of_none _⟩
  intro reply
  obtain ⟨t, exp⟩ := reply
  have hsteady := (own_leading (i := i) (p := p) |>.and hB.own).steady.and ((steady_admitted (.ok (t, exp))).imp strict)
  refine .thenE (dateNow_spec hsteady) ?_
  intro now
  dsimp only
  split
  · refine .thenE (T := fun _ => Running i (Brought strict i p B)) (perform_running (fun _ _ _ => trivial) ?_)
      fun _ => .ret fun _ _ h => h
    intro r w w' _ h hstep
    obtain ⟨hrun, d, hd, rfl⟩ := turn_sync.mp hstep
    obtain ⟨-, rfl⟩ := note_eq_some.mp hd
    obtain ⟨-, ⟨hlead, hadmitted⟩, -⟩ := h
    refine ⟨hrun, ⟨hlead.1, hB _ _ (List.suffix_cons _ _) hlead.2⟩, fun hstrict => ?_⟩
    exact (hadmitted hstrict).1.quiet.mono (List.suffix_cons _ _) rfl
  · rename_i hkept
    -- In calm surroundings the ticket is not empty and has not expired.
    refine .thenE (T := fun _ => Running i (Brought strict i p B)) (perform_running (fun _ _ _ => trivial) ?_)
      fun _ => .ret fun _ _ h => h
    intro r w w' _ h hstep
    obtain ⟨-, ⟨hlead, hadmitted⟩, hmax, htimely⟩ := h
    have hlax : ¬strict := by
      intro hstrict
      obtain ⟨-, hmem, hne⟩ := hadmitted hstrict
      exact hkept ⟨ttlMs_pos hmax ((htimely hstrict).2 t exp hmem), List.length_pos_iff.mpr hne⟩
    obtain ⟨hrun, d, hd, rfl⟩ := turn_sync.mp hstep
    have hadmitting := admitting_of_sync hd rfl
    exact ⟨hrun, ⟨⟨hlead.1.1, hadmitting.trans hlead.1.2⟩, hB _ _ (log_of_sync hd).1 hlead.2⟩,
      fun hstrict => absurd hstrict hlax⟩

/-- The call runs, has no handshake of its own, and finds every ticket dead or in the cache. -/
def On (strict : Prop) (i : Nat) (B : List Event → Prop) (w : World) : Prop :=
  (Clear i w ∧ B w.data.log) ∧ (strict → Idle w)

theorem steady_on (hB : Growing B) : Steady (On strict i B) :=
  (own_clear.and hB.own).steady.and (steady_idle.imp strict)

theorem On.parked (h : On strict i B w) : Parked strict i w :=
  ⟨fun p hp => absurd hp (h.1.1.1 p), h.2⟩

theorem On.cleared (h : On strict i B w) : Cleared i w := h.1.1.2

/-- Nothing is under way when the map is empty. -/
theorem not_pending_of_free (hw : Shared w) (hrun : w.running = some i) (hclear : Clear i w)
    (hfree : w.data.admitting = none) (q j : Nat) : ¬w.Pending q j := by
  intro hq
  rcases hw.known q j hq with hentry | hj
  · rw [hfree] at hentry
    cases hentry
  · rw [hrun, Option.some.injEq] at hj
    exact hclear.1 q (hj ▸ hq)

/-- A handshake is begun and entered in the map. -/
theorem begin_spec {f : Nat → Prog Answer α} {Q : α → World → Prop}
    (hf : ∀ p, (sharing henv).Triple i (Running i (Lead strict i p B)) (f p) Q) : (sharing henv).Triple i
      (Running i fun w => (On strict i B w ∧ w.data.admitting = none) ∧ (strict → SpentBut none w.data.log))
      (do let p ← perform .promise; perform (.sync (.admittingSet p)); f p) Q := by
  refine .bind (R := fun p => Running i fun w => ((w.Pending p i ∧ w.data.admitting = none) ∧ B w.data.log) ∧
    (strict → SpentBut none w.data.log)) (perform_running ?_ ?_) ?_
  · intro w hw h
    exact ⟨not_pending_of_free hw h.1 h.2.1.1.1.1 h.2.1.2, h.2.2⟩
  · intro p w w' _ h hstep
    obtain ⟨hrun, rfl, rfl⟩ := step_promise.mp hstep
    exact ⟨hrun, ⟨⟨Loop.Has.promise.mpr (.inr ⟨rfl, rfl, rfl⟩), h.2.1.2⟩, h.2.1.1.1.2⟩, h.2.2⟩
  · intro p
    refine .bind (R := fun _ => Running i (Lead strict i p B)) (perform_running ?_ ?_) fun _ => hf p
    · exact fun w _ h => ⟨h.2.1.1.2, h.2.1.1.1⟩
    · intro r w w' _ h hstep
      obtain ⟨hrun, d, hd, rfl⟩ := turn_sync.mp hstep
      cases hd
      exact ⟨hrun, ⟨⟨h.2.1.1.1, rfl⟩, h.2.1.2⟩, h.2.2⟩

theorem settle_spec (r : Outcome) :
    (sharing henv).Triple i (Running i (Brought strict i p B)) (perform (.settle p r)) fun _ =>
      Running i fun w => (Led i p w ∧ B w.data.log) ∧ (strict → Idle w) := by
  refine perform_running (fun w _ h => h.2.1.1.1) ?_
  intro _ w w' hw h hstep
  obtain ⟨hrun, rfl⟩ := step_settle.mp hstep
  obtain ⟨-, ⟨⟨hp, hentry⟩, hB⟩, hquiet⟩ := h
  -- The one that was under way is settled.
  have hnone : ∀ q j, ¬(w.settle p r).Pending q j := by
    intro q j hq
    rcases (Loop.Has.settle hp).mp hq with ⟨hne, hq⟩ | ⟨-, -, hv⟩
    · exact hne (hw.1.one q p j i hq hp)
    · cases hv
  have hsettled : (w.settle p r).Settled p i := ⟨r, (Loop.Has.settle hp).mpr (.inr ⟨rfl, rfl, rfl⟩)⟩
  exact ⟨hrun, ⟨⟨⟨hsettled, hentry⟩, fun q => hnone q i⟩, hB⟩,
    fun hstrict => ⟨hquiet hstrict, fun q j hq => absurd hq (hnone q j)⟩⟩

theorem admittingDelete_spec :
    (sharing henv).Triple i (Running i fun w => (Led i p w ∧ B w.data.log) ∧ (strict → Idle w))
      (perform (.sync .admittingDelete)) fun _ => Running i (On strict i B) := by
  refine perform_running (fun w _ h => ⟨p, h.2.1.1.1.2, h.2.1.1.1.1⟩) ?_
  intro _ w w' _ h hstep
  obtain ⟨hrun, d, hd, rfl⟩ := turn_sync.mp hstep
  cases hd
  exact ⟨hrun, ⟨⟨h.2.1.1.2, nofun⟩, h.2.1.2⟩, h.2.2⟩

/-- **A handshake**, from its entry in the map to the end of the call that began it. -/
theorem lead_spec (hB : Growing B) : (sharing henv).Triple i
      (Running i fun w => (On strict i B w ∧ w.data.admitting = none) ∧ (strict → SpentBut none w.data.log))
      lead.run fun _ => Running i (On strict i B) := by
  refine begin_spec fun p => .bind (handshake_spec hB) fun r => .bind (settle_spec r) fun _ => ?_
  refine .bind (hop_spec (own_led.and hB.own) ?_ fun _ h => h.1) fun _ => .bind admittingDelete_spec fun _ => ?_
  · exact fun w _ h => ⟨fun q hq => absurd hq (h.1.1.2 q), h.2⟩
  · exact .ret fun _ _ h => h

theorem join_spec (hB : Growing B) (p : Nat) :
    (sharing henv).Triple i (Running i (On strict i B)) (join p).run fun _ => Running i (On strict i B) := by
  have hown := own_clear (i := i) |>.and hB.own
  exact .bind (suspend_spec rfl hown (fun w _ h => ⟨h.parked, h.cleared⟩) fun _ h => h.1) fun _ => take_spec rfl hown

theorem admitAgent_spec (hB : Growing B) :
    (sharing henv).Triple i (Running i fun w => On strict i B w ∧ (strict → SpentBut none w.data.log))
      admitAgent.run fun _ => Running i (On strict i B) := by
  refine .thenE (admittingGet_spec ((steady_on hB).and ((steady_spent none).imp strict))) ?_
  intro r
  cases r with
  | some p => exact (join_spec hB p).pre fun _ _ h => ⟨h.1, h.2.1.1⟩
  | none => exact (lead_spec hB).pre fun _ _ h => ⟨h.1, ⟨h.2.1.1, h.2.2⟩, h.2.1.2⟩

theorem awaited_spec {body : Client α} (hB : Growing B)
    (hbody : (sharing henv).Triple i P body.run fun _ => Running i (On strict i B)) :
    (sharing henv).Triple i P (awaited body).run fun _ => Running i (On strict i B) := by
  refine .bind hbody fun r => .bind (hop_spec (own_clear.and hB.own) (fun _ _ h => h.parked) fun _ h => h.1) fun _ => ?_
  exact .ret fun _ _ h => h

end Handshakes

end SeamSdk.AsyncClient
