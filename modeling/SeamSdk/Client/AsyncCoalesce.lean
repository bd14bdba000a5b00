import SeamSdk.Client.AsyncHandshake

/-!
# Handshakes coalesce

The calls of the asynchronous client keep the discipline of `sharing`: a call that needs a ticket joins the handshake in
flight, and begins one only when every ticket is dead.

- `refreshTicket_spec`, `invalidateTicket_spec`: a ticket leaves the cache only when it is dead;
- `run_spec`: a call leaves no handshake behind;
- `handshakes_coalesce`: over all runs.
-/

namespace SeamSdk.AsyncClient

open ByteCodec Threads Ledger EventLoop Client

/-! ## Calls -/

section Calls

variable {env : Surroundings} {strict : Prop} {henv : strict → Calm env} {i : Nat} {B : List Event → Prop}

/-- With an empty cache every ticket is dead. -/
theorem On.spent {w : World} (h : On strict i B w) (hnone : strict → w.data.tickets.map CachedTicket.ticket = none)
    (hstrict : strict) : SpentBut none w.data.log := by
  have hquiet := (h.2 hstrict).1
  rw [hnone hstrict] at hquiet
  exact hquiet.spent

theorem ticketFor_spec (hB : Growing B) :
    (sharing henv).Triple i (Running i (On strict i B)) ticketFor.run fun _ => Running i (On strict i B) := by
  refine fresh_then (steady_on hB) fun r => ?_
  cases r with
  | some t => exact .ret fun _ _ h => ⟨h.1, h.2.1⟩
  | none => exact (admitAgent_spec hB).pre fun _ _ h => ⟨h.1, h.2.1, h.2.1.spent h.2.2⟩

/-- A condemned ticket leaves the cache, and then every ticket is dead. -/
theorem ticketsDelete_spec (hB : Growing B) (failed : Bytes) :
    (sharing henv).Triple i (Running i fun w => (On strict i B w ∧ Condemned failed w.data.log) ∧
        (strict → ∀ c, w.data.tickets = some c → c.ticket = failed))
      (perform (.sync .ticketsDelete)) fun _ =>
        Running i fun w => On strict i B w ∧ (strict → SpentBut none w.data.log) := by
  refine perform_running (fun _ _ _ => trivial) ?_
  intro _ w w' _ h hstep
  obtain ⟨hrun, d, hd, rfl⟩ := turn_sync.mp hstep
  obtain ⟨-, ⟨hon, hcondemned⟩, hcached⟩ := h
  rcases sync_ticketsDelete.mp hd with ⟨hnone, rfl⟩ | ⟨c, hc, -, rfl⟩
  · exact ⟨hrun, hon, hon.spent fun _ => by rw [hnone]; rfl⟩
  · have hspent : strict → SpentBut none (.dropped c.ticket :: w.data.log) := by
      intro hstrict
      have hquiet := (hon.2 hstrict).1
      rw [hc] at hquiet
      obtain rfl := hcached hstrict c hc
      exact hquiet.dropped hcondemned
    refine ⟨hrun, ⟨⟨hon.1.1, hB _ _ (List.suffix_cons _ _) hon.1.2⟩, fun hstrict => ?_⟩, hspent⟩
    exact ⟨(hspent hstrict).quiet_of_none _, fun _ _ _ => hspent hstrict⟩

theorem refreshTicket_spec (hB : Growing B) {failed : Bytes} (hfailed : ∀ log, B log → Rejected failed log) :
    (sharing henv).Triple i (Running i (On strict i B)) (refreshTicket failed).run fun _ =>
      Running i (On strict i B) := by
  refine fresh_then (steady_on hB) fun r => ?_
  cases hr : r.filter (· ≠ failed) with
  | some t => exact .ret fun _ _ h => ⟨h.1, h.2.1⟩
  | none =>
    refine .thenE ((ticketsDelete_spec hB failed).pre ?_) fun _ => admitAgent_spec hB
    intro w _ h
    refine ⟨h.1, ⟨h.2.1, .inl (hfailed _ h.2.1.1.2)⟩, ?_⟩
    intro hstrict c hc
    have hticket := h.2.2 hstrict
    rw [hc] at hticket
    simpa using Option.filter_eq_none_iff.mp hr c.ticket hticket.symm

theorem invalidateTicket_spec (hB : Growing B) {failed : Bytes} (hfailed : ∀ log, B log → Condemned failed log) :
    (sharing henv).Triple i (Running i (On strict i B)) (invalidateTicket failed).run fun _ =>
      Running i (On strict i B) := by
  refine .thenE (ticketsGet_spec (steady_on hB)) fun r => ?_
  cases r with
  | none => exact .ret fun _ _ h => ⟨h.1, h.2.1⟩
  | some c =>
    dsimp only
    split
    · rename_i hc
      refine .bind ((ticketsDelete_spec hB failed).mono ?_ fun _ _ _ h => ⟨h.1, h.2.1⟩) fun _ =>
        .ret fun _ _ h => h
      intro w _ h
      refine ⟨h.1, ⟨h.2.1, hfailed _ h.2.1.1.2⟩, ?_⟩
      intro _ c' hc'
      rw [h.2.2, Option.some.injEq] at hc'
      exact hc' ▸ hc
    · exact .ret fun _ _ h => ⟨h.1, h.2.1⟩

theorem send_spec (hB : Growing B) (rpc : String) (t : Bytes) :
    (sharing henv).Triple i (Running i (On strict i B)) (send rpc t).run fun r =>
      Running i (On strict i fun log => B log ∧ ∀ e, r = .error e → Told rpc t e log) := by
  have hown := own_clear (i := i) |>.and hB.own
  refine .bind (suspend_spec rfl hown (fun w _ h => ⟨h.parked, h.cleared⟩) fun _ h => h.1) fun _ => ?_
  refine perform_running (fun _ _ _ => trivial) ?_
  intro r w w' hw h hstep
  obtain ⟨⟨hrun, -⟩, d, hd, rfl⟩ := turn_deliver.mp hstep
  obtain ⟨-, rfl⟩ := note_eq_some.mp hd
  have hgrown : Grown w { w with
      running := some i, data := { w.data with log := .answered i rpc t (errorOf r) :: w.data.log } } :=
    ⟨rfl, rfl, rfl, List.suffix_cons _ _, rfl⟩
  refine ⟨rfl, ⟨h.1, hB _ _ (List.suffix_cons _ _) h.2, ?_⟩, ?_⟩
  · rintro e rfl
    exact told_answered i rpc t e _
  · exact fun hstrict => steady_idle _ _ hgrown ((hw.2 hstrict).idle hrun)

theorem growing_true : Growing fun _ => True := fun _ _ _ _ => trivial

/-- The call runs and awaits nothing. -/
def Free (strict : Prop) (i : Nat) : World → Prop := Running i (On strict i fun _ => True)

theorem free_of_on {w : World} (h : Running i (On strict i B) w) : Free strict i w := ⟨h.1, ⟨h.2.1.1, trivial⟩, h.2.2⟩

/-- What the call knows after a request has failed. -/
def Failed (rpc : String) (t : Bytes) (e : SeamRpcError) (log : List Event) : Prop :=
  True ∧ ∀ e', (Except.error e : Except SeamRpcError Unit) = .error e' → Told rpc t e' log

theorem growing_failed (rpc : String) (t : Bytes) (e : SeamRpcError) : Growing (Failed rpc t e) :=
  fun _ _ h hw => ⟨trivial, fun e' he => (hw.2 e' he).mono h⟩

theorem forgetBurnedTicket_spec (rpc : String) (t : Bytes) (e : SeamRpcError) :
    (sharing henv).Triple i (Running i (On strict i (Failed rpc t e))) (forgetBurnedTicket t rpc e).run fun _ =>
      Running i (On strict i (Failed rpc t e)) := by
  unfold forgetBurnedTicket
  split
  · rename_i hburns
    exact invalidateTicket_spec (growing_failed rpc t e) fun log h => (h.2 e rfl).2 hburns
  · exact .ret fun _ _ h => h

theorem throw_spec {α : Type} (e : SeamRpcError) :
    (sharing henv).Triple i (Running i (On strict i B)) (throw e : Client α).run fun _ => Free strict i :=
  .ret fun _ _ h => free_of_on h

theorem sendLast_spec (rpc : String) (t : Bytes) :
    (sharing henv).Triple i (Free strict i) (sendLast rpc t).run fun _ => Free strict i := by
  refine .catchE (send_spec growing_true rpc t) ?_ fun _ _ _ h => free_of_on h
  intro e
  exact .bindE (forgetBurnedTicket_spec rpc t e) (fun _ => throw_spec e) fun _ _ _ h => free_of_on h

/-- A ticket that was rejected is refreshed. -/
theorem refresh_spec {rpc : String} {t : Bytes} {e : SeamRpcError} (hcode : e.code = .unauthenticated) :
    (sharing henv).Triple i (Running i (On strict i (Failed rpc t e))) (awaited (refreshTicket t)).run
      fun _ => Free strict i := by
  have hgrowing := growing_failed rpc t e
  refine (awaited_spec hgrowing (refreshTicket_spec hgrowing ?_)).post fun _ _ _ h => free_of_on h
  exact fun log h => (h.2 e rfl).1 hcode

theorem authorize_spec : (sharing henv).Triple i (Free strict i) authorize.run fun _ => Free strict i := by
  have hsend : ∀ t, (sharing henv).Triple i (Free strict i) (tryCatch (send authorizeRpc t) fun e => do
      if e.code = .unauthenticated then
        let ticket ← awaited (refreshTicket t)
        send authorizeRpc ticket
      else throw e : Client Unit).run fun _ => Free strict i := by
    intro t
    refine .catchE (send_spec growing_true authorizeRpc t) ?_ fun _ _ _ h => free_of_on h
    intro e
    split
    · rename_i hcode
      refine .bindE (refresh_spec hcode) ?_ fun _ _ _ h => h
      exact fun t' => (send_spec growing_true authorizeRpc t').post fun _ _ _ h => free_of_on h
    · exact throw_spec e
  refine fresh_then (steady_on growing_true) fun r => ?_
  cases r with
  | some t => exact (hsend t).pre fun _ _ h => ⟨h.1, h.2.1⟩
  | none =>
    refine .bindE ((awaited_spec growing_true (admitAgent_spec growing_true)).pre ?_) hsend fun _ _ _ h => h
    exact fun _ _ h => ⟨h.1, h.2.1, h.2.1.spent h.2.2⟩

theorem credentialedCall_spec (rpc : String) (retry : Bool) :
    (sharing henv).Triple i (Free strict i) (credentialedCall rpc retry).run fun _ => Free strict i := by
  refine .bindE (awaited_spec growing_true (ticketFor_spec growing_true)) ?_ fun _ _ _ h => h
  intro t
  refine .catchE (send_spec growing_true rpc t) ?_ fun _ _ _ h => free_of_on h
  intro e
  refine .bindE (forgetBurnedTicket_spec rpc t e) (fun _ => ?_) fun _ _ _ h => free_of_on h
  split
  · exact throw_spec e
  rename_i hcode
  rw [not_not] at hcode
  split
  · refine .bindE (invalidateTicket_spec (growing_failed rpc t e) ?_) (fun _ => throw_spec e)
      fun _ _ _ h => free_of_on h
    exact fun log h => .inl ((h.2 e rfl).1 hcode)
  · exact .bindE (refresh_spec hcode) (fun t' => sendLast_spec rpc t') fun _ _ _ h => h

theorem call_spec {c : Call} (hc : strict → c ≠ .admitAgent) :
    (sharing henv).Triple i (Free strict i) (runCall c).run fun _ => Free strict i := by
  cases c with
  | admitAgent =>
    refine .bindE ((admitAgent_spec growing_true).pre ?_) (fun _ => .ret fun _ _ h => h) fun _ _ _ h => h
    exact fun _ _ h => ⟨h.1, h.2, fun hstrict => absurd rfl (hc hstrict)⟩
  | authorize => exact authorize_spec
  | signedOnce rpc =>
    refine .bindE (awaited_spec growing_true (ticketFor_spec growing_true)) ?_ fun _ _ _ h => h
    exact fun t => sendLast_spec rpc t
  | credentialedCall rpc retry => exact credentialedCall_spec rpc retry

/-- **A call** leaves no handshake behind. -/
theorem run_spec {c : Call} (hc : strict → c ≠ .admitAgent) :
    (sharing henv).Triple i (Clear i) (run c) fun _ => Clear i := by
  refine .bind (take_spec rfl own_clear) fun _ => ?_
  refine .bind ((call_spec hc).pre fun _ _ h => ⟨h.1, ⟨h.2.1, trivial⟩, h.2.2⟩) fun _ => ?_
  refine .bind (suspend_spec rfl own_clear ?_ ?_) fun _ => .ret fun _ _ h => h
  · exact fun w _ h => ⟨h.parked, h.cleared⟩
  · exact fun w h => h.1.1

end Calls

/-! ## All runs -/

theorem not_pending_initial (p i : Nat) : ¬initial.Pending p i := nofun

theorem shared_initial : Shared initial where
  one _ _ _ _ hp := absurd hp (not_pending_initial _ _)
  known _ _ hp := absurd hp (not_pending_initial _ _)
  made := nofun
  led := nofun

theorem coalesced_initial : Coalesced initial where
  nodup := List.nodup_nil
  alive := ⟨none, nofun⟩
  idle _ := ⟨nofun, fun _ _ hp => absurd hp (not_pending_initial _ _)⟩
  cached := nofun

theorem clear_initial (i : Nat) : Clear i initial := ⟨fun p => not_pending_initial p i, nofun⟩

theorem inv_of_reaches {env : Surroundings} (strict : Prop) (henv : strict → Calm env) {users : Nat → User}
    (husers : strict → ∀ i, (users i).All (· ≠ .admitAgent)) {c : Config Answer World Unit}
    (h : (client env).Reaches (start users) c) : Shared c.world ∧ (strict → Coalesced c.world) := by
  refine (sharing henv).inv_of_reaches (P := Clear) h ⟨shared_initial, fun _ => coalesced_initial⟩ clear_initial
    (fun _ => own_clear.stable) ?_
  intro i
  have hall : (users i).All fun u => strict → u ≠ .admitAgent := by
    by_cases hstrict : strict
    · exact (husers hstrict i).mono fun _ hu _ => hu
    · exact (users i).all_true.mono fun _ _ hs => absurd hs hstrict
  exact (Discipline.Triple.interp (fun _ hu => run_spec hu) hall).post fun _ _ _ _ => trivial

/-- The handshakes that are not settled. -/
def unsettled (w : World) : List Nat := (List.range w.promises.length).filter fun p => (w.value p).isNone

theorem mem_unsettled {w : World} {p : Nat} : p ∈ unsettled w ↔ ∃ i, w.Pending p i := by
  unfold unsettled Loop.Pending Loop.Has Loop.value
  rw [List.mem_filter, List.mem_range]
  cases hp : w.promises[p]? with
  | none =>
    have hlt := List.getElem?_eq_none_iff.mp hp
    simp
    omega
  | some q =>
    obtain ⟨hlt, -⟩ := List.getElem?_eq_some_iff.mp hp
    obtain ⟨m, v⟩ := q
    simp [hlt]

theorem Shared.length_unsettled {w : World} (hw : Shared w) : (unsettled w).length ≤ 1 := by
  have hnodup : (unsettled w).Nodup := List.nodup_range.filter _
  have hone : ∀ p ∈ unsettled w, ∀ q ∈ unsettled w, p = q := by
    intro p hp q hq
    obtain ⟨i, hp⟩ := mem_unsettled.mp hp
    obtain ⟨j, hq⟩ := mem_unsettled.mp hq
    exact hw.one p q i j hp hq
  cases hlist : unsettled w with
  | nil => exact Nat.zero_le 1
  | cons p ps =>
    cases ps with
    | nil => exact Nat.le_refl 1
    | cons q qs =>
      rw [hlist] at hnodup hone
      have hne : p ≠ q := fun heq => (List.nodup_cons.mp hnodup).1 (heq ▸ .head _)
      exact absurd (hone p (.head _) q (.tail _ (.head _))) hne

/-- When nothing is left to run, the entry of the map is a handshake under way. -/
theorem Shared.entry_pending {w : World} (hw : Shared w) (hrun : w.running = none) (hready : w.ready = []) {p : Nat}
    (hp : w.data.admitting = some p) : w.value p = none := by
  obtain ⟨i, v, hmade⟩ := hw.made p hp
  have hvalue : w.value p = v := by
    unfold Loop.value
    rw [show w.promises[p]? = some ⟨i, v⟩ from hmade]
    rfl
  cases v with
  | none => exact hvalue
  | some r =>
    have hled := hw.led p i hp ⟨r, hmade⟩
    rw [hrun, hready] at hled
    rcases hled with hled | hled
    · cases hled
    · cases hled

/-- **Handshakes coalesce.** At most one handshake is not settled; once every function that is ready has run, the map
holds no handshake that is settled; and in calm surroundings there is at most one admission more than there are dead
tickets. -/
theorem handshakes_coalesce {env : Surroundings} {users : Nat → User} {c : Config Answer World Unit}
    (h : (client env).Reaches (start users) c) :
    (unsettled c.world).length ≤ 1 ∧
    (c.world.running = none → c.world.ready = [] → ∀ p, c.world.data.admitting = some p → c.world.value p = none) ∧
    (Calm env → (∀ i, (users i).All (· ≠ .admitAgent)) →
      (admissions c.world.data.log).length ≤ 1 + (dead c.world.data.log).toFinset.card) := by
  obtain ⟨hshared, -⟩ := inv_of_reaches False nofun nofun h
  refine ⟨hshared.length_unsettled, fun hrun hready p hp => hshared.entry_pending hrun hready hp, ?_⟩
  intro henv husers
  obtain ⟨-, hcoalesced⟩ := inv_of_reaches True (fun _ => henv) (fun _ => husers) h
  obtain ⟨t, ht⟩ := (hcoalesced trivial).alive
  exact length_admissions_le (hcoalesced trivial).nodup ht

/-! ## Runs -/

/-- Answers at one time: the clock, the two maps, the number of a new promise and the value of one that is awaited, what
`Admit` gives, and how a request ends. -/
def answers (now : Int) (cached : Option CachedTicket) (inFlight : Option Nat) (p : Nat) (joined : Outcome)
    (admitted : Bytes × Int) (reply : Except SeamRpcError Unit) : (o : Operation) → Answer o
  | .sync .dateNow => now
  | .sync .ticketsGet => cached
  | .sync .admittingGet => inFlight
  | .promise => p
  | .resume _ => joined
  | .deliver .issueChallenge => .ok ()
  | .deliver .requestAdmit => .ok admitted
  | .deliver (.send _ _) => reply
  | .sync (.ticketsSet _ _ _) | .sync .ticketsDelete | .sync (.admittingSet _) | .sync .admittingDelete => ()
  | .enter | .leave | .settle _ _ | .suspendOn _ | .yield | .wake | .request _ => ()

/-- Two calls at once. -/
def twoAuthorize : Nat → User := Prog.inTwo .authorize

theorem noAdmit_twoAuthorize (i : Nat) : (twoAuthorize i).All (· ≠ .admitAgent) := Prog.all_inTwo nofun i

/-- The second call joins the handshake of the first one. Both are rejected with the ticket, and the second one joins
again. -/
def rejectedTwice : List (Nat × ((o : Operation) → Answer o)) :=
  List.replicate 6 (0, answers 0 none none 0 (.ok []) ([1], 100) (.error .unauthenticated)) ++
  List.replicate 4 (1, answers 0 none (some 0) 0 (.ok []) ([], 0) (.error .unauthenticated)) ++
  List.replicate 15 (0, answers 0 none none 0 (.ok []) ([1], 100) (.error .unauthenticated)) ++
  List.replicate 4 (1, answers 0 none none 0 (.ok [1]) ([], 0) (.error .unauthenticated)) ++
  List.replicate 8 (0, answers 0 (some ⟨[1], 80⟩) none 1 (.ok []) ([2], 100) (.error .unauthenticated)) ++
  List.replicate 5 (1, answers 0 none (some 1) 0 (.ok []) ([], 0) (.error .unauthenticated)) ++
  List.replicate 15 (0, answers 0 none none 0 (.ok []) ([2], 100) (.ok ())) ++
  List.replicate 4 (1, answers 0 none none 0 (.ok [2]) ([], 0) (.ok ())) ++
  List.replicate 2 (0, answers 0 none none 0 (.ok []) ([], 0) (.ok ())) ++
  List.replicate 2 (1, answers 0 none none 0 (.ok []) ([], 0) (.ok ()))

theorem handshakes_coalesce_rejectedTwice :
    ∃ c, (client beforeRefresh).Reaches (start twoAuthorize) c ∧ (admissions c.world.data.log).length = 2 ∧
      (unsettled c.world).length ≤ 1 ∧ 2 ≤ 1 + (dead c.world.data.log).toFinset.card := by
  have hrun : ((client beforeRefresh).exec rejectedTwice (start twoAuthorize)).map
      (fun c => (admissions c.world.data.log).length) = some 2 := by decide +kernel
  obtain ⟨c, hreach, hlen⟩ := System.reaches_of_exec_map _ hrun
  obtain ⟨hone, -, hle⟩ := handshakes_coalesce hreach
  refine ⟨c, hreach, hlen, hone, ?_⟩
  rw [← hlen]
  exact hle (fun _ _ h => h) noAdmit_twoAuthorize

/-- The second call comes when the ticket of the first one is stale but has not expired. -/
def staleTicket : List (Nat × ((o : Operation) → Answer o)) :=
  List.replicate 23 (0, answers 0 none none 0 (.ok []) ([1], 100) (.ok ())) ++
  List.replicate 24 (1, answers 85 (some ⟨[1], 80⟩) none 1 (.ok []) ([2], 200) (.ok ()))

/-- Past its refresh point a ticket is replaced though nothing has happened to it. -/
theorem admitted_again_within_ttl :
    ∃ c, (client withinTtl).Reaches (start twoAuthorize) c ∧ (∀ i, (twoAuthorize i).All (· ≠ .admitAgent)) ∧
      (admissions c.world.data.log).length = 2 ∧ (dead c.world.data.log).toFinset.card = 0 := by
  have hrun : ((client withinTtl).exec staleTicket (start twoAuthorize)).map
      (fun c => ((admissions c.world.data.log).length, dead c.world.data.log)) = some (2, []) := by decide +kernel
  obtain ⟨c, hreach, hw⟩ := System.reaches_of_exec_map _ hrun
  rw [Prod.mk.injEq] at hw
  refine ⟨c, hreach, noAdmit_twoAuthorize, hw.1, ?_⟩
  rw [hw.2]
  rfl

end SeamSdk.AsyncClient
