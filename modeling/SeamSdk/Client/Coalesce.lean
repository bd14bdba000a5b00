import SeamSdk.Client.Turns

/-!
# Refreshes coalesce

As long as the clock stays before the refresh point of every ticket, a call is admitted only when all
earlier tickets are dead: at most one ticket is alive at any time, and it is in the cache or on its way there.

- `Coalesced.step`: no operation breaks this, if admissions are asked for only when every ticket is dead and the lock
  is given back only when the ticket that is alive, if any, is in the cache;
- `ticketFor_spec`, `refreshTicket_spec`, `invalidateTicket_spec`: the calls keep to that;
- `admissions_le`: there is at most one admission more than there are dead tickets.
-/

namespace SeamSdk.PyClient

open ByteCodec Threads Ledger Client

/-! ## Surroundings -/

/-- The clock stays before every refresh point as well. -/
def beforeRefresh : Surroundings := whileFresh fun now exp n => now < refreshPoint exp n

/-! ## The discipline -/

/-- Every ticket is dead or in the cache. -/
def Rested (w : World) : Prop := Quiet w.cache.ticket w.log

/-- Every ticket but the one given is dead. -/
def Spent (t : Option Bytes) (w : World) : Prop := SpentBut t w.log

structure Coalesced (w : World) : Prop where
  nodup : (admissions w.log).Nodup
  alive : ∃ t, Spent t w
  free : w.lock = none → Rested w
  cached : ∀ t, w.cache.ticket = some t →
    ∃ exp n, .stored t exp n ∈ w.log ∧ w.cache.refreshAtMs = refreshPoint exp n

def owes (i : Nat) : Op → World → Prop
  | .release, w => w.lock = some i ∧ Rested w
  | .requestAdmit, w => w.lock = some i ∧ Spent none w
  | .cacheStore _ _ _, w => w.lock = some i
  | .cacheInvalidate, w => w.lock = some i
  | _, _ => True

theorem lock_of_owes {i : Nat} {o : Op} {w : World} (h : owes i o w) (ho : o.plain = false) (hacquire : o ≠ .acquire) :
    w.lock = some i := by
  cases o with
  | acquire => exact absurd rfl hacquire
  | release | requestAdmit => exact h.1
  | cacheStore | cacheInvalidate => exact h
  | _ => cases ho

section Step

variable {w w' : World}

theorem framed_rested : Framed Rested := by
  intro w w' h hw
  unfold Rested
  rw [h.cache]
  exact hw.mono h.suffix h.admissions

theorem framed_spent (t : Option Bytes) : Framed (Spent t) := fun _ _ h hw => hw.mono h.suffix h.admissions

theorem Spent.rested (h : Spent none w) : Rested w := h.quiet_of_none _

theorem Coalesced.frame (h : Frame w w') (hw : Coalesced w) : Coalesced w' where
  nodup := h.admissions ▸ hw.nodup
  alive := hw.alive.imp fun t ht => framed_spent t _ _ h ht
  free hlock := framed_rested _ _ h (hw.free (h.lock ▸ hlock))
  cached t ht := by
    rw [h.cache] at ht
    obtain ⟨exp, n, hstored, hrefresh⟩ := hw.cached t ht
    exact ⟨exp, n, h.suffix.subset hstored, h.cache ▸ hrefresh⟩

/-- **No operation breaks the invariant.** -/
theorem Coalesced.step {i : Nat} {o : Op} {r : Res o} (hw : Coalesced w) (howes : owes i o w)
    (h : step beforeRefresh i o r w = some w') : Coalesced w' := by
  cases o with
  | acquire =>
    obtain ⟨-, rfl⟩ := step_acquire.mp h
    exact ⟨hw.nodup, hw.alive, nofun, hw.cached⟩
  | release =>
    cases h
    exact ⟨hw.nodup, hw.alive, fun _ => howes.2, hw.cached⟩
  | cacheStore t exp n =>
    obtain ⟨-, rfl⟩ := note_eq_some.mp h
    refine ⟨hw.nodup, ?_, ?_, ?_⟩
    · exact hw.alive.imp fun _ hs => hs.mono (List.suffix_cons _ _) rfl
    · intro hlock
      rw [show w.lock = some i from howes] at hlock
      cases hlock
    · intro s hs
      obtain ⟨rfl, -, hrefresh⟩ := TicketCache.store_ticket hs
      exact ⟨exp, n, .head _, hrefresh⟩
  | cacheInvalidate =>
    have hlock : w.lock = some i := howes
    rcases step_cacheInvalidate.mp h with ⟨-, rfl⟩ | ⟨t, -, -, rfl⟩
    · exact ⟨hw.nodup, hw.alive, by simp [hlock], nofun⟩
    · refine ⟨hw.nodup, ?_, by simp [hlock], nofun⟩
      exact hw.alive.imp fun _ hs => hs.mono (List.suffix_cons _ _) rfl
  | requestAdmit =>
    rcases step_requestAdmit.mp h with ⟨-, rfl⟩ | ⟨t, exp, -, henv, rfl⟩
    · exact hw
    · obtain ⟨-, hnew⟩ := withinTtl_admitted (withinTtl_of_whileFresh henv)
      refine ⟨List.nodup_cons.mpr ⟨hnew, hw.nodup⟩, ⟨some t, howes.2.admitted t exp⟩, by simp [howes.1], ?_⟩
      intro s hs
      obtain ⟨exp', n, hstored, hrefresh⟩ := hw.cached s hs
      exact ⟨exp', n, .tail _ hstored, hrefresh⟩
  | nowMs | cacheGet | issueChallenge | send | sleep | random | mark =>
    exact hw.frame (frame_of_plain rfl h)

end Step

def coalescing : Discipline (client beforeRefresh) where
  inv := Coalesced
  pre := owes
  keeps hw howes h := hw.step howes h

theorem keepsLock_coalescing : KeepsLock coalescing := fun _ _ _ h ho hacquire => lock_of_owes h ho hacquire

/-! ## The calls -/

section Calls

variable {i : Nat} {A : World → Prop}

/-- The clock is before the refresh point of the cached ticket and before every expiry. -/
def Timely (now : Int) (w : World) : Prop :=
  (∀ t, w.cache.ticket = some t → now < w.cache.refreshAtMs) ∧ ∀ t exp, .admitted t exp ∈ w.log → now < exp

theorem framed_timely (now : Int) : Framed (Timely now) := by
  intro w w' h hw
  refine ⟨?_, ?_⟩
  · rw [h.cache]
    exact hw.1
  · intro t exp he
    exact hw.2 t exp ((h.mem_log rfl).mp he)

theorem nowMs_spec (hA : Framed A) :
    coalescing.Triple i (Held i A) (perform .nowMs) fun now => Held i fun w => A w ∧ Timely now w := by
  refine perform_plain keepsLock_coalescing rfl hA (fun _ _ _ => trivial) ?_ framed_timely
  intro now w w' hw _ h
  obtain ⟨henv, rfl⟩ := note_eq_some.mp h
  refine ⟨?_, ?_⟩
  · intro t ht
    obtain ⟨exp, n, hstored, hpoint⟩ := hw.cached t ht
    rw [hpoint]
    exact of_decide_eq_true (whileFresh_stored henv hstored)
  · intro t exp he
    rcases List.mem_cons.mp he with he | he
    · cases he
    · exact withinTtl_clock (withinTtl_of_whileFresh henv) he

theorem cacheGet_spec (hA : Framed A) (now : Int) :
    coalescing.Triple i (Held i A) (perform (.cacheGet now)) fun r => Held i fun w =>
      A w ∧ r = w.cache.get now := by
  refine perform_plain keepsLock_coalescing rfl hA (fun _ _ _ => trivial) ?_ ?_
  · intro r w w' _ _ h
    rw [(frame_of_plain rfl h).cache]
    exact (step_cacheGet.mp h).1
  · intro r w w' h hw
    rw [h.cache]
    exact hw

/-- The ticket is the only one that may be alive, and it is not empty. -/
def Pending (t : Bytes) (exp : Int) (w : World) : Prop := Spent (some t) w ∧ .admitted t exp ∈ w.log ∧ t ≠ []

theorem framed_pending (t : Bytes) (exp : Int) : Framed (Pending t exp) := by
  intro w w' h hw
  exact ⟨framed_spent _ _ _ h hw.1, h.suffix.subset hw.2.1, hw.2.2⟩

theorem presentation_spec (hA : Framed A) : coalescing.Triple i (Held i A) presentation.run fun _ => Held i A :=
  presentation_held keepsLock_coalescing (fun _ => trivial) (fun _ => trivial) hA

theorem requestAdmit_spec : coalescing.Triple i (Held i (Spent none)) requestAdmit.run fun r => Held i fun w =>
      match r with
      | .ok (t, exp) => Pending t exp w
      | .error _ => Spent none w := by
  refine perform_spec (fun _ _ h => h) ?_ ?_
  · intro r w w' _ hP h
    rcases step_requestAdmit.mp h with ⟨⟨e, rfl⟩, rfl⟩ | ⟨t, exp, rfl, henv, rfl⟩
    · exact hP
    · exact ⟨hP.1, hP.2.admitted t exp, .head _, (withinTtl_admitted (withinTtl_of_whileFresh henv)).1⟩
  · intro r
    rcases r with e | ⟨t, exp⟩
    · exact (framed_spent none).stable keepsLock_coalescing
    · exact (framed_pending t exp).stable keepsLock_coalescing

/-- **Once every ticket is dead**, a new one ends up in the cache. -/
theorem admitLocked_spec : coalescing.Triple i (Held i (Spent none)) admitLocked.run fun _ => Held i Rested := by
  refine .bindE (presentation_spec (framed_spent none)) ?_ fun _ _ _ h => ⟨h.1, h.2.rested⟩
  intro _
  refine .bindE requestAdmit_spec ?_ fun _ _ _ h => ⟨h.1, h.2.rested⟩
  rintro ⟨t, exp⟩
  refine .thenE (nowMs_spec (framed_pending t exp)) ?_
  intro now
  refine .thenE (T := fun _ => Held i Rested) ?_ fun _ => .ret fun _ _ h => h
  refine perform_spec (fun _ _ h => h.1) ?_ fun _ => framed_rested.stable keepsLock_coalescing
  intro _ w w' _ hP h
  obtain ⟨hlock, ⟨hspent, hadmitted, hne⟩, htimely⟩ := hP
  obtain ⟨-, rfl⟩ := note_eq_some.mp h
  refine ⟨hlock, ?_⟩
  unfold Rested
  rw [TicketCache.store_ticket_of_lt hne (htimely.2 t exp hadmitted)]
  exact hspent.quiet.mono (List.suffix_cons _ _) rfl

/-- The body of a locked section finds and leaves every ticket dead or cached. -/
theorem withLock_spec {α : Type} {body : Client α} (hA : Lasting A)
    (hbody : coalescing.Triple i (Held i fun w => Rested w ∧ A w) body.run fun _ => Held i Rested) :
    coalescing.Triple i A (withLock body).run fun _ _ => True := by
  refine withLock_triple keepsLock_coalescing (fun _ => trivial) ?_ (framed_rested.and hA.framed) hbody
    (fun _ _ h => h) (fun _ _ _ => trivial) fun _ => Discipline.stable_true
  intro w hw hP hfree
  exact ⟨hw.free hfree, hA w _ (List.suffix_refl _) hP⟩

/-- What a look at the cache tells while the clock is before the refresh point. -/
theorem ticket_eq_of_get {now : Int} {w : World} (h : Timely now w) : w.cache.ticket = w.cache.get now := by
  cases hget : w.cache.get now with
  | some t => exact (TicketCache.get_eq_some_iff.mp hget).1
  | none =>
    cases ht : w.cache.ticket with
    | none => rfl
    | some t => exact absurd (h.1 t ht) (not_lt.mpr (TicketCache.get_eq_none_iff.mp hget t ht))

/-- A look at the cache under the lock. -/
theorem look_spec {α : Type} {f : Option Bytes → Client α} {Q : Except SeamRpcError α → World → Prop}
    (hA : Framed A)
    (hf : ∀ r, coalescing.Triple i (Held i fun w => A w ∧ w.cache.ticket = r) (f r).run Q) :
    coalescing.Triple i (Held i A) (nowMs >>= fun now => cacheGet now >>= f).run Q := by
  refine .thenE (nowMs_spec hA) ?_
  intro now
  refine .thenE (cacheGet_spec (hA.and (framed_timely now)) now) ?_
  intro r
  refine (hf r).pre ?_
  rintro w _ ⟨hlock, ⟨hw, htimely⟩, rfl⟩
  exact ⟨hlock, hw, ticket_eq_of_get htimely⟩

theorem mark_spec (hA : Lasting A) (m : Mark) : coalescing.Triple i A (perform (.mark m)) fun _ => A :=
  perform_spec (fun _ _ _ => trivial) (fun _ w w' _ hP h => hA w w' (log_suffix_of_step h) hP) fun _ => hA.stable

theorem lasting_true : Lasting fun _ => True := fun _ _ _ _ => trivial

theorem ticketFor_spec : coalescing.Triple i (fun _ => True) ticketFor.run fun _ _ => True := by
  refine .thenE (mark_spec lasting_true .fetching) ?_
  intro _
  refine .bindE (R := fun _ _ => True)
    (withLock_spec lasting_true (look_spec (framed_rested.and lasting_true.framed) ?_)) ?_ fun _ _ _ h => h
  · intro r
    cases r with
    | some t => exact .ret fun w _ h => ⟨h.1, h.2.1.1⟩
    | none =>
      refine admitLocked_spec.pre ?_
      intro w _ h
      have hrested : Quiet w.cache.ticket w.log := h.2.1.1
      rw [h.2.2] at hrested
      exact ⟨h.1, hrested.spent⟩
  · intro t
    exact .thenE (mark_spec lasting_true _) fun _ => .ret fun _ _ _ => trivial

theorem lasting_rejected (t : Bytes) : Lasting fun w => Rejected t w.log := fun _ _ h hw => hw.mono h

theorem lasting_condemned (t : Bytes) : Lasting fun w => Condemned t w.log := fun _ _ h hw => hw.mono h

/-- After a condemned ticket is thrown out of the cache, every ticket is dead. -/
theorem cacheInvalidate_spec (failed : Bytes) : coalescing.Triple i
      (Held i fun w => (Rested w ∧ Condemned failed w.log) ∧ ∀ t, w.cache.ticket = some t → t = failed)
      (perform .cacheInvalidate) fun _ => Held i (Spent none) := by
  refine perform_spec (fun _ _ h => h.1) ?_ fun _ => (framed_spent none).stable keepsLock_coalescing
  intro _ w w' _ hP h
  obtain ⟨hlock, ⟨hrested, hcondemned⟩, hcached⟩ := hP
  unfold Rested at hrested
  rcases step_cacheInvalidate.mp h with ⟨hnone, rfl⟩ | ⟨t, ht, -, rfl⟩
  · rw [hnone] at hrested
    exact ⟨hlock, hrested.spent⟩
  · obtain rfl := hcached t ht
    rw [ht] at hrested
    exact ⟨hlock, hrested.dropped hcondemned⟩

theorem refreshTicket_spec (failed : Bytes) :
    coalescing.Triple i (fun w => Rejected failed w.log) (refreshTicket failed).run fun _ _ => True := by
  have hlasting := lasting_rejected failed
  refine .thenE (mark_spec hlasting .fetching) ?_
  intro _
  refine .bindE (R := fun _ _ => True) (.bind (R := fun _ _ => True)
    (withLock_spec hlasting (look_spec (framed_rested.and hlasting.framed) ?_)) ?_) ?_ fun _ _ _ h => h
  · intro r
    cases hr : r.filter (· ≠ failed) with
    | some t => exact .ret fun w _ h => ⟨h.1, h.2.1.1⟩
    | none =>
      refine .thenE ((cacheInvalidate_spec failed).pre ?_) fun _ => admitLocked_spec
      rintro w _ ⟨hlock, ⟨hquiet, hrejected⟩, rfl⟩
      refine ⟨hlock, ⟨hquiet, .inl hrejected⟩, ?_⟩
      intro t ht
      simpa using Option.filter_eq_none_iff.mp hr t ht
  · intro r
    exact .bind (mark_spec lasting_true _) fun _ => .ret fun _ _ _ => trivial
  · intro t
    exact .thenE (mark_spec lasting_true _) fun _ => .ret fun _ _ _ => trivial

theorem invalidateTicket_spec (failed : Bytes) :
    coalescing.Triple i (fun w => Condemned failed w.log) (invalidateTicket failed).run
      fun _ _ => True := by
  have hlasting := lasting_condemned failed
  refine withLock_spec hlasting (look_spec (framed_rested.and hlasting.framed) ?_)
  intro r
  by_cases hr : r = some failed
  · rw [if_pos hr]
    refine .bind ((cacheInvalidate_spec failed).mono ?_ fun _ _ _ h => ⟨h.1, h.2.rested⟩)
      fun _ => .ret fun _ _ h => h
    rintro w _ ⟨hlock, hw, hticket⟩
    refine ⟨hlock, hw, ?_⟩
    intro t ht
    rw [hticket, hr] at ht
    exact (Option.some.inj ht).symm
  · rw [if_neg hr]
    exact .ret fun w _ h => ⟨h.1, h.2.1.1⟩

/-- What an answer tells of the ticket that was sent. -/
def Answered (rpc : String) (t : Bytes) (r : Except SeamRpcError Unit) (w : World) : Prop :=
  ∀ e, r = .error e → Told rpc t e w.log

theorem send_spec (rpc : String) (t : Bytes) :
    coalescing.Triple i (fun _ => True) (send rpc t).run (Answered rpc t) := by
  refine perform_spec (fun _ _ _ => trivial) ?_ fun r => Lasting.stable fun w w' h hw e he => (hw e he).mono h
  intro r w w' _ _ h e he
  subst he
  obtain ⟨-, rfl⟩ := note_eq_some.mp h
  exact told_answered i rpc t e w.log

theorem forgetBurnedTicket_spec (rpc : String) (t : Bytes) (e : SeamRpcError) :
    coalescing.Triple i (Answered rpc t (.error e)) (forgetBurnedTicket t rpc e).run fun _ _ => True := by
  unfold forgetBurnedTicket
  split
  · rename_i hburns
    refine .bind ((invalidateTicket_spec t).pre fun w _ h => (h e rfl).2 hburns) fun r => ?_
    exact .bind (mark_spec lasting_true _) fun _ => .ret fun _ _ _ => trivial
  · exact .ret fun _ _ _ => trivial

theorem throw_spec {α : Type} {P : World → Prop} (e : SeamRpcError) :
    coalescing.Triple i P (throw e : Client α).run fun _ _ => True :=
  .ret fun _ _ _ => trivial

theorem sendLast_spec (rpc : String) (t : Bytes) :
    coalescing.Triple i (fun _ => True) (sendLast rpc t).run fun _ _ => True := by
  refine .catchE (send_spec rpc t) ?_ fun _ _ _ _ => trivial
  intro e
  dsimp only
  split
  · exact .bindE (forgetBurnedTicket_spec rpc t e) (fun _ => throw_spec e) fun _ _ _ h => h
  · exact throw_spec e

theorem authorize_spec : coalescing.Triple i (fun _ => True) authorize.run fun _ _ => True := by
  refine .bindE ticketFor_spec ?_ fun _ _ _ h => h
  intro t
  refine .catchE (send_spec authorizeRpc t) ?_ fun _ _ _ _ => trivial
  intro e
  split
  · rename_i hcode
    refine .bindE ((refreshTicket_spec t).pre fun w _ h => (h e rfl).1 hcode) ?_ fun _ _ _ h => h
    exact fun t' => (send_spec authorizeRpc t').post fun _ _ _ _ => trivial
  · exact throw_spec e

theorem credentialedCall_spec (rpc : String) (retry : Bool) :
    coalescing.Triple i (fun _ => True) (credentialedCall rpc retry).run fun _ _ => True := by
  refine .bindE ticketFor_spec ?_ fun _ _ _ h => h
  intro t
  refine .catchE (send_spec rpc t) ?_ fun _ _ _ _ => trivial
  intro e
  split
  · exact .bindE (forgetBurnedTicket_spec rpc t e) (fun _ => throw_spec e) fun _ _ _ h => h
  split
  · exact throw_spec e
  rename_i hcode
  have hrejected : ∀ w, Answered rpc t (.error e) w → Rejected t w.log := fun w h => (h e rfl).1 (not_not.mp hcode)
  split
  · exact .bindE ((invalidateTicket_spec t).pre fun w _ h => .inl (hrejected w h)) (fun _ => throw_spec e)
      fun _ _ _ h => h
  · exact .bindE ((refreshTicket_spec t).pre fun w _ h => hrejected w h) (fun t' => sendLast_spec rpc t')
      fun _ _ _ h => h

theorem call_spec {c : Call} (hc : c ≠ .admitAgent) :
    coalescing.Triple i (fun _ => True) (runCall c).run fun _ _ => True := by
  cases c with
  | admitAgent => exact absurd rfl hc
  | authorize => exact authorize_spec
  | signedOnce rpc => exact .bindE ticketFor_spec (fun t => sendLast_spec rpc t) fun _ _ _ h => h
  | credentialedCall rpc retry => exact credentialedCall_spec rpc retry

theorem retryFrom_spec {l : RetryLimits} {call : Client Unit}
    (hcall : coalescing.Triple i (fun _ => True) call.run fun _ _ => True) (left attempt : Nat) (waited : Rat) :
    coalescing.Triple i (fun _ => True) (retryFrom l call left attempt waited).run fun _ _ => True := by
  induction left generalizing attempt waited with
  | zero => exact .thenE (mark_spec lasting_true _) fun _ => hcall
  | succ left ih =>
    refine .thenE (mark_spec lasting_true _) fun _ => ?_
    refine .catchE hcall ?_ fun _ _ _ h => h
    intro e
    split
    · refine .thenE (T := fun _ _ => True) ?_ ?_
      · exact perform_spec (fun _ _ _ => trivial) (fun _ _ _ _ _ _ => trivial) fun _ => Discipline.stable_true
      · intro random
        cases nextDelay l e attempt waited random with
        | none => exact throw_spec e
        | some delay =>
          refine .thenE (T := fun _ _ => True) ?_ fun _ => ih (attempt + 1) (waited + delay)
          exact perform_spec (fun _ _ _ => trivial) (fun _ _ _ _ _ _ => trivial) fun _ => Discipline.stable_true
    · exact throw_spec e

theorem use_spec {u : Use} (hu : u.call ≠ .admitAgent) : coalescing.Triple i (fun _ => True) u.run fun _ _ => True := by
  cases u with
  | once c => exact call_spec hu
  | retried l c => exact retryFrom_spec (call_spec hu) _ 1 0

end Calls

/-! ## The bound -/

theorem coalesced_initial : Coalesced .initial where
  nodup := List.nodup_nil
  alive := ⟨none, nofun⟩
  free _ := nofun
  cached := nofun

/-- **Refreshes coalesce.** -/
theorem admissions_le {users : Nat → User} (husers : ∀ i, (users i).All fun u => u.call ≠ .admitAgent)
    {c : Config Res World Unit} (h : (client beforeRefresh).Reaches (start users) c) :
    (admissions c.world.log).length ≤ 1 + (dead c.world.log).toFinset.card := by
  have hw : Coalesced c.world := by
    refine coalescing.inv_of_reaches (P := fun _ _ => True) h coalesced_initial (fun _ => trivial)
      (fun _ => Discipline.stable_true) ?_
    exact fun i => .interp (fun _ hu => use_spec hu) (husers i)
  obtain ⟨t, ht⟩ := hw.alive
  exact length_admissions_le hw.nodup ht

/-! ## Runs -/

/-- Two threads with one call each. -/
def twoAuthorize : Nat → User := Prog.inTwo (.once .authorize)

theorem noAdmit_twoAuthorize (i : Nat) : (twoAuthorize i).All fun u => u.call ≠ .admitAgent := Prog.all_inTwo nofun i

/-- Both calls are rejected with the first ticket. The first one gets another ticket, the second one takes that. -/
def rejectedTwice : List (Nat × ((o : Op) → Res o)) :=
  List.replicate 12 (0, answers 0 none ([1], 100) (.error .unauthenticated)) ++
  List.replicate 7 (1, answers 0 (some [1]) ([], 0) (.error .unauthenticated)) ++
  List.replicate 14 (0, answers 0 (some [1]) ([2], 100) (.ok ())) ++
  List.replicate 8 (1, answers 0 (some [2]) ([], 0) (.ok ()))

theorem admissions_le_rejectedTwice :
    ∃ c, (client beforeRefresh).Reaches (start twoAuthorize) c ∧ (admissions c.world.log).length = 2 ∧
      2 ≤ 1 + (dead c.world.log).toFinset.card := by
  have hrun : ((client beforeRefresh).exec rejectedTwice (start twoAuthorize)).map
      (fun c => (admissions c.world.log).length) = some 2 := by decide +kernel
  obtain ⟨c, hreach, hlen⟩ := System.reaches_of_exec_map _ hrun
  refine ⟨c, hreach, hlen, ?_⟩
  rw [← hlen]
  exact admissions_le noAdmit_twoAuthorize hreach

/-- The second call comes when the ticket of the first one is stale but has not expired. -/
def staleTicket : List (Nat × ((o : Op) → Res o)) :=
  List.replicate 12 (0, answers 0 none ([1], 100) (.ok ())) ++
  List.replicate 12 (1, answers 85 none ([2], 200) (.ok ()))

/-- Past its refresh point a ticket is replaced though nothing has happened to it. -/
theorem admitted_twice_within_ttl :
    ∃ c, (client withinTtl).Reaches (start twoAuthorize) c ∧ (∀ i, (twoAuthorize i).All fun u => u.call ≠ .admitAgent) ∧
      (admissions c.world.log).length = 2 ∧ (dead c.world.log).toFinset.card = 0 := by
  have hrun : ((client withinTtl).exec staleTicket (start twoAuthorize)).map
      (fun c => ((admissions c.world.log).length, dead c.world.log)) = some (2, []) := by decide +kernel
  obtain ⟨c, hreach, hw⟩ := System.reaches_of_exec_map _ hrun
  rw [Prod.mk.injEq] at hw
  refine ⟨c, hreach, noAdmit_twoAuthorize, hw.1, ?_⟩
  rw [hw.2]
  rfl

end SeamSdk.PyClient
