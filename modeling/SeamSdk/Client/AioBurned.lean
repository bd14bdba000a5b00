import SeamSdk.Client.AioTurns

/-!
# Burned tickets in the asyncio client

The server burns the proof of a guarded write before it refuses the write. The task that made the call then drops the
ticket, so that no later call signs with it. It awaits the lock for that, and if it is cancelled there, the ticket stays
in the cache: another task that has the lock may leave it there.

- `Dead`, `StayDead`: tickets that should not be used by calls that begin later;
- `Gone.step`: a ticket that is not in the cache, or stale there, does not come back;
- `forgetAndRaise_burying`: a task that is not cancelled when it forgets a ticket leaves it gone;
- `burned_stay_dead_iff`: burned tickets stay dead just if a task cannot be cancelled while it forgets one.
-/

namespace SeamSdk.AioClient

open ByteCodec Threads Aio Ledger
open PyClient (TicketCache)

/-! ## What has happened -/

/-- At some time `p` was true of an event and of what had happened before. -/
def Once (p : Event → List Event → Prop) (log : List Event) : Prop :=
  ∃ newer e older, log = newer ++ e :: older ∧ p e older

section Once

variable {p : Event → List Event → Prop} {e : Event} {log log' : List Event}

theorem once_cons : Once p (e :: log) ↔ p e log ∨ Once p log := by
  constructor
  · rintro ⟨newer, e', older, hlog, hp⟩
    cases newer with
    | nil =>
      cases hlog
      exact .inl hp
    | cons e'' newer =>
      cases hlog
      exact .inr ⟨newer, e', older, rfl, hp⟩
  · rintro (hp | ⟨newer, e', older, rfl, hp⟩)
    · exact ⟨[], e, log, rfl, hp⟩
    · exact ⟨e :: newer, e', older, rfl, hp⟩

theorem not_once_nil : ¬Once p [] := by
  rintro ⟨newer, e, older, hlog, -⟩
  simp at hlog

theorem Once.mono (h : Once p log) (hlog : log <:+ log') : Once p log' := by
  obtain ⟨newer, e, older, rfl, hp⟩ := h
  obtain ⟨newest, rfl⟩ := hlog
  exact ⟨newest ++ newer, e, older, (List.append_assoc ..).symm, hp⟩

end Once

/-- Task `i` has received a refusal of a guarded write that it sent under the ticket. -/
def Burned (i : Nat) (t : Bytes) (log : List Event) : Prop :=
  ∃ rpc e, .delivered i rpc t (some e) ∈ log ∧ burns rpc e = true

/-- And the task has finished since. -/
def Dead (t : Bytes) : List Event → Prop := Once fun e older => ∃ i, e = .finished i ∧ Burned i t older

/-- A call of task `j` has begun since the ticket was dead. -/
def Barred (j : Nat) (t : Bytes) : List Event → Prop := Once fun e older => e = .entered j ∧ Dead t older

/-- No call that begins after that sends a credential under the ticket. -/
def StayDead (log : List Event) : Prop := ¬Once (fun e older => ∃ j rpc t, e = .sent j rpc t ∧ Barred j t older) log

/-- The clock does not go back, and the server never repeats a ticket. -/
def orderly : Surroundings := fun log e => onward Event.clock? log e && newTicket Event.ticket? log e

variable {log : List Event} {o : Op} {w : World} {rpc : String}

theorem orderly_clock {now n : Int} (h : orderly log (.clock now) = true) (hn : .clock n ∈ log) : n ≤ now :=
  le_of_onward (Bool.and_eq_true_iff.mp h).1 rfl hn rfl

theorem orderly_admitted {t : Bytes} {exp exp' : Int} (h : orderly log (.admitted t exp) = true) :
    .admitted t exp' ∉ log := fun hmem =>
  notMem_of_newTicket (Bool.and_eq_true_iff.mp h).2 rfl (List.mem_filterMap.mpr ⟨_, hmem, rfl⟩)

/-! ## What a turn adds -/

section Turn

variable {may : Await → Bool} {env : Surroundings} {i j : Nat} {o : Op} {r : Res o} {w w' : World} {t : Bytes}
  (h : step may env i o r w = some w')

include h

/-- What happens once in a turn. -/
theorem once_of_step {p : Event → List Event → Prop} (hp : Once p w'.log) :
    Once p w.log ∨ ∃ e, o.noted i w.cache r = some e ∧ p e w.log := by
  rw [log_of_step h] at hp
  cases hn : o.noted i w.cache r with
  | none =>
    rw [hn] at hp
    exact .inl hp
  | some e =>
    rw [hn] at hp
    rcases once_cons.mp hp with hp | hp
    · exact .inr ⟨e, rfl, hp⟩
    · exact .inl hp

theorem dead_of_step (hdead : Dead t w'.log) : Dead t w.log ∨ (o = .finish ∧ Burned i t w.log) := by
  rcases once_of_step h hdead with hdead | ⟨e, hn, j, rfl, hburned⟩
  · exact .inl hdead
  · obtain ⟨ho, rfl⟩ := isOf_of_noted hn
    exact .inr ⟨ho, hburned⟩

theorem barred_of_step (hbarred : Barred j t w'.log) : Barred j t w.log ∨ (o = .enter ∧ j = i) := by
  rcases once_of_step h hbarred with hbarred | ⟨e, hn, rfl, -⟩
  · exact .inl hbarred
  · exact .inr (isOf_of_noted hn)

theorem mem_log_of_step {e : Event} (he : e ∈ w'.log) : e ∈ w.log ∨ o.noted i w.cache r = some e := by
  rw [log_of_step h, List.mem_append, Option.mem_toList] at he
  exact he.symm

theorem burned_of_step (hburned : Burned j t w'.log) : Burned j t w.log ∨ (j = i ∧ ∃ rpc, o = .receive rpc t) := by
  obtain ⟨rpc, e, hmem, hburns⟩ := hburned
  rcases mem_log_of_step h hmem with hmem | hn
  · exact .inl ⟨rpc, e, hmem, hburns⟩
  · obtain ⟨ho, rfl⟩ := isOf_of_noted hn
    exact .inr ⟨rfl, rpc, ho⟩

end Turn

/-! ## Tickets that are gone -/

/-- The readings of the clock. -/
def World.Read (w : World) (now : Int) : Prop := .clock now ∈ w.log

/-- The ticket was cached once, and is not in the cache now or was seen to be stale there. -/
def Gone (t : Bytes) (w : World) : Prop := .stored t ∈ w.log ∧ w.cache.Stale w.Read t

/-- A dead ticket is gone, and no call that begins later sends it. -/
structure Buried (w : World) : Prop where
  gone : ∀ {t}, Dead t w.log → Gone t w
  stay : StayDead w.log
  cached : ∀ {t}, w.cache.ticket = some t → .stored t ∈ w.log
  stored : ∀ {t}, .stored t ∈ w.log → ∃ exp, .admitted t exp ∈ w.log

/-- What task `i` owes: it stores only new tickets, sends none that is barred from it, and finishes only when every
ticket that was burned for it is gone. -/
def owesBurned (i : Nat) : Op → World → Prop
  | .cacheStore t _ _, w => .stored t ∉ w.log ∧ ∃ exp, .admitted t exp ∈ w.log
  | .send _ t, w => ¬Barred i t w.log
  | .finish, w => ∀ t, Burned i t w.log → Gone t w
  | _, _ => True

section Burying

variable {may : Await → Bool} {i j : Nat} {t : Bytes}

section Step

variable {env : Surroundings} {o : Op} {r : Res o} {w w' : World}

/-- **A ticket that is gone stays gone.** -/
theorem Gone.step (hgone : Gone t w) (howes : owesBurned i o w) (h : step may env i o r w = some w') : Gone t w' := by
  have hlog := (log_suffix_of_step h).subset
  refine ⟨hlog hgone.1, ?_⟩
  rw [cache_of_step h]
  cases o with
  | cacheStore s exp now => exact TicketCache.stale_store fun heq => howes.1 (heq ▸ hgone.1)
  | cacheInvalidate => exact TicketCache.stale_invalidate
  | _ => exact hgone.2.mono fun _ hread => hlog hread

theorem Buried.step (hw : Buried w) (howes : owesBurned i o w) (h : step may env i o r w = some w') : Buried w' := by
  have hlog := (log_suffix_of_step h).subset
  refine ⟨?_, ?_, ?_, ?_⟩
  · intro t hdead
    rcases dead_of_step h hdead with hdead | ⟨rfl, hburned⟩
    · exact (hw.gone hdead).step howes h
    · exact (howes t hburned).step howes h
  · intro honce
    rcases once_of_step h honce with honce | ⟨e, hn, j, rpc, t, rfl, hbarred⟩
    · exact hw.stay honce
    · obtain ⟨rfl, rfl⟩ := isOf_of_noted hn
      exact howes hbarred
  · intro t hcached
    rw [cache_of_step h] at hcached
    cases o with
    | cacheStore s exp now =>
      obtain ⟨rfl, -, -⟩ := TicketCache.store_ticket hcached
      rw [log_of_step h]
      exact .head _
    | cacheInvalidate => cases hcached
    | _ => exact hlog (hw.cached hcached)
  · intro t hstored
    rcases mem_log_of_step h hstored with hstored | hn
    · obtain ⟨exp, hmem⟩ := hw.stored hstored
      exact ⟨exp, hlog hmem⟩
    · obtain ⟨_, _, rfl⟩ := isOf_of_noted hn
      obtain ⟨exp, hmem⟩ := howes.2
      exact ⟨exp, hlog hmem⟩

end Step

variable (may) in
def burying : Discipline (client may orderly) where
  inv := Buried
  pre j o w := (o.locked = true → w.lock = some j) ∧ owesBurned j o w
  keeps hw howes h := hw.step howes.2 h

theorem guards_burying : (locking may orderly).Guards (burying may) := fun h ho => h.1 ho

/-! ## Facts a task relies on -/

/-- A ticket that task `i` may send. -/
def Usable (i : Nat) (t : Bytes) (w : World) : Prop := ¬Barred i t w.log ∧ .stored t ∈ w.log

/-- Every ticket that was burned for task `i` is gone, except for those given. -/
def SettledBut (i : Nat) (X : Bytes → Prop) (w : World) : Prop := ∀ t, Burned i t w.log → Gone t w ∨ X t

abbrev Settled (i : Nat) : World → Prop := SettledBut i fun _ => False

def Op.isReceive : Op → Bool
  | .receive _ _ => true
  | _ => false

theorem untouched_usable (t : Bytes) : (burying may).Untouched i (· ≠ .enter) (Usable i t) := by
  intro j o r w w' _ _ h ho hw
  refine ⟨?_, (log_suffix_of_step h).subset hw.2⟩
  intro hbarred
  rcases barred_of_step h hbarred with hbarred | ⟨rfl, rfl⟩
  · exact hw.1 hbarred
  · exact ho rfl rfl

theorem untouched_settledBut (X : Bytes → Prop) :
    (burying may).Untouched i (·.isReceive = false) (SettledBut i X) := by
  intro j o r w w' _ howes h ho hw t hburned
  rcases burned_of_step h hburned with hburned | ⟨rfl, rpc, rfl⟩
  · exact (hw t hburned).imp_left fun hgone => hgone.step howes.2 h
  · cases ho rfl

theorem untouched_gone (ok : Op → Prop) (t : Bytes) : (burying may).Untouched i ok (Gone t) :=
  fun _ _ _ _ _ _ howes h _ hw => hw.step howes.2 h

/-! ## Under the lock -/

section Framed

variable {w w' : World}

theorem mem_log_of_aside {e : Event} (h : (locking may orderly).Aside i w w') (he : e.outside = false) :
    e ∈ w'.log ↔ e ∈ w.log := by
  obtain ⟨-, new, hnew, hlog⟩ := aside_cases h
  rw [hlog, List.mem_append, Option.mem_toList, or_iff_right]
  intro hmem
  cases he.symm.trans (hnew e hmem).1

theorem barred_of_aside (h : (locking may orderly).Aside i w w') (hbarred : Barred i t w'.log) : Barred i t w.log := by
  obtain ⟨-, new, hnew, hlog⟩ := aside_cases h
  rw [hlog] at hbarred
  cases new with
  | none => exact hbarred
  | some e => exact (once_cons.mp hbarred).resolve_left fun he => (hnew e rfl).2 he.1

theorem framed_usable (t : Bytes) : (locking may orderly).Framed i (Usable i t) :=
  fun _ _ h hw => ⟨fun hbarred => hw.1 (barred_of_aside h hbarred), (mem_log_of_aside h rfl).mpr hw.2⟩

theorem framed_gone (t : Bytes) : (locking may orderly).Framed i (Gone t) := by
  intro w w' h hw
  refine ⟨(mem_log_of_aside h rfl).mpr hw.1, ?_⟩
  rw [(aside_cases h).1]
  exact hw.2.mono fun _ => (mem_log_of_aside h rfl).mpr

/-- The latest reading of the clock. -/
def Newest (now : Int) (w : World) : Prop := w.Read now ∧ ∀ n, w.Read n → n ≤ now

theorem framed_newest (now : Int) : (locking may orderly).Framed i (Newest now) :=
  fun _ _ h hw => ⟨(mem_log_of_aside h rfl).mpr hw.1, fun n hn => hw.2 n ((mem_log_of_aside h rfl).mp hn)⟩

/-- A ticket that was given out and not stored yet. -/
def Fresh (i : Nat) (t : Bytes) (w : World) : Prop :=
  .stored t ∉ w.log ∧ (∃ exp, .admitted t exp ∈ w.log) ∧ ¬Barred i t w.log

theorem Fresh.step {r : Res o} (hw : Fresh i t w) (henter : o ≠ .enter)
    (hstore : ∀ s exp now, o ≠ .cacheStore s exp now) (h : step may orderly i o r w = some w') : Fresh i t w' := by
  obtain ⟨hstored, ⟨exp, hadmitted⟩, hbarred⟩ := hw
  refine ⟨?_, ⟨exp, (log_suffix_of_step h).subset hadmitted⟩, ?_⟩
  · intro hmem
    rcases mem_log_of_step h hmem with hmem | hn
    · exact hstored hmem
    · obtain ⟨_, _, ho⟩ := isOf_of_noted hn
      exact hstore _ _ _ ho
  · intro hb
    rcases barred_of_step h hb with hb | ⟨ho, -⟩
    · exact hbarred hb
    · exact henter ho

theorem framed_fresh (t : Bytes) : (locking may orderly).Framed i (Fresh i t) := by
  intro w w' h hw
  obtain ⟨hstored, ⟨exp, hadmitted⟩, hbarred⟩ := hw
  exact ⟨fun hmem => hstored ((mem_log_of_aside h rfl).mp hmem), ⟨exp, (mem_log_of_aside h rfl).mpr hadmitted⟩,
    fun hb => hbarred (barred_of_aside h hb)⟩

/-- What a look at the cache tells: a ticket in use, and that any other ticket is stale. -/
def Looked (i : Nat) (r : Option Bytes) (w : World) : Prop := w.cache.Looked w.Read (Usable i · w) r

theorem framed_looked (r : Option Bytes) : (locking may orderly).Framed i (Looked i r) := by
  intro w w' h hw
  unfold Looked
  rw [(aside_cases h).1]
  exact hw.mono (fun _ => (mem_log_of_aside h rfl).mpr) fun t => framed_usable t w w' h

end Framed

theorem Barred.dead (h : Barred i t log) : Dead t log := by
  obtain ⟨newer, e, older, rfl, -, hdead⟩ := h
  exact hdead.mono ⟨newer ++ [e], by simp⟩

variable {u : Purpose}

section Sections

variable {α : Type} {A : World → Prop}

theorem under_burying {B : Res o → World → Prop} (ho : o.locked = true) (hr : ∀ r, o.leavesLocked r = true)
    (howes : ∀ w, A w → owesBurned i o w)
    (hstep : ∀ r w w', Buried w → A w → step may orderly i o r w = some w' → B r w')
    (hB : ∀ r, (locking may orderly).Framed i (B r)) :
    (burying may).Triple i (HeldBy may orderly i A) (perform o) fun r => HeldBy may orderly i (B r) :=
  Locking.under guards_burying ho hr (fun w _ hw => ⟨fun _ => hw.1, howes w hw.2⟩)
    (fun r w w' hinv hw => hstep r w w' hinv hw.2) hB

/-- An operation under the lock that nothing is needed of. -/
theorem pass_burying (ho : o.locked = true) (hr : ∀ r, o.leavesLocked r = true) (howes : ∀ w, owesBurned i o w) :
    (burying may).Triple i (HeldBy may orderly i fun _ => True) (perform o)
      fun _ => HeldBy may orderly i fun _ => True :=
  under_burying ho hr (fun w _ => howes w) (fun _ _ _ _ _ _ => trivial) fun _ _ _ _ _ => trivial

/-- **A look at the cache.** -/
theorem look_burying {f : Option Bytes → Aio α} {Q : Except AioError α → World → Prop}
    (hf : ∀ r, (burying may).Triple i (HeldBy may orderly i (Looked i r)) (f r).run Q) :
    (burying may).Triple i (HeldBy may orderly i fun _ => True)
      (nowMs >>= fun now => cacheGet now >>= f).run Q := by
  refine .thenE (T := fun now => HeldBy may orderly i (Newest now)) ?_ fun now => .thenE ?_ hf
  · refine under_burying rfl (fun _ => rfl) (fun _ _ => trivial) ?_ framed_newest
    intro now w w' _ _ h
    obtain ⟨henv, rfl⟩ := step_nowMs.mp h
    refine ⟨.head _, ?_⟩
    intro n hn
    rcases List.mem_cons.mp hn with hn | hn
    · cases hn
      exact le_refl _
    · exact orderly_clock henv hn
  · refine under_burying rfl (fun _ => rfl) (fun _ _ => trivial) ?_ framed_looked
    intro r w w' hw hnewest h
    obtain ⟨rfl, rfl⟩ := step_cacheGet.mp h
    refine TicketCache.looked_get hnewest.1 fun t ht =>
      ⟨fun hbarred => ?_, hw.cached (TicketCache.get_eq_some_iff.mp ht).1⟩
    -- The ticket is not stale yet, so it is not gone.
    exact TicketCache.not_stale_of_get hnewest.2 ht (hw.gone hbarred.dead).2

/-- What a fetch returns can be sent. -/
def Fetched (i : Nat) (r : Except AioError Bytes) (w : World) : Prop := Returns (Usable i · w) r

/-- A ticket that was just given out was never stored, and so it is not dead. -/
theorem Buried.fresh (hw : Buried w) {exp : Int} (henv : orderly w.log (.admitted t exp) = true) :
    Fresh i t (w.note (.admitted t exp)) := by
  have hnew : .stored t ∉ w.log := by
    intro hstored
    obtain ⟨exp', hadmitted⟩ := hw.stored hstored
    exact orderly_admitted henv hadmitted
  refine ⟨?_, ⟨exp, .head _⟩, ?_⟩
  · exact fun hmem => hnew ((List.mem_cons.mp hmem).resolve_left nofun)
  · intro hbarred
    rcases once_cons.mp hbarred with ⟨he, -⟩ | hbarred
    · cases he
    · exact hnew (hw.gone (Barred.dead hbarred)).1

/-- **The handshake** gives a ticket that was never dead. -/
theorem admitLocked_burying (u : Purpose) :
    (burying may).Triple i (HeldBy may orderly i fun _ => True) (admitLocked u).run
      fun r => HeldBy may orderly i (Fetched i r) := by
  have herror : ∀ (e : AioError) (w : World), w.lock = some i → HeldBy may orderly i (Fetched i (.error e)) w :=
    fun e w hw => ⟨hw, nofun⟩
  refine .bindE (R := fun _ => HeldBy may orderly i fun _ => True) (pass_burying rfl (fun _ => rfl) fun _ => trivial)
    (fun _ => ?_) fun e w _ hw => herror e w hw.1
  refine .thenE (pass_burying rfl (fun _ => rfl) fun _ => trivial) fun _ => ?_
  refine .bindE (R := fun r => HeldBy may orderly i fun w => ∀ t exp, r = .ok (t, exp) → Fresh i t w) ?_ ?_
    fun e w _ hw => herror e w hw.1
  · refine under_burying rfl (fun _ => rfl) (fun _ _ => trivial) ?_ ?_
    · rintro r w w' hw - h t exp rfl
      rcases step_requestAdmit.mp h with ⟨_, _, hreply, henv, rfl⟩ | ⟨⟨e, he⟩, -⟩
      · cases hreply
        exact hw.fresh henv
      · cases he
    · exact fun r w w' h hw t exp ht => framed_fresh t w w' h (hw t exp ht)
  · rintro ⟨t, exp⟩
    refine .thenE (T := fun _ => HeldBy may orderly i (Fresh i t)) ?_ fun now => ?_
    · refine under_burying rfl (fun _ => rfl) (fun _ _ => trivial) ?_ fun _ => framed_fresh t
      intro now w w' _ hw h
      refine Fresh.step (o := .nowMs) (hw t exp rfl) nofun ?_ h
      rintro s exp now ⟨⟩
    · refine .thenE (T := fun _ => HeldBy may orderly i (Usable i t)) ?_ fun _ => ?_
      · refine under_burying rfl (fun _ => rfl) (fun w hw => ⟨hw.1, hw.2.1⟩) ?_ fun _ => framed_usable t
        intro _ w w' _ hw h
        cases h
        refine ⟨fun hbarred => ?_, .head _⟩
        rcases once_cons.mp hbarred with ⟨he, -⟩ | hbarred
        · cases he
        · exact hw.2.2 hbarred
      · exact .ret fun w _ hw => ⟨hw.1, returns_ok hw.2⟩

/-! ## Sections -/

theorem Op.quiet.ne_enter (h : o.quiet) : o ≠ .enter := by
  rintro rfl
  exact h

theorem Op.quiet.not_receive (h : o.quiet) : o.isReceive = false := by
  cases o with
  | receive => cases h
  | _ => rfl

/-- A section with what nobody undoes meanwhile. -/
theorem withLock_burying {body : Aio α} {P : World → Prop} {Q : Except AioError α → World → Prop}
    (hP : (burying may).Untouched i Op.quiet P) (hQ : ∀ r, (burying may).Untouched i Op.quiet (Q r))
    (hcancelled : may (.registryLock u) = true ∨ may (.lock u) = true → ∀ w, P w → Q (.error .cancelled) w)
    (hbody : (burying may).Triple i (HeldBy may orderly i P) body.run fun r => HeldBy may orderly i (Q r)) :
    (burying may).Triple i P (withLock u body).run Q := by
  have hrelease : ∀ r w, HeldBy may orderly i (Q r) w → (burying may).pre i (.release u (exceptionOf r)) w :=
    fun r w hw => ⟨fun _ => hw.1, trivial⟩
  refine withLock_triple guards_burying (fun _ => ⟨⟨nofun, trivial⟩, ⟨nofun, trivial⟩⟩) hP hcancelled hbody hrelease ?_
    fun r => (hQ r).stable
  exact fun r w w' hinv hw h => hQ r i _ () w w' hinv (hrelease r w hw) h (fun _ => trivial) hw.2

end Sections

/-! ## Functions -/

section Functions

theorem quiet_admitLocked (u : Purpose) : (admitLocked u).run.All Op.quiet := by
  refine Prog.All.bindE ⟨trivial, fun _ => trivial⟩ fun _ => .bindE ⟨trivial, fun _ => trivial⟩ fun _ => ?_
  refine Prog.All.bindE ⟨trivial, fun _ => trivial⟩ fun _ => .bindE ⟨trivial, fun _ => trivial⟩ fun _ => ?_
  exact Prog.All.bindE ⟨trivial, fun _ => trivial⟩ fun _ => trivial

variable {α : Type}

theorem quiet_look {f : Option Bytes → Aio α} (hf : ∀ r, (f r).run.All Op.quiet) :
    (nowMs >>= fun now => cacheGet now >>= f).run.All Op.quiet :=
  .bindE ⟨trivial, fun _ => trivial⟩ fun _ => .bindE ⟨trivial, fun _ => trivial⟩ hf

theorem quiet_withLock {body : Aio α} (hbody : body.run.All Op.quiet) : (withLock u body).run.All Op.quiet := by
  refine Prog.All.bindE ⟨trivial, fun _ => trivial⟩ fun _ => .bindE ⟨trivial, fun _ => trivial⟩ fun _ => ?_
  exact Prog.All.bind hbody fun _ => ⟨trivial, fun _ => trivial⟩

theorem untouched_fetched (r : Except AioError Bytes) : (burying may).Untouched i Op.quiet (Fetched i r) :=
  fun j o a w w' hinv hpre h ho hw =>
    hw.mono fun t => untouched_usable t j o a w w' hinv hpre h fun hj => (ho hj).ne_enter

theorem untouched_true (ok : Op → Prop) : (burying may).Untouched i ok fun _ => True :=
  fun _ _ _ _ _ _ _ _ _ _ => trivial

/-- A section that fetches a ticket. -/
theorem fetch_burying {body : Aio Bytes} (hquiet : body.run.All Op.quiet)
    (hbody : (burying may).Triple i (HeldBy may orderly i fun _ => True) body.run fun r =>
      HeldBy may orderly i (Fetched i r)) (X : Bytes → Prop) :
    (burying may).Triple i (SettledBut i X) (withLock u body).run fun r w => Fetched i r w ∧ SettledBut i X w := by
  have hfetch := withLock_burying (u := u) (untouched_true _) untouched_fetched (fun _ _ _ => nofun) hbody
  refine (hfetch.frame ((quiet_withLock hquiet).mono fun _ => Op.quiet.not_receive) (untouched_settledBut X)).pre ?_
  exact fun w _ hw => ⟨trivial, hw⟩

theorem admitAgent_burying : (burying may).Triple i (Settled i) admitAgent.run fun r w => Fetched i r w ∧ Settled i w :=
  fetch_burying (quiet_admitLocked _) (admitLocked_burying _) _

theorem ticketFor_burying :
    (burying may).Triple i (Settled i) ticketFor.run fun r w => Fetched i r w ∧ Settled i w := by
  refine fetch_burying (quiet_look fun r => ?_) (look_burying fun r => ?_) _
  · cases r with
    | some ticket => exact trivial
    | none => exact quiet_admitLocked _
  · cases r with
    | some ticket => exact .ret fun w _ hw => ⟨hw.1, returns_ok (hw.2.1 ticket rfl)⟩
    | none => exact (admitLocked_burying _).pre fun w _ hw => ⟨hw.1, trivial⟩

theorem refreshTicket_burying (failed : Bytes) :
    (burying may).Triple i (Settled i) (refreshTicket failed).run fun r w => Fetched i r w ∧ Settled i w := by
  refine fetch_burying (quiet_look fun r => ?_) (look_burying fun r => ?_) _
  · cases r.filter (· ≠ failed) with
    | some ticket => exact trivial
    | none => exact Prog.All.bindE ⟨trivial, fun _ => trivial⟩ fun _ => quiet_admitLocked _
  · cases hr : r.filter (· ≠ failed) with
    | some ticket =>
      have hlooked : r = some ticket := (Option.filter_eq_some_iff.mp hr).1
      exact .ret fun w _ hw => ⟨hw.1, returns_ok (hw.2.1 ticket hlooked)⟩
    | none =>
      refine .thenE (T := fun _ => HeldBy may orderly i fun _ => True) ?_ fun _ => admitLocked_burying _
      exact (pass_burying (o := .cacheInvalidate) rfl (fun _ => rfl) fun _ => trivial).pre fun w _ hw => ⟨hw.1, trivial⟩

theorem quiet_drop (failed : Bytes) (r : Option Bytes) :
    (if r = some failed then op .cacheInvalidate else pure () : Aio Unit).run.All Op.quiet := by
  split
  · exact ⟨trivial, fun _ => trivial⟩
  · exact trivial

theorem quiet_invalidateTicket (u : Purpose) (failed : Bytes) : (invalidateTicket u failed).run.All Op.quiet :=
  quiet_withLock (quiet_look (quiet_drop failed))

/-- A ticket that was looked up is dropped, and any other one is gone already. -/
theorem drop_burying (r : Option Bytes) : (burying may).Triple i (HeldBy may orderly i (Looked i r))
      (if r = some t then op .cacheInvalidate else pure () : Aio Unit).run
      fun _ => HeldBy may orderly i fun w => .stored t ∈ w.log → Gone t w := by
  split
  · refine .bind ?_ fun _ => .ret fun w _ hw => hw
    refine under_burying (o := .cacheInvalidate) rfl (fun _ => rfl) (fun _ _ => trivial) ?_ fun _ => ?_
    · intro _ w w' _ _ h
      cases h
      exact fun hstored => ⟨hstored, TicketCache.stale_invalidate⟩
    · exact fun w w' h hw hstored => framed_gone t w w' h (hw ((mem_log_of_aside h rfl).mp hstored))
  · rename_i hr
    exact .ret fun w _ hw => ⟨hw.1, fun hstored => ⟨hstored, hw.2.others t hr⟩⟩

/-- **`_invalidate_ticket`** leaves the ticket gone, unless the task is cancelled before it has the lock. -/
theorem invalidateTicket_burying (u : Purpose) (X : Bytes → Prop) :
    (burying may).Triple i (fun w => Usable i t w ∧ SettledBut i X w) (invalidateTicket u t).run
      fun _ w => (Gone t w ∨ may (.registryLock u) = true ∨ may (.lock u) = true) ∧ SettledBut i X w := by
  have hstored : (burying may).Untouched i Op.quiet fun w => .stored t ∈ w.log :=
    fun _ _ _ _ _ _ _ h _ hw => (log_suffix_of_step h).subset hw
  have hquiet := (quiet_invalidateTicket u t).mono fun _ => Op.quiet.not_receive
  refine (Discipline.Triple.frame ?_ hquiet (untouched_settledBut X)).pre fun w _ hw => ⟨hw.1.2, hw.2⟩
  refine withLock_burying hstored ?_ (fun hmay _ _ => .inr hmay) ?_
  · exact fun _ j o r w w' hinv hpre h ho => Or.imp_left (untouched_gone _ t j o r w w' hinv hpre h ho)
  · refine ((look_burying drop_burying).frame (quiet_look (quiet_drop t)) hstored).mono ?_ ?_
    · exact fun w _ hw => ⟨⟨hw.1, trivial⟩, hw.2⟩
    · exact fun _ w _ hw => ⟨hw.1.1, .inl (hw.1.2 hw.2)⟩

theorem SettledBut.mono {X Y : Bytes → Prop} (h : SettledBut i X w) (hX : ∀ s, X s → Y s) :
    SettledBut i Y w := fun s hs => (h s hs).imp_right (hX s)

/-- The ticket was burned by the request that ends like this. -/
def BurnedBy (rpc : String) (t : Bytes) (r : Except AioError Unit) (s : Bytes) : Prop :=
  s = t ∧ ∃ e, r = .error (.rpc e) ∧ burns rpc e = true

theorem receive_burying (rpc : String) :
    (burying may).Triple i (fun w => Usable i t w ∧ Settled i w) (perform (.receive rpc t))
      fun r w => Usable i t w ∧ SettledBut i (BurnedBy rpc t r) w := by
  refine .perform (fun w _ hw => ⟨nofun, trivial⟩) ?_
    fun r => (untouched_usable t).stable.and (untouched_settledBut _).stable
  intro r w w' hinv hw h
  refine ⟨untouched_usable t i _ r w w' hinv ⟨nofun, trivial⟩ h (fun _ => nofun) hw.1, ?_⟩
  have h : step may orderly i (.receive rpc t) r w = some w' := h
  rintro s ⟨rpc', e, hmem, hburns⟩
  rcases mem_log_of_step h hmem with hmem | hnew
  · have hgone : Gone s w := (hw.2 s ⟨rpc', e, hmem, hburns⟩).resolve_right id
    exact .inl (hgone.step (o := .receive rpc t) trivial h)
  · -- The refusal was received just now.
    rcases r with (e' | _ | text) | _
    · cases hnew
      exact .inr ⟨rfl, e, rfl, hburns⟩
    all_goals cases hnew

/-- **A request** burns no other ticket than its own. -/
theorem sendUnder_burying (rpc : String) :
    (burying may).Triple i (fun w => Usable i t w ∧ Settled i w) (sendUnder rpc t).run
      fun r w => Usable i t w ∧ SettledBut i (BurnedBy rpc t r) w := by
  refine .thenE (T := fun _ w => Usable i t w ∧ Settled i w) ?_ fun r => ?_
  · refine .perform (fun w _ hw => ⟨nofun, hw.1.1⟩) ?_
      fun _ => (untouched_usable t).stable.and (untouched_settledBut _).stable
    intro r w w' hinv hw h
    exact ⟨untouched_usable t i _ r w w' hinv ⟨nofun, hw.1.1⟩ h (fun _ => nofun) hw.1,
      untouched_settledBut _ i _ r w w' hinv ⟨nofun, hw.1.1⟩ h (fun _ => rfl) hw.2⟩
  · cases r with
    | some text => exact .ret fun w _ hw => ⟨hw.1, hw.2.mono nofun⟩
    | none => exact receive_burying rpc

theorem burns_code {e : SeamRpcError} (h : burns rpc e = true) :
    e.code = .unavailable ∨ e.code = .failedPrecondition := by
  simp only [burns, SeamRpcError.isSessionUnavailable, SeamRpcError.isTenantMoving, Bool.and_eq_true, Bool.or_eq_true,
    decide_eq_true_eq] at h
  exact h.2.imp And.left And.left

theorem burns_authorizeRpc (e : SeamRpcError) : burns authorizeRpc e = false := by
  have hnot : replayGuarded.contains authorizeRpc = false := by decide
  rw [burns, hnot, Bool.false_and]

theorem not_burnedBy_of_code {exc : AioError} (h : exc.isUnauthenticated = true) (s : Bytes) :
    ¬BurnedBy rpc t (.error exc) s := by
  rintro ⟨-, e, he, hburns⟩
  cases he
  have hcode : e.code = .unauthenticated := of_decide_eq_true h
  rcases burns_code hburns with hcode' | hcode'
  · cases hcode.symm.trans hcode'
  · cases hcode.symm.trans hcode'

/-- **A burned ticket is forgotten**, unless the task is cancelled on the way. -/
theorem forgetAndRaise_burying (hregistry : may (.registryLock .forget) = false) (hlock : may (.lock .forget) = false)
    (rpc : String) (exc : AioError) :
    (burying may).Triple i (fun w => Usable i t w ∧ SettledBut i (BurnedBy rpc t (.error exc)) w)
      (forgetAndRaise rpc t exc).run fun _ => Settled i := by
  cases exc with
  | cancelled | other => exact .ret fun w _ hw => hw.2.mono nofun
  | rpc e =>
    unfold forgetAndRaise
    dsimp only
    split
    · refine .bindE (R := fun _ => Settled i) ?_ (fun _ => .ret fun _ _ hw => hw) fun _ _ _ hw => hw
      unfold forgetBurnedTicket
      split
      · refine (invalidateTicket_burying .forget _).post ?_
        rintro _ w - ⟨hgone, hw⟩ s hs
        have hgone : Gone t w := by simpa [hregistry, hlock] using hgone
        refine .inl ((hw s hs).elim id ?_)
        rintro ⟨rfl, -⟩
        exact hgone
      · rename_i hburns
        refine .ret fun w _ hw => hw.2.mono ?_
        rintro s ⟨-, e', he, hb⟩
        cases he
        exact hburns hb
    · rename_i hcode
      refine .ret fun w _ hw => hw.2.mono ?_
      rintro s ⟨-, e', he, hb⟩
      cases he
      exact hcode (burns_code hb)

section Calls

variable (hregistry : may (.registryLock .forget) = false) (hlock : may (.lock .forget) = false)

include hregistry hlock in
theorem sendLast_burying (rpc : String) :
    (burying may).Triple i (fun w => Usable i t w ∧ Settled i w) (sendLast rpc t).run fun _ => Settled i :=
  .catchE (sendUnder_burying rpc) (forgetAndRaise_burying hregistry hlock rpc) fun _ _ _ hw => hw.2.mono nofun

/-- First a ticket is fetched. -/
theorem withTicket_burying {fetch : Aio Bytes} {f : Bytes → Aio α}
    (hfetch : (burying may).Triple i (Settled i) fetch.run fun r w => Fetched i r w ∧ Settled i w)
    (hf : ∀ t, (burying may).Triple i (fun w => Usable i t w ∧ Settled i w) (f t).run fun _ => Settled i) :
    (burying may).Triple i (Settled i) (fetch >>= f).run fun _ => Settled i :=
  .bindE hfetch (fun t => (hf t).pre fun _ _ hw => ⟨hw.1 t rfl, hw.2⟩) fun _ _ _ hw => hw.2

theorem authorize_burying : (burying may).Triple i (Settled i) authorize.run fun _ => Settled i := by
  have hsend : ∀ t, (burying may).Triple i (fun w => Usable i t w ∧ Settled i w) (sendUnder authorizeRpc t).run
      fun _ => Settled i := by
    intro t
    refine (sendUnder_burying authorizeRpc).post fun r w _ hw => hw.2.mono ?_
    rintro s ⟨-, e, -, hburns⟩
    cases (burns_authorizeRpc e).symm.trans hburns
  refine withTicket_burying ticketFor_burying fun t => .catchE (hsend t) (fun exc => ?_) fun _ _ _ hw => hw
  split
  · exact withTicket_burying (refreshTicket_burying t) hsend
  · exact .ret fun _ _ hw => hw

include hregistry hlock in
theorem credentialedCall_burying (rpc : String) (retry : Bool) :
    (burying may).Triple i (Settled i) (credentialedCall rpc retry).run fun _ => Settled i := by
  refine withTicket_burying ticketFor_burying fun t => ?_
  refine .catchE (sendUnder_burying rpc) (fun exc => ?_) fun _ _ _ hw => hw.2.mono nofun
  split
  · rename_i hexc
    have hsettled : ∀ w, SettledBut i (BurnedBy rpc t (.error exc)) w → Settled i w :=
      fun w hw => hw.mono (not_burnedBy_of_code hexc)
    split
    · refine .bindE (R := fun _ => Settled i) ?_ (fun _ => .ret fun _ _ hw => hw) fun _ _ _ hw => hw
      exact (invalidateTicket_burying .reject _).post fun _ w _ hw => hsettled w hw.2
    · refine (withTicket_burying (refreshTicket_burying t) fun s => sendLast_burying hregistry hlock rpc).pre ?_
      exact fun w _ hw => hsettled w hw.2
  · exact forgetAndRaise_burying hregistry hlock rpc exc

include hregistry hlock in
/-- Every call leaves no burned ticket behind. -/
theorem runCall_burying (c : Call) : (burying may).Triple i (Settled i) (runCall c).run fun _ => Settled i := by
  cases c with
  | admitAgent => exact withTicket_burying admitAgent_burying fun _ => .ret fun _ _ hw => hw.2
  | authorize => exact authorize_burying
  | signedOnce rpc => exact withTicket_burying ticketFor_burying fun _ => sendLast_burying hregistry hlock rpc
  | credentialedCall rpc retry => exact credentialedCall_burying hregistry hlock rpc retry

include hregistry hlock in
theorem burying_run (task : Task) : (burying may).Triple i (Settled i) task.run fun _ _ => True := by
  refine .bind (R := fun _ => Settled i) (.interp (fun c _ => ?_) (Prog.all_true task)) fun _ => ?_
  · refine .bind (R := fun _ => Settled i) ?_ fun _ => runCall_burying hregistry hlock c
    refine .perform (fun _ _ _ => ⟨nofun, trivial⟩) ?_ fun _ => (untouched_settledBut _).stable
    exact fun r w w' hinv hw h => untouched_settledBut _ i _ r w w' hinv ⟨nofun, trivial⟩ h (fun _ => rfl) hw
  · refine .perform (fun w _ hw => ⟨nofun, ?_⟩) (fun _ _ _ _ _ _ => trivial) fun _ => Discipline.stable_true
    exact fun t ht => (hw t ht).resolve_right id

include hregistry hlock in
/-- **Burned tickets stay dead** where no task is cancelled while it forgets one. -/
theorem stayDead_of_uncancelled {tasks : Nat → Task} {c : Config Res World Unit}
    (h : (client may orderly).Reaches (start tasks) c) : StayDead c.world.log := by
  have hinitial : Buried World.initial := ⟨fun h => absurd h not_once_nil, not_once_nil, nofun, nofun⟩
  have hsettled : ∀ i, Settled i World.initial := by
    rintro i t ⟨_, _, hmem, -⟩
    cases hmem
  exact (Discipline.inv_of_reaches (D := burying may) h hinitial hsettled (fun _ => (untouched_settledBut _).stable)
    fun i => burying_run hregistry hlock (tasks i)).stay

end Calls

end Functions

end Burying

/-! ## Tickets that come back -/

section Revived

variable {may may' : Await → Bool} {env : Surroundings}

/-- Where tasks can be cancelled at more places, they can do what they could. -/
theorem step_mono (hmay : ∀ a, may a = true → may' a = true) {i : Nat} {r : Res o} {w' : World}
    (h : step may env i o r w = some w') : step may' env i o r w = some w' := by
  have hresumes : ∀ {α : Type} {a : Await} {r : Except AioError α}, resumes (may a) r = true →
      resumes (may' a) r = true := by
    intro α a r hr
    rcases r with (_ | _ | _) | _
    · rfl
    · exact hmay a hr
    · rfl
    · rfl
  cases o with
  | enter | finish | release | cacheStore | cacheInvalidate | nowMs | cacheGet | send => exact h
  | cacheAndLock u =>
    obtain ⟨hr, hw⟩ := step_cacheAndLock.mp h
    exact step_cacheAndLock.mpr ⟨fun hc => hmay _ (hr hc), hw⟩
  | acquire u =>
    refine step_acquire.mpr ((step_acquire.mp h).imp_right ?_)
    exact fun ⟨hr, hm, hw⟩ => ⟨hr, hmay _ hm, hw⟩
  | issueChallenge u =>
    obtain ⟨hr, hw⟩ := step_issueChallenge.mp h
    exact step_issueChallenge.mpr ⟨hresumes hr, hw⟩
  | requestAdmit u =>
    refine step_requestAdmit.mpr ((step_requestAdmit.mp h).imp_right ?_)
    exact fun ⟨he, hr, hw⟩ => ⟨he, hresumes hr, hw⟩
  | receive rpc t =>
    refine step_receive.mpr ((step_receive.mp h).imp_right (Or.imp_right ?_))
    exact fun ⟨he, hr, hw⟩ => ⟨he, hresumes hr, hw⟩

def submitVote : String := "/seam.api.v1.SeamCoordination/SubmitVote"

/-- Two votes, and `admit` in between. -/
def votes : Nat → Task
  | 0 | 2 => .call (.credentialedCall submitVote true) fun _ => .ret ()
  | 1 => .call .admitAgent fun _ => .ret ()
  | _ => .ret ()

/-- Task 0 is admitted and sends its vote. -/
def firstVote : List (Nat × ((o : Op) → Res o)) :=
  List.replicate 12 (0, answers 0 none (.ok ([1], 100)) (.ok ()) .granted)

/-- Task 2 finds the ticket in the cache. -/
def secondVote : List (Nat × ((o : Op) → Res o)) :=
  List.replicate 7 (2, answers 6 (some [1]) (.ok ([2], 200)) (.ok ()) .granted)

/-- The vote is refused, and task 0 waits for a lock as given. -/
def refused (wait : Wait) : Nat × ((o : Op) → Res o) :=
  (0, answers 5 none (.ok ([2], 200)) (.error (.rpc .sessionUnavailable)) wait)

/-- A call of `Admit` that fails. -/
def admitFails : Nat × ((o : Op) → Res o) :=
  (1, answers 5 none (.error (.rpc ⟨.internal, none, none⟩)) (.ok ()) .granted)

/-- Task 1 has the lock when task 0 wants to forget the ticket, and task 0 is cancelled while it waits. -/
def cancelledAtLock : List (Nat × ((o : Op) → Res o)) :=
  firstVote ++ List.replicate 3 admitFails ++
    [refused .granted, refused .granted, refused .cancelled, refused .cancelled] ++
    List.replicate 5 admitFails ++ secondVote

/-- Task 0 is cancelled while it waits for the lock of the registry. -/
def cancelledAtRegistry : List (Nat × ((o : Op) → Res o)) :=
  firstVote ++ [refused .granted, refused .cancelled, refused .cancelled] ++ secondVote

/-- A ticket that came back. -/
theorem not_stayDead {i j : Nat} {rpc' : String} {t : Bytes} {e : SeamRpcError} {newer older : List Event}
    (newest : List Event) (hburns : burns rpc e = true) (hmem : .delivered i rpc t (some e) ∈ older) :
    ¬StayDead (.sent j rpc' t :: (newest ++ .entered j :: (newer ++ .finished i :: older))) := by
  have hdead : Dead t (newer ++ .finished i :: older) := ⟨newer, _, older, rfl, i, rfl, rpc, e, hmem, hburns⟩
  intro hstay
  exact hstay ⟨[], _, _, rfl, j, rpc', t, rfl, newest, _, _, rfl, rfl, hdead⟩

/-- What the log has when the second vote is sent, above what it has when task 0 finishes. -/
def secondSent : List Event :=
  [.sent 2 submitVote [1], .released 2 .fetch none ⟨some [1], 80⟩, .clock 6, .entered 2]

/-- And what it has when the refusal has come. -/
def firstRefused (between : List Event) : List Event :=
  .delivered 0 submitVote [1] (some .sessionUnavailable) :: between ++
    [.sent 0 submitVote [1], .released 0 .fetch none ⟨some [1], 80⟩, .stored [1], .clock 0, .admitted [1] 100, .clock 0,
      .clock 0, .entered 0]

theorem revived_of_exec (turns : List (Nat × ((o : Op) → Res o))) (newer between : List Event)
    (h : ((client may orderly).exec turns (start votes)).map (·.world.log) =
      some (secondSent ++ (newer ++ .finished 0 :: firstRefused between))) :
    ∃ c, (client may orderly).Reaches (start votes) c ∧ ¬StayDead c.world.log := by
  obtain ⟨c, hreach, hlog⟩ := System.reaches_of_exec_map _ h
  refine ⟨c, hreach, ?_⟩
  rw [hlog]
  exact not_stayDead [.released 2 .fetch none ⟨some [1], 80⟩, .clock 6] (by decide) (.head _)

theorem revived_at_lock :
    ∃ c, (client (fun a => a = .lock .forget) orderly).Reaches (start votes) c ∧ ¬StayDead c.world.log := by
  refine revived_of_exec cancelledAtLock
    [.finished 1, .released 1 .admitAgent (some (.rpc ⟨.internal, none, none⟩)) ⟨some [1], 80⟩, .clock 5] [.entered 1] ?_
  decide +kernel

theorem revived_at_registry :
    ∃ c, (client (fun a => a = .registryLock .forget) orderly).Reaches (start votes) c ∧ ¬StayDead c.world.log := by
  refine revived_of_exec cancelledAtRegistry [] [] ?_
  decide +kernel

/-- What comes back where tasks can be cancelled at one place, comes back where they can be cancelled there. -/
theorem revived_of_may {a : Await} (ha : may a = true)
    (h : ∃ c, (client (fun b => b = a) orderly).Reaches (start votes) c ∧ ¬StayDead c.world.log) :
    ∃ c, (client may orderly).Reaches (start votes) c ∧ ¬StayDead c.world.log := by
  obtain ⟨c, hreach, hc⟩ := h
  have hmay : ∀ b, decide (b = a) = true → may b = true := by
    intro b hb
    obtain rfl : b = a := of_decide_eq_true hb
    exact ha
  exact ⟨c, hreach.mono (step_mono hmay ·), hc⟩

end Revived

/-- **Burned tickets.** The clock does not go back and the server never repeats a ticket. Whatever the tasks do, no call
that begins after a task with a burned ticket has finished sends a credential under that ticket, just if no task can be
cancelled while it waits for one of the locks to forget a ticket. -/
theorem burned_stay_dead_iff (may : Await → Bool) :
    (∀ tasks c, (client may orderly).Reaches (start tasks) c → StayDead c.world.log) ↔
      may (.registryLock .forget) = false ∧ may (.lock .forget) = false := by
  constructor
  · intro hstay
    have hnever : ∀ a, (∃ c, (client (fun b => b = a) orderly).Reaches (start votes) c ∧ ¬StayDead c.world.log) →
        may a = false := by
      intro a hrevived
      by_contra ha
      obtain ⟨c, hreach, hc⟩ := revived_of_may (Bool.eq_true_of_not_eq_false ha) hrevived
      exact hc (hstay votes c hreach)
    exact ⟨hnever _ revived_at_registry, hnever _ revived_at_lock⟩
  · rintro ⟨hregistry, hlock⟩ tasks c h
    exact stayDead_of_uncancelled hregistry hlock h

/-- Where a task can be cancelled at any await, a burned ticket comes back: it is cancelled while another task has the
lock, and that task leaves the ticket in the cache. -/
theorem burned_ticket_revived :
    ∃ c, (client (fun _ => true) orderly).Reaches (start votes) c ∧ ¬StayDead c.world.log :=
  revived_of_may rfl revived_at_lock

end SeamSdk.AioClient
