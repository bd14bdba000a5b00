import SeamSdk.Client.AioTickets

/-!
# Turns of tasks

What one operation of the asyncio client does to lock, cache and log, and that tasks keep to the sections of the lock
however they are cancelled.

- `world_of_step`, `isOf_of_noted`: what a turn does, and what an event tells of the turn it was noted in;
- `locking`: what is done under the lock;
- `sections_run`: a task leaves no section without giving the lock back;
- `aside_cases`: what the other tasks can do meanwhile;
- `withLock_triple`: a section, under any discipline that goes with the lock.
-/

namespace SeamSdk.AioClient

open ByteCodec Threads Aio
open PyClient (TicketCache)

/-! ## Under the lock -/

/-- What is done only under the lock. -/
def Op.locked : Op → Bool
  | .release _ _ | .nowMs | .cacheGet _ | .cacheStore _ _ _ | .cacheInvalidate | .issueChallenge _
  | .requestAdmit _ => true
  | .enter | .finish | .cacheAndLock _ | .acquire _ | .send _ _ | .receive _ _ => false

/-- Whether the task has the lock after this answer. -/
def Op.leavesLocked : (o : Op) → Res o → Bool
  | .acquire _, r => r = .granted
  | .release _ _, _ => false
  | o, _ => o.locked

variable {u : Purpose}

section Step

variable {may : Await → Bool} {env : Surroundings} {i : Nat} {o : Op} {r : Res o} {w w' : World}

private theorem guarded_eq_some {p : Prop} [Decidable p] {a b : World} :
    (if p then some a else none) = some b ↔ p ∧ b = a := by
  rw [Option.ite_none_right_eq_some, Option.some_inj, eq_comm]

private theorem some_eq_some {a b : World} : some a = some b ↔ b = a := Option.some_inj.trans eq_comm

theorem step_acquire {r : Wait} : step may env i (.acquire u) r w = some w' ↔
    (r = .granted ∧ w.lock = none ∧ w' = { w with lock := some i }) ∨
      (r = .cancelled ∧ may (.lock u) = true ∧ w' = w) := by
  cases r with
  | granted | cancelled =>
    refine guarded_eq_some.trans ?_
    simp

theorem step_cacheAndLock {r : Wait} : step may env i (.cacheAndLock u) r w = some w' ↔
    (r = .cancelled → may (.registryLock u) = true) ∧ w' = w := by
  cases r with
  | granted =>
    refine some_eq_some.trans ?_
    simp
  | cancelled =>
    refine guarded_eq_some.trans ?_
    simp

theorem step_nowMs {now : Int} : step may env i .nowMs now w = some w' ↔
    env w.log (.clock now) = true ∧ w' = w.note (.clock now) := guarded_eq_some

theorem step_cacheGet {now : Int} {answer : Option Bytes} : step may env i (.cacheGet now) answer w = some w' ↔
    answer = w.cache.get now ∧ w' = w := guarded_eq_some

theorem step_issueChallenge {r : Except AioError Unit} :
    step may env i (.issueChallenge u) r w = some w' ↔ resumes (may (.challenge u)) r = true ∧ w' = w :=
  guarded_eq_some

theorem step_requestAdmit {r : Except AioError (Bytes × Int)} : step may env i (.requestAdmit u) r w = some w' ↔
      (∃ t exp, r = .ok (t, exp) ∧ env w.log (.admitted t exp) = true ∧ w' = w.note (.admitted t exp)) ∨
        ((∃ e, r = .error e) ∧ resumes (may (.admission u)) r = true ∧ w' = w) := by
  cases r with
  | ok reply =>
    obtain ⟨t, exp⟩ := reply
    refine guarded_eq_some.trans ?_
    simp
  | error e =>
    refine guarded_eq_some.trans ?_
    simp

theorem step_send {rpc : String} {t : Bytes} {r : Option String} : step may env i (.send rpc t) r w = some w' ↔
    (r = none ∧ w' = w.note (.sent i rpc t)) ∨ ((∃ text, r = some text) ∧ w' = w) := by
  cases r with
  | none | some =>
    refine some_eq_some.trans ?_
    simp

theorem step_receive {rpc : String} {t : Bytes} {r : Except AioError Unit} :
    step may env i (.receive rpc t) r w = some w' ↔
      (r = .ok () ∧ w' = w.note (.delivered i rpc t none)) ∨
      (∃ e, r = .error (.rpc e) ∧ w' = w.note (.delivered i rpc t (some e))) ∨
      ((∃ e, r = .error e ∧ ∀ e', e ≠ .rpc e') ∧ resumes (may .reply) r = true ∧ w' = w) := by
  rcases r with (e | _ | text) | _
  · refine some_eq_some.trans ?_
    simp
  · refine guarded_eq_some.trans ?_
    simp
  · refine some_eq_some.trans ?_
    simp [resumes]
  · refine some_eq_some.trans ?_
    simp

/-! ## Lock, cache and log -/

/-- What a task notes outside the lock. -/
def Event.outside : Event → Bool
  | .entered _ | .finished _ | .sent _ _ _ | .delivered _ _ _ _ => true
  | .clock _ | .admitted _ _ | .stored _ | .released _ _ _ _ => false

/-- Who has the lock after an operation. -/
def Op.lockAfter (i : Nat) : (o : Op) → Res o → Option Nat → Option Nat
  | .acquire _, (r : Wait), lock => if r = .granted then some i else lock
  | .release _ _, _, _ => none
  | _, _, lock => lock

def Op.cacheAfter : Op → TicketCache → TicketCache
  | .cacheStore t exp now, _ => .store t exp now
  | .cacheInvalidate, _ => .invalidate
  | _, cache => cache

/-- What is noted of an operation. -/
def Op.noted (i : Nat) (cache : TicketCache) : (o : Op) → Res o → Option Event
  | .enter, _ => some (.entered i)
  | .finish, _ => some (.finished i)
  | .release u exc, _ => some (.released i u exc cache)
  | .nowMs, (now : Int) => some (.clock now)
  | .cacheStore t _ _, _ => some (.stored t)
  | .requestAdmit _, (r : Except AioError (Bytes × Int)) =>
    match r with
    | .ok (t, exp) => some (.admitted t exp)
    | .error _ => none
  | .send rpc t, (r : Option String) =>
    match r with
    | none => some (.sent i rpc t)
    | some _ => none
  | .receive rpc t, (r : Except AioError Unit) =>
    match r with
    | .ok () => some (.delivered i rpc t none)
    | .error (.rpc e) => some (.delivered i rpc t (some e))
    | .error _ => none
  | _, _ => none

/-- The operation that an event is noted of. -/
def Event.IsOf (i : Nat) (o : Op) : Event → Prop
  | .entered j => o = .enter ∧ j = i
  | .finished j => o = .finish ∧ j = i
  | .clock _ => o = .nowMs
  | .admitted _ _ => ∃ u, o = .requestAdmit u
  | .stored t => ∃ exp now, o = .cacheStore t exp now
  | .released j u exc _ => o = .release u exc ∧ j = i
  | .sent j rpc t => o = .send rpc t ∧ j = i
  | .delivered j rpc t _ => o = .receive rpc t ∧ j = i

theorem isOf_of_noted {cache : TicketCache} {e : Event} (h : o.noted i cache r = some e) : e.IsOf i o := by
  cases o with
  | enter | finish | release =>
    cases h
    exact ⟨rfl, rfl⟩
  | nowMs =>
    cases h
    rfl
  | cacheStore t exp now =>
    cases h
    exact ⟨exp, now, rfl⟩
  | requestAdmit u =>
    cases r with
    | ok reply =>
      cases h
      exact ⟨u, rfl⟩
    | error e => cases h
  | send rpc t =>
    cases r with
    | none =>
      cases h
      exact ⟨rfl, rfl⟩
    | some text => cases h
  | receive rpc t =>
    rcases r with (e | _ | _) | _
    · cases h
      exact ⟨rfl, rfl⟩
    · cases h
    · cases h
    · cases h
      exact ⟨rfl, rfl⟩
  | cacheAndLock | acquire | cacheGet | cacheInvalidate | issueChallenge => cases h

variable (h : step may env i o r w = some w')

include h

/-- **What a turn does.** -/
theorem world_of_step :
    w' = ⟨o.lockAfter i r w.lock, o.cacheAfter w.cache, (o.noted i w.cache r).toList ++ w.log⟩ := by
  cases o with
  | enter | finish | release | cacheStore | cacheInvalidate =>
    cases h
    rfl
  | cacheAndLock u =>
    obtain ⟨-, rfl⟩ := step_cacheAndLock.mp h
    rfl
  | acquire u =>
    rcases step_acquire.mp h with ⟨rfl, -, rfl⟩ | ⟨rfl, -, rfl⟩
    · rfl
    · rfl
  | nowMs =>
    obtain ⟨-, rfl⟩ := step_nowMs.mp h
    rfl
  | cacheGet now =>
    obtain ⟨-, rfl⟩ := step_cacheGet.mp h
    rfl
  | issueChallenge u =>
    obtain ⟨-, rfl⟩ := step_issueChallenge.mp h
    rfl
  | requestAdmit u =>
    rcases step_requestAdmit.mp h with ⟨t, exp, rfl, -, rfl⟩ | ⟨⟨e, rfl⟩, -, rfl⟩
    · rfl
    · rfl
  | send rpc t =>
    rcases step_send.mp h with ⟨rfl, rfl⟩ | ⟨⟨text, rfl⟩, rfl⟩
    · rfl
    · rfl
  | receive rpc t =>
    rcases step_receive.mp h with ⟨rfl, rfl⟩ | ⟨e, rfl, rfl⟩ | ⟨⟨e, rfl, he⟩, -, rfl⟩
    · rfl
    · rfl
    · cases e with
      | rpc e => exact absurd rfl (he e)
      | cancelled | other => rfl

theorem cache_of_step : w'.cache = o.cacheAfter w.cache :=
  congrArg World.cache (world_of_step h)

theorem log_of_step : w'.log = (o.noted i w.cache r).toList ++ w.log :=
  congrArg World.log (world_of_step h)

theorem lock_of_step : w'.lock = o.lockAfter i r w.lock :=
  congrArg World.lock (world_of_step h)

/-- The log only grows. -/
theorem log_suffix_of_step : w.log <:+ w'.log :=
  log_of_step h ▸ List.suffix_append _ _

end Step

/-! ## Sections -/

section Sections

variable (may : Await → Bool) (env : Surroundings)

def locking : Locking (client may env) where
  holder := World.lock
  before := Op.locked
  after := Op.leavesLocked
  takes {i o r w w'} ho hr h := by
    cases o with
    | acquire u =>
      have h : step may env i (.acquire u) r w = some w' := h
      rcases step_acquire.mp h with ⟨-, hfree, rfl⟩ | ⟨rfl, -, -⟩
      · exact ⟨hfree, rfl⟩
      · cases hr
    | enter | finish | cacheAndLock | send | receive => cases hr
    | release | nowMs | cacheGet | cacheStore | cacheInvalidate | issueChallenge | requestAdmit => cases ho
  gives {i o r w w'} ho hr h := by
    rw [lock_of_step h]
    cases o with
    | release u exc => rfl
    | enter | finish | cacheAndLock | acquire | send | receive => cases ho
    | nowMs | cacheGet | cacheStore | cacheInvalidate | issueChallenge | requestAdmit => cases hr
  keeps {i o r w w'} heq h := by
    rw [lock_of_step h]
    cases o with
    | acquire u =>
      cases r with
      | granted => cases heq
      | cancelled => rfl
    | release => cases heq
    | _ => rfl

/-- Task `i` has the lock, and `A` holds. -/
abbrev HeldBy (i : Nat) (A : World → Prop) : World → Prop := (locking may env).Held i A

variable {may env}

/-- What the other tasks can do while task `i` has the lock. -/
theorem aside_cases {i : Nat} {w w' : World} (h : (locking may env).Aside i w w') :
    w'.cache = w.cache ∧ ∃ new : Option Event, (∀ e ∈ new, e.outside = true ∧ e ≠ .entered i) ∧
      w'.log = new.toList ++ w.log := by
  obtain ⟨j, o, r, hne, ho, hr, hstep⟩ := h
  refine ⟨?_, o.noted j w.cache r, ?_, log_of_step hstep⟩
  · rw [cache_of_step hstep]
    cases o with
    | cacheStore | cacheInvalidate => cases ho
    | _ => rfl
  · intro e he
    have hof := isOf_of_noted he
    cases e with
    | entered k =>
      obtain ⟨-, rfl⟩ := hof
      exact ⟨rfl, by simpa using hne⟩
    | finished | sent | delivered => exact ⟨rfl, nofun⟩
    | clock =>
      cases hof
      cases ho
    | admitted =>
      obtain ⟨u, rfl⟩ := hof
      cases ho
    | stored =>
      obtain ⟨exp, now, rfl⟩ := hof
      cases ho
    | released =>
      obtain ⟨rfl, -⟩ := hof
      cases ho

variable (may env) in
/-- A function that begins and ends without the lock. -/
def Apart {α : Type} (f : Aio α) : Prop := (locking may env).Sections (fun _ => false) false f.run

variable (may env) in
/-- A function that begins and ends with the lock. -/
def Inside {α : Type} (f : Aio α) : Prop := (locking may env).Sections (fun _ => true) true f.run

section Functions

variable {α β : Type}

variable {f : Aio α}

theorem Apart.bind {g : α → Aio β} (hf : Apart may env f) (hg : ∀ a, Apart may env (g a)) : Apart may env (f >>= g) :=
  Locking.Sections.bindE hf hg fun _ => rfl

theorem Apart.catch {handler : AioError → Aio α} (hf : Apart may env f) (hhandler : ∀ e, Apart may env (handler e)) :
    Apart may env (tryCatch f handler) :=
  Locking.Sections.catchE hf hhandler fun _ => rfl

theorem Inside.bind {g : α → Aio β} (hf : Inside may env f) (hg : ∀ a, Inside may env (g a)) :
    Inside may env (f >>= g) :=
  Locking.Sections.bindE hf hg fun _ => rfl

theorem inside_nowMs : Inside may env nowMs := ⟨rfl, fun _ => rfl⟩

theorem inside_look {f : Option Bytes → Aio α} (hf : ∀ r, Inside may env (f r)) :
    Inside may env (nowMs >>= fun now => cacheGet now >>= f) :=
  inside_nowMs.bind fun _ => Inside.bind ⟨rfl, fun _ => rfl⟩ hf

theorem inside_admitLocked (u : Purpose) : Inside may env (admitLocked u) := by
  refine Inside.bind ⟨rfl, fun _ => rfl⟩ fun _ => inside_nowMs.bind fun _ => Inside.bind ⟨rfl, fun _ => rfl⟩ ?_
  exact fun _ => inside_nowMs.bind fun _ => Inside.bind ⟨rfl, fun _ => rfl⟩ fun _ => rfl

/-- The lock is given back on every way out. -/
theorem apart_withLock {body : Aio α} (hbody : Inside may env body) : Apart may env (withLock u body) := by
  have hreleasing : (locking may env).Sections (fun _ => false) true (releasing u body).run :=
    Locking.Sections.bind hbody fun _ => ⟨rfl, fun _ => rfl⟩
  have hacquire : (locking may env).Sections (fun r => r.isOk) false (acquire u).run := by
    refine ⟨rfl, fun r => ?_⟩
    cases r <;> rfl
  refine Apart.bind ⟨rfl, fun _ => rfl⟩ fun _ => ?_
  exact Locking.Sections.bindE hacquire (fun _ => hreleasing) fun _ => rfl

theorem apart_ticketFor : Apart may env ticketFor := by
  refine apart_withLock (inside_look fun r => ?_)
  cases r with
  | some ticket => rfl
  | none => exact inside_admitLocked _

theorem apart_refreshTicket (failed : Bytes) : Apart may env (refreshTicket failed) := by
  refine apart_withLock (inside_look fun r => ?_)
  cases r.filter (· ≠ failed) with
  | some ticket => rfl
  | none => exact Inside.bind ⟨rfl, fun _ => rfl⟩ fun _ => inside_admitLocked _

theorem apart_invalidateTicket (u : Purpose) (failed : Bytes) : Apart may env (invalidateTicket u failed) := by
  refine apart_withLock (inside_look fun r => ?_)
  split
  · exact ⟨rfl, fun _ => rfl⟩
  · rfl

/-- Functions that fetch, drop and send keep to the sections. -/
theorem composed_apart : Composed fun _ => Apart may env where
  bind := Apart.bind
  caught := Apart.catch
  pure _ := rfl
  throw _ := rfl
  admitAgent := apart_withLock (inside_admitLocked _)
  ticketFor := apart_ticketFor
  refreshTicket := apart_refreshTicket
  invalidateTicket u _ := apart_invalidateTicket u
  send _ _ := ⟨rfl, fun _ => rfl⟩
  receive _ _ := ⟨rfl, fun _ => rfl⟩

end Functions

/-- **A task keeps to the sections of the lock**, however it is cancelled. -/
theorem sections_run (t : Task) : (locking may env).Sections (fun _ => false) false t.run := by
  refine Locking.Sections.bind (R := fun _ => false) ?_ fun _ => ⟨rfl, fun _ => rfl⟩
  induction t with
  | ret _ => rfl
  | call c k ih =>
    refine Locking.Sections.bind (R := fun _ => false) ⟨rfl, fun _ => composed_apart.runCall c⟩ ih

/-! ## A section under a discipline -/

/-- What is done in a section and on the way into it. -/
def Op.quiet : Op → Prop
  | .enter | .finish | .send _ _ | .receive _ _ => False
  | _ => True

/-- A wait that fails only by cancellation, and where the task can be cancelled. -/
def Interrupted (b : Bool) (r : Except AioError Unit) : Prop := ∀ e, r = .error e → e = .cancelled ∧ b = true

theorem interrupted_waited {b : Bool} {r : Wait} (h : r = .cancelled → b = true) : Interrupted b (waited r) := by
  intro e he
  cases r with
  | granted => cases he
  | cancelled =>
    cases he
    exact ⟨rfl, h rfl⟩

section Triples

variable {D : Discipline (client may env)} {i : Nat} {u : Purpose} {P : World → Prop}

theorem cacheAndLock_triple (hfree : ∀ w, D.pre i (.cacheAndLock u) w) (hP : D.Untouched i Op.quiet P) :
    D.Triple i P (cacheAndLock u).run fun r w => P w ∧ Interrupted (may (.registryLock u)) r := by
  refine .bind (R := fun r w => P w ∧ (r = .cancelled → may (.registryLock u) = true)) ?_ ?_
  · refine .perform (fun w _ _ => hfree w) ?_ fun r w w' h hw => ⟨hP.stable w w' h hw.1, hw.2⟩
    intro r w w' _ hw h
    have h : step may env i (.cacheAndLock u) r w = some w' := h
    obtain ⟨hr, rfl⟩ := step_cacheAndLock.mp h
    exact ⟨hw, hr⟩
  · exact fun r => .ret fun w _ hw => ⟨hw.1, interrupted_waited hw.2⟩

theorem acquire_triple (hD : (locking may env).Guards D) (hfree : ∀ w, D.pre i (.acquire u) w)
    (hP : D.Untouched i Op.quiet P) : D.Triple i P (acquire u).run
      fun r w => P w ∧ (r = .ok () → w.lock = some i) ∧ Interrupted (may (.lock u)) r := by
  have hheld : D.Stable i (HeldBy may env i fun _ => True) := Locking.Framed.stable hD fun _ _ _ _ => trivial
  refine .bind (R := fun r w => P w ∧ (r = .granted → w.lock = some i) ∧ (r = .cancelled → may (.lock u) = true)) ?_ ?_
  · refine .perform (fun w _ _ => hfree w) ?_ ?_
    · intro r w w' hinv hw h
      have hw' := hP i _ r w w' hinv (hfree w) h (fun _ => trivial) hw
      have h : step may env i (.acquire u) r w = some w' := h
      rcases step_acquire.mp h with ⟨rfl, -, rfl⟩ | ⟨rfl, hmay, rfl⟩
      · exact ⟨hw', fun _ => rfl, nofun⟩
      · exact ⟨hw', nofun, fun _ => hmay⟩
    · exact fun r w w' h hw => ⟨hP.stable w w' h hw.1, fun hr => (hheld w w' h ⟨hw.2.1 hr, trivial⟩).1, hw.2.2⟩
  · intro r
    refine .ret fun w _ hw => ⟨hw.1, fun hr => ?_, interrupted_waited hw.2.2⟩
    cases r with
    | granted => exact hw.2.1 rfl
    | cancelled => cases hr

variable {α : Type} {body : Aio α} {Q R : Except AioError α → World → Prop}

/-- **A section** is not entered if the task is cancelled before. If it is, the body ends with `Q`, and with `R` when the
lock was given back. -/
theorem withLock_triple (hD : (locking may env).Guards D)
    (hfree : ∀ w, D.pre i (.cacheAndLock u) w ∧ D.pre i (.acquire u) w) (hP : D.Untouched i Op.quiet P)
    (hcancelled : may (.registryLock u) = true ∨ may (.lock u) = true → ∀ w, P w → R (.error .cancelled) w)
    (hbody : D.Triple i (HeldBy may env i P) body.run fun r => HeldBy may env i (Q r))
    (hrelease : ∀ r w, HeldBy may env i (Q r) w → D.pre i (.release u (exceptionOf r)) w)
    (hR : ∀ r w w', D.inv w → HeldBy may env i (Q r) w →
      step may env i (.release u (exceptionOf r)) () w = some w' → R r w')
    (hstable : ∀ r, D.Stable i (R r)) : D.Triple i P (withLock u body).run R := by
  refine .bindE (cacheAndLock_triple (fun w => (hfree w).1) hP) (fun _ => ?_) ?_
  rotate_left
  · rintro e w - ⟨hw, he⟩
    obtain ⟨rfl, hmay⟩ := he e rfl
    exact hcancelled (.inl hmay) w hw
  refine .bindE ((acquire_triple hD (fun w => (hfree w).2) hP).pre fun w _ hw => hw.1) (fun _ => ?_) ?_
  rotate_left
  · rintro e w - ⟨hw, -, he⟩
    obtain ⟨rfl, hmay⟩ := he e rfl
    exact hcancelled (.inr hmay) w hw
  refine .bind (hbody.pre fun w _ hw => ⟨hw.2.1 rfl, hw.1⟩) fun r => ?_
  refine .bind (R := fun _ => R r) ?_ fun _ => .ret fun _ _ hw => hw
  exact .perform (fun w _ hw => hrelease r w hw) (fun _ w w' hinv hw h => hR r w w' hinv hw h) fun _ => hstable r

end Triples

end Sections

end SeamSdk.AioClient
