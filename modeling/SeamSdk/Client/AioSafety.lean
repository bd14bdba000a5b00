import SeamSdk.Client.AioTurns

/-!
# The cache of the asyncio client under cancellation

Whatever is cancelled, the cache is empty or has a ticket of one reply of `Admit`, with the refresh time that belongs to
it. A refresh drops the rejected ticket before it awaits anything, so a task that is cancelled in it leaves the cache
empty, and a ticket that is cached later is from a later reply.

- `Provenance`, `guarding`: the invariant, and what a task owes to keep it;
- `composed_guarded`: every call pays it, however it is cancelled;
- `cancellation_safe`: the cache and the lock in any run;
- `never_locked_out`: from where it has led, all tasks can come to their ends.
-/

namespace SeamSdk.AioClient

open ByteCodec Threads List
open PyClient (TicketCache refreshPoint)

/-! ## The log since the lock was given back -/

def Event.isReleased : Event → Bool
  | .released _ _ _ _ => true
  | _ => false

variable {w w' : World} {u : Purpose} {o : Op} {e : Event} {r : Res o}

theorem not_released_of_outside (h : e.outside = true) : e.isReleased = false := by
  cases e with
  | released => cases h
  | _ => rfl

theorem not_released_of_noted {i : Nat} {cache : TicketCache} (he : e ∈ o.noted i cache r)
    (ho : ∀ u exc, o ≠ .release u exc) : e.isReleased = false := by
  cases e with
  | released j u exc cache => exact absurd (isOf_of_noted he).1 (ho u exc)
  | _ => rfl

/-- What has happened since the lock was last given back. -/
def recent (log : List Event) : List Event := log.takeWhile (!·.isReleased)

theorem recent_isPrefix (log : List Event) : recent log <+: log := takeWhile_prefix _

theorem recent_cons (he : e.isReleased = false) (log : List Event) : recent (e :: log) = e :: recent log := by
  simp [recent, he]

theorem mem_of_mem_recent {e' : Event} {newer older : List Event} (he' : e'.isReleased = true)
    (he : e ∈ recent (newer ++ e' :: older)) : e ∈ newer := by
  induction newer with
  | nil => simp [recent, he'] at he
  | cons e'' newer ih =>
    cases h : e''.isReleased with
    | true => simp [recent, h] at he
    | false =>
      rw [cons_append, recent_cons h] at he
      rcases mem_cons.mp he with rfl | he
      · exact .head _
      · exact .tail _ (ih he)

/-- The clock was read after `Admit` replied with this ticket. -/
def ReadAfter (t : Bytes) (exp now : Int) (log : List Event) : Prop :=
  ∃ newer older, log = newer ++ .clock now :: older ∧ .admitted t exp ∈ older

section ReadAfter

variable {t : Bytes} {exp now : Int} {log log' : List Event}

theorem ReadAfter.append (h : ReadAfter t exp now log) (new : List Event) : ReadAfter t exp now (new ++ log) := by
  obtain ⟨newer, older, rfl, hmem⟩ := h
  exact ⟨new ++ newer, older, (append_assoc ..).symm, hmem⟩

theorem ReadAfter.of_isPrefix (h : ReadAfter t exp now log) (hlog : log <+: log') : ReadAfter t exp now log' := by
  obtain ⟨newer, older, rfl, hmem⟩ := h
  obtain ⟨oldest, rfl⟩ := hlog
  exact ⟨newer, older ++ oldest, by simp, mem_append_left _ hmem⟩

theorem ReadAfter.admitted (h : ReadAfter t exp now log) : .admitted t exp ∈ log := by
  obtain ⟨newer, older, rfl, hmem⟩ := h
  exact mem_append_right _ (.tail _ hmem)

end ReadAfter

/-! ## The invariant -/

/-- Where the contents of the cache come from. -/
structure Provenance (w : World) : Prop where
  cached : w.cache = .invalidate ∨ ∃ t exp now, t ≠ [] ∧ w.cache = ⟨some t, refreshPoint exp now⟩ ∧
    ReadAfter t exp now w.log
  renewed : ∀ {newer older i u exc}, w.log = newer ++ .released i u exc .invalidate :: older →
    ∀ t, w.cache.ticket = some t → ∃ exp, .admitted t exp ∈ newer
  interrupted : ∀ {i cache}, .released i .refresh (some .cancelled) cache ∈ w.log → cache = .invalidate

theorem Provenance.grow (h : Provenance w) (hcache : w'.cache = w.cache) {new : Option Event}
    (hnew : ∀ e ∈ new, e.isReleased = false) (hlog : w'.log = new.toList ++ w.log) : Provenance w' := by
  refine ⟨?_, ?_, ?_⟩
  · rw [hcache, hlog]
    exact h.cached.imp_right fun ⟨t, exp, now, hne, hc, hread⟩ => ⟨t, exp, now, hne, hc, hread.append _⟩
  · intro newer older i u exc hsplit t ht
    rw [hcache] at ht
    rw [hlog] at hsplit
    cases new with
    | none => exact h.renewed hsplit t ht
    | some e =>
      cases newer with
      | nil =>
        cases (List.cons.inj hsplit).1
        cases hnew _ rfl
      | cons e' newer =>
        obtain ⟨exp, hmem⟩ := h.renewed (List.cons.inj hsplit).2 t ht
        exact ⟨exp, .tail _ hmem⟩
  · intro i cache hmem
    rw [hlog, mem_append] at hmem
    refine h.interrupted (hmem.resolve_left fun hmem => ?_)
    cases hnew _ (Option.mem_toList.mp hmem)

theorem Provenance.store (hw : Provenance w) {t : Bytes} {exp now : Int} (hread : ReadAfter t exp now (recent w.log)) :
    Provenance { w.note (.stored t) with cache := .store t exp now } := by
  refine ⟨?_, ?_, ?_⟩
  · show TicketCache.store t exp now = _ ∨ _
    unfold TicketCache.store
    split
    · exact .inl rfl
    · rename_i hkept
      push Not at hkept
      exact .inr ⟨t, exp, now, hkept.2, rfl, (hread.of_isPrefix (recent_isPrefix _)).append [.stored t]⟩
  · intro newer older j u exc hsplit s hs
    obtain ⟨rfl, -, -⟩ := TicketCache.store_ticket hs
    cases newer with
    | nil => cases hsplit
    | cons e newer =>
      -- The reply is newer than the release, as it came since the lock was last given back.
      have hlog : w.log = newer ++ .released j u exc .invalidate :: older := (List.cons.inj hsplit).2
      have hmem := hread.admitted
      rw [hlog] at hmem
      exact ⟨exp, .tail _ (mem_of_mem_recent rfl hmem)⟩
  · intro j cache hmem
    exact hw.interrupted ((mem_cons.mp hmem).resolve_left nofun)

theorem Provenance.release (hw : Provenance w) {i : Nat} {exc : Option AioError}
    (hempty : u = .refresh → exc = some .cancelled → w.cache = .invalidate) :
    Provenance { w.note (.released i u exc w.cache) with lock := none } := by
  refine ⟨?_, ?_, ?_⟩
  · exact hw.cached.imp_right fun ⟨t, exp, now, hne, hc, hread⟩ =>
      ⟨t, exp, now, hne, hc, hread.append [.released i u exc w.cache]⟩
  · intro newer older j u' exc' hsplit t ht
    cases newer with
    | nil =>
      -- The cache was empty when the lock was given back just now.
      injection hsplit with hhead
      injection hhead with _ _ _ hcache
      have ht : w.cache.ticket = some t := ht
      rw [hcache] at ht
      cases ht
    | cons e newer =>
      obtain ⟨exp, hmem⟩ := hw.renewed (List.cons.inj hsplit).2 t ht
      exact ⟨exp, .tail _ hmem⟩
  · intro j cache hmem
    rcases mem_cons.mp hmem with hhead | hmem
    · injection hhead with _ hu hexc hcache
      rw [hcache]
      exact hempty hu.symm hexc.symm
    · exact hw.interrupted hmem

/-- What a task owes before an operation under the lock. -/
def owes : Op → World → Prop
  | .cacheStore t exp now, w => ReadAfter t exp now (recent w.log)
  | .release u exc, w => u = .refresh → exc = some .cancelled → w.cache = .invalidate
  | _, _ => True

section Guarding

variable {may : Await → Bool} {env : Surroundings} {i : Nat}

theorem Provenance.step (hw : Provenance w) (howes : owes o w) (h : step may env i o r w = some w') :
    Provenance w' := by
  cases o with
  | cacheStore t exp now =>
    cases h
    exact hw.store howes
  | cacheInvalidate =>
    cases h
    refine ⟨.inl rfl, ?_, hw.interrupted⟩
    intro newer older j u exc _ t ht
    cases ht
  | release u exc =>
    cases h
    exact hw.release howes
  | enter | finish | cacheAndLock | acquire | nowMs | cacheGet | issueChallenge | requestAdmit | send | receive =>
    refine hw.grow (cache_of_step h) ?_ (log_of_step h)
    intro e he
    refine not_released_of_noted he ?_
    rintro u exc ⟨⟩

variable (may env) in
def guarding : Discipline (client may env) where
  inv := Provenance
  pre j o w := (o.locked = true → w.lock = some j) ∧ owes o w
  keeps hw howes h := hw.step howes.2 h

theorem guards_guarding : (locking may env).Guards (guarding may env) := fun h ho => h.1 ho

/-! ## Under the lock -/

variable {α β : Type} {A : World → Prop}

/-- What is said of the cache and of what happened since the lock was given back does not change meanwhile. -/
theorem framed_of_recent {B : TicketCache → List Event → Prop}
    (hB : ∀ cache log e, e.isReleased = false → B cache log → B cache (e :: log)) :
    (locking may env).Framed i fun w => B w.cache (recent w.log) := by
  intro w w' h hw
  obtain ⟨hcache, new, hnew, hlog⟩ := aside_cases h
  rw [hcache, hlog]
  cases new with
  | none => exact hw
  | some e =>
    have he := not_released_of_outside (hnew e rfl).1
    rw [Option.toList_some, singleton_append, recent_cons he]
    exact hB _ _ e he hw

/-- An operation under the lock that gives nothing but what is said of the cache and the recent log. -/
theorem under_guarding {B : Res o → World → Prop} (ho : o.locked = true) (hr : ∀ r, o.leavesLocked r = true)
    (howes : ∀ w, A w → owes o w) (hstep : ∀ r w w', A w → step may env i o r w = some w' → B r w')
    (hB : ∀ r, (locking may env).Framed i (B r)) :
    (guarding may env).Triple i (HeldBy may env i A) (Aio.perform o) fun r => HeldBy may env i (B r) :=
  Locking.under guards_guarding ho hr (fun w _ hw => ⟨fun _ => hw.1, howes w hw.2⟩)
    (fun r w w' _ hw => hstep r w w' hw.2) hB

/-- The cache, where it is empty during a refresh. -/
def EmptyIn (u : Purpose) (w : World) : Prop := u = .refresh → w.cache = .invalidate

theorem framed_emptyIn (u : Purpose) : (locking may env).Framed i (EmptyIn u) :=
  framed_of_recent (B := fun cache _ => u = .refresh → cache = .invalidate) fun _ _ _ _ h => h

theorem emptyIn_of_step (ho : o.cacheAfter w.cache = w.cache) (hw : EmptyIn u w) (h : step may env i o r w = some w') :
    EmptyIn u w' := by
  intro hu
  rw [cache_of_step h, ho]
  exact hw hu

/-- What a body leaves behind when it is cancelled. -/
def LeavesIn (u : Purpose) (r : Except AioError α) (w : World) : Prop := r = .error .cancelled → EmptyIn u w

/-- An operation that leaves the cache alone, whatever it answers. -/
theorem pass_guarding (ho : o.locked = true) (hr : ∀ r, o.leavesLocked r = true) (howes : ∀ w, owes o w)
    (hcache : ∀ c, o.cacheAfter c = c) : (guarding may env).Triple i (HeldBy may env i (EmptyIn u)) (Aio.perform o)
      fun _ => HeldBy may env i (EmptyIn u) :=
  under_guarding ho hr (fun w _ => howes w) (fun _ w _ hw h => emptyIn_of_step (hcache w.cache) hw h)
    fun _ => framed_emptyIn u

/-- The reply of `Admit`. -/
def AdmittedIn (u : Purpose) : Except AioError (Bytes × Int) → World → Prop
  | .ok (t, exp), w => .admitted t exp ∈ recent w.log
  | .error _, w => EmptyIn u w

theorem framed_admittedIn (u : Purpose) (r : Except AioError (Bytes × Int)) :
    (locking may env).Framed i (AdmittedIn u r) := by
  cases r with
  | ok reply => exact framed_of_recent (B := fun _ log => .admitted reply.1 reply.2 ∈ log) fun _ _ _ _ h => .tail _ h
  | error e => exact framed_emptyIn u

theorem framed_readAfter (t : Bytes) (exp now : Int) :
    (locking may env).Framed i fun w => ReadAfter t exp now (recent w.log) :=
  framed_of_recent (B := fun _ log => ReadAfter t exp now log) fun _ _ e _ h => h.append [e]

/-- **The handshake.** Until the ticket is stored the cache is not touched. -/
theorem admitLocked_guarding (u : Purpose) :
    (guarding may env).Triple i (HeldBy may env i (EmptyIn u)) (Aio.admitLocked u).run
      fun r => HeldBy may env i (LeavesIn u r) := by
  have hcancelled : ∀ (e : AioError) (w : World), HeldBy may env i (EmptyIn u) w →
      HeldBy may env i (LeavesIn u (.error e : Except AioError Bytes)) w := fun e w hw => ⟨hw.1, fun _ => hw.2⟩
  refine .bindE (R := fun _ => HeldBy may env i (EmptyIn u)) ?_ (fun _ => ?_) fun e w _ => hcancelled e w
  · exact pass_guarding rfl (fun _ => rfl) (fun _ => trivial) fun _ => rfl
  refine .thenE (pass_guarding rfl (fun _ => rfl) (fun _ => trivial) fun _ => rfl) fun _ => ?_
  refine .bindE (R := fun r => HeldBy may env i (AdmittedIn u r)) ?_ ?_ fun e w _ => hcancelled e w
  · refine under_guarding rfl (fun _ => rfl) (fun _ _ => trivial) ?_ (framed_admittedIn u)
    intro r w w' hw h
    rcases step_requestAdmit.mp h with ⟨t, exp, rfl, -, rfl⟩ | ⟨⟨e, rfl⟩, -, rfl⟩
    · show .admitted t exp ∈ recent (.admitted t exp :: w.log)
      rw [recent_cons rfl]
      exact .head _
    · exact hw
  · rintro ⟨t, exp⟩
    refine .thenE (T := fun now => HeldBy may env i fun w => ReadAfter t exp now (recent w.log)) ?_ fun now => ?_
    · refine under_guarding rfl (fun _ => rfl) (fun _ _ => trivial) ?_ (framed_readAfter t exp)
      intro now w w' hw h
      obtain ⟨-, rfl⟩ := step_nowMs.mp h
      exact ⟨[], recent w.log, recent_cons rfl w.log, hw⟩
    · refine .thenE (T := fun _ => HeldBy may env i fun _ => True) ?_ fun _ => ?_
      · exact under_guarding rfl (fun _ => rfl) (fun _ hw => hw) (fun _ _ _ _ _ => trivial) fun _ _ _ _ _ => trivial
      · exact .ret fun w _ hw => ⟨hw.1, nofun⟩

/-! ## Functions -/

variable (may env) in
/-- A function that pays what it owes, from wherever it is called. -/
def Guarded (f : Aio α) : Prop := ∀ i, (guarding may env).Triple i (fun _ => True) f.run fun _ _ => True

theorem Guarded.bind {f : Aio α} {g : α → Aio β} (hf : Guarded may env f) (hg : ∀ a, Guarded may env (g a)) :
    Guarded may env (f >>= g) := fun i => .bindE (hf i) (fun a => hg a i) fun _ _ _ _ => trivial

theorem Guarded.catch {f : Aio α} {handler : AioError → Aio α} (hf : Guarded may env f)
    (hhandler : ∀ e, Guarded may env (handler e)) : Guarded may env (tryCatch f handler) :=
  fun i => .catchE (hf i) (fun e => hhandler e i) fun _ _ _ _ => trivial

theorem Guarded.throw (e : AioError) : Guarded may env (throw e : Aio α) := fun _ => .ret fun _ _ _ => trivial

theorem Guarded.pure (a : α) : Guarded may env (pure a : Aio α) := fun _ => .ret fun _ _ _ => trivial

/-- An operation apart from the lock. -/
theorem apart_guarding (ho : o.locked = false) (howes : ∀ w, owes o w) :
    (guarding may env).Triple i (fun _ => True) (Aio.perform o) fun _ _ => True := by
  refine .perform (fun w _ _ => ⟨fun h => ?_, howes w⟩) (fun _ _ _ _ _ _ => trivial) fun _ => Discipline.stable_true
  cases ho.symm.trans h

/-- A section. -/
theorem guarded_withLock {body : Aio α}
    (hbody : ∀ i, (guarding may env).Triple i (HeldBy may env i fun _ => True) body.run
    fun r => HeldBy may env i (LeavesIn u r)) : Guarded may env (Aio.withLock u body) := by
  intro i
  refine withLock_triple guards_guarding (fun _ => ⟨⟨nofun, trivial⟩, ⟨nofun, trivial⟩⟩)
    (fun _ _ _ _ _ _ _ _ _ _ => trivial) (fun _ _ _ => trivial) (hbody i) ?_ (fun _ _ _ _ _ _ => trivial)
    fun _ => Discipline.stable_true
  intro r w hw
  refine ⟨fun _ => hw.1, fun hu hexc => ?_⟩
  cases r with
  | ok a => cases hexc
  | error e =>
    cases hexc
    exact hw.2 rfl hu

/-- A look at the cache. -/
theorem look_guarding {f : Option Bytes → Aio α} {Q : Except AioError α → World → Prop}
    (hf : ∀ r, (guarding may env).Triple i (HeldBy may env i fun _ => True) (f r).run Q) :
    (guarding may env).Triple i (HeldBy may env i fun _ => True)
      (Aio.nowMs >>= fun now => Aio.cacheGet now >>= f).run Q := by
  have hpass : ∀ {o : Op}, o.locked = true → (∀ r, o.leavesLocked r = true) → (∀ w, owes o w) →
      (guarding may env).Triple i (HeldBy may env i fun _ => True) (Aio.perform o)
        fun _ => HeldBy may env i fun _ => True :=
    fun ho hr howes => under_guarding ho hr (fun w _ => howes w) (fun _ _ _ _ _ => trivial) fun _ _ _ _ _ => trivial
  refine .thenE (hpass rfl (fun _ => rfl) fun _ => trivial) fun now => ?_
  exact .thenE (hpass rfl (fun _ => rfl) fun _ => trivial) hf

theorem guarded_ticketFor : Guarded may env Aio.ticketFor := by
  refine guarded_withLock fun i => look_guarding fun r => ?_
  cases r with
  | some ticket => exact .ret fun w _ hw => ⟨hw.1, nofun⟩
  | none => exact (admitLocked_guarding _).pre fun w _ hw => ⟨hw.1, nofun⟩

theorem guarded_admitAgent : Guarded may env Aio.admitAgent :=
  guarded_withLock fun _ => (admitLocked_guarding _).pre fun _ _ hw => ⟨hw.1, nofun⟩

/-- A refresh drops the ticket before it awaits anything. -/
theorem guarded_refreshTicket (failed : Bytes) : Guarded may env (Aio.refreshTicket failed) := by
  refine guarded_withLock fun i => look_guarding fun r => ?_
  cases r.filter (· ≠ failed) with
  | some ticket => exact .ret fun w _ hw => ⟨hw.1, nofun⟩
  | none =>
    refine .thenE (T := fun _ => HeldBy may env i (EmptyIn .refresh)) ?_ fun _ => admitLocked_guarding _
    refine under_guarding rfl (fun _ => rfl) (fun _ _ => trivial) ?_ fun _ => framed_emptyIn _
    intro _ w w' _ h _
    exact cache_of_step h

theorem guarded_invalidateTicket (hu : u ≠ .refresh) (failed : Bytes) :
    Guarded may env (Aio.invalidateTicket u failed) := by
  refine guarded_withLock fun i => look_guarding fun r => ?_
  have hleaves : ∀ (r : Except AioError Unit) (w : World), LeavesIn u r w := fun _ _ _ hrefresh => absurd hrefresh hu
  split
  · refine .bind (R := fun _ => HeldBy may env i fun _ => True) ?_ fun _ => .ret fun w _ hw => ⟨hw.1, hleaves _ w⟩
    exact under_guarding rfl (fun _ => rfl) (fun _ _ => trivial) (fun _ _ _ _ _ => trivial) fun _ _ _ _ _ => trivial
  · exact .ret fun w _ hw => ⟨hw.1, hleaves _ w⟩

/-- Every call pays what it owes. -/
theorem composed_guarded : Composed fun _ => Guarded may env where
  bind := Guarded.bind
  caught := Guarded.catch
  pure := Guarded.pure
  throw := Guarded.throw
  admitAgent := guarded_admitAgent
  ticketFor := guarded_ticketFor
  refreshTicket := guarded_refreshTicket
  invalidateTicket _ := guarded_invalidateTicket
  send _ _ _ := .bind (apart_guarding rfl fun _ => trivial) fun _ => .ret fun _ _ _ => trivial
  receive _ _ _ := apart_guarding rfl fun _ => trivial

theorem guarding_run (t : Task) : (guarding may env).Triple i (fun _ => True) t.run fun _ _ => True := by
  refine .bind (R := fun _ _ => True) ?_ fun _ => apart_guarding rfl fun _ => trivial
  refine .interp (fun c _ => ?_) (Prog.all_true t)
  exact .bind (apart_guarding rfl fun _ => trivial) fun _ => composed_guarded.runCall c i

end Guarding

/-- **Cancellation.** In any run of any tasks, wherever they are cancelled: the cache is empty or has a ticket of one
reply of `Admit`, with the refresh time of that reply. The task that has the lock is not over, and is about to do what
belongs in its section, which it leaves on every way. A task that is cancelled in a refresh gives the lock back with the
cache empty, and what is cached after that is from a later reply. -/
theorem cancellation_safe {may : Await → Bool} {env : Surroundings} {tasks : Nat → Task} {c : Config Res World Unit}
    (h : (client may env).Reaches (start tasks) c) :
    (c.world.cache = .invalidate ∨ ∃ t exp now, t ≠ [] ∧ c.world.cache = ⟨some t, refreshPoint exp now⟩ ∧
      ReadAfter t exp now c.world.log) ∧
    (∀ i, c.world.lock = some i → (∃ o k, c.threads i = .call o k ∧ o.locked = true) ∧
      (locking may env).Sections (fun _ => false) true (c.threads i)) ∧
    ∀ i cache newer older, c.world.log = newer ++ .released i .refresh (some .cancelled) cache :: older →
      cache = .invalidate ∧ ∀ t, c.world.cache.ticket = some t → ∃ exp, .admitted t exp ∈ newer := by
  have hinitial : Provenance World.initial := ⟨.inl rfl, fun hlog => by simp [World.initial] at hlog, nofun⟩
  have hw : Provenance c.world :=
    Discipline.inv_of_reaches h hinitial (fun _ => trivial) (fun _ => Discipline.stable_true)
      fun i => guarding_run (tasks i)
  have hlock := Locking.sections_of_reaches (L := locking may env) h rfl fun i => sections_run (tasks i)
  refine ⟨hw.cached, ?_, ?_⟩
  · intro i hi
    have hsections := hlock i
    rw [show (locking may env).holder c.world = some i from hi, decide_eq_true rfl] at hsections
    refine ⟨?_, hsections⟩
    cases hthread : c.threads i with
    | ret a =>
      rw [hthread] at hsections
      cases hsections
    | call o k =>
      rw [hthread] at hsections
      exact ⟨o, k, rfl, hsections.1.symm⟩
  · intro i cache newer older hlog
    have hempty : cache = .invalidate := hw.interrupted (hlog ▸ List.mem_append_right _ (.head _))
    subst hempty
    exact ⟨rfl, hw.renewed hlog⟩

def oneDecision : Nat → Task
  | 0 => .call (.credentialedCall "/seam.api.v1.SeamCoordination/GetDecision" true) fun _ => .ret ()
  | _ => .ret ()

/-- The ticket is rejected, and the task is cancelled while it awaits another one. -/
def cancelledInRefresh : List (Nat × ((o : Op) → Res o)) :=
  List.replicate 13 (0, answers 0 none (.ok ([1], 100)) (.error (.rpc ⟨.unauthenticated, none, none⟩)) .granted) ++
  List.replicate 10 (0, answers 5 (some [1]) (.error .cancelled) (.ok ()) .granted)

theorem cancellation_safe_cancelledInRefresh :
    ∃ c newer older cache, (client (fun _ => true) fun _ _ => true).Reaches (start oneDecision) c ∧
      c.world.log = newer ++ .released 0 .refresh (some .cancelled) cache :: older ∧ cache = .invalidate ∧
      .admitted [1] 100 ∈ older := by
  have hrun : ((client (fun _ => true) fun _ _ => true).exec cancelledInRefresh (start oneDecision)).map
      (fun c => (c.world.log.take 1, c.world.log[1]?, (c.world.log.drop 2).contains (.admitted [1] 100))) =
      some ([.finished 0], some (.released 0 .refresh (some .cancelled) .invalidate), true) := by decide +kernel
  obtain ⟨c, hreach, hw⟩ := System.reaches_of_exec_map _ hrun
  simp only [Prod.mk.injEq, List.contains_iff_mem] at hw
  obtain ⟨hfirst, hsecond, hadmitted⟩ := hw
  obtain ⟨hlt, hget⟩ := List.getElem?_eq_some_iff.mp hsecond
  have hlog : c.world.log =
      [.finished 0] ++ .released 0 .refresh (some .cancelled) .invalidate :: c.world.log.drop 2 := by
    rw [← hget, ← hfirst, ← List.drop_eq_getElem_cons hlt, List.take_append_drop]
  exact ⟨c, _, _, _, hreach, hlog, ((cancellation_safe hreach).2.2 0 _ _ _ hlog).1, hadmitted⟩

/-! ## The lock is given back -/

variable {may : Await → Bool} {env : Surroundings}

/-- With a clock that can be read, every operation has an answer: a free lock is granted, and a request can fail. -/
theorem serves (hclock : ∀ log, ∃ now, env log (.clock now) = true) : (locking may env).Serves := by
  intro i o w hlock
  cases o with
  | acquire u => exact ⟨Wait.granted, _, if_pos hlock⟩
  | nowMs =>
    obtain ⟨now, hnow⟩ := hclock w.log
    exact ⟨now, _, if_pos hnow⟩
  | cacheGet now => exact ⟨w.cache.get now, w, if_pos rfl⟩
  | requestAdmit u => exact ⟨.error (.other ""), w, rfl⟩
  | cacheAndLock u => exact ⟨Wait.granted, w, rfl⟩
  | send rpc t => exact ⟨none, _, rfl⟩
  | issueChallenge | receive => exact ⟨.ok (), _, rfl⟩
  | enter | finish | release | cacheStore | cacheInvalidate => exact ⟨(), _, rfl⟩

/-- **No task is locked out.** Wherever a run has led, and whichever tasks were cancelled on the way, it can go on until
the first `n` tasks are over and the lock is free. -/
theorem never_locked_out (hclock : ∀ log, ∃ now, env log (.clock now) = true) {tasks : Nat → Task}
    {c : Config Res World Unit} (h : (client may env).Reaches (start tasks) c) (n : Nat) :
    ∃ c', (client may env).Reaches c c' ∧ c'.world.lock = none ∧ ∀ i < n, c'.threads i = .ret () := by
  have hkept := Locking.sections_of_reaches (L := locking may env) h rfl fun i => sections_run (tasks i)
  obtain ⟨c', hreach, -, hfree, hover⟩ := hkept.finish_all (serves hclock) n
  exact ⟨c', hreach, hfree, fun i hi => (hover i hi).choose_spec⟩

/-- The refresh of `cancelledInRefresh`, stopped while the task has the lock. -/
theorem never_locked_out_cancelledInRefresh :
    ∃ c c', (client (fun _ => true) fun _ _ => true).Reaches (start oneDecision) c ∧ c.world.lock = some 0 ∧
      (client (fun _ => true) fun _ _ => true).Reaches c c' ∧ c'.world.lock = none ∧ ∀ i < 2, c'.threads i = .ret () := by
  have hrun : ((client (fun _ => true) fun _ _ => true).exec (cancelledInRefresh.take 18) (start oneDecision)).map
      (fun c => c.world.lock) = some (some 0) := by decide +kernel
  obtain ⟨c, hreach, hlock⟩ := System.reaches_of_exec_map _ hrun
  obtain ⟨c', hreach', hfree, hover⟩ := never_locked_out (fun _ => ⟨0, rfl⟩) hreach 2
  exact ⟨c, c', hreach, hlock, hreach', hfree, hover⟩

end SeamSdk.AioClient
