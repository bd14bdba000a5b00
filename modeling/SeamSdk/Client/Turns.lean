import SeamSdk.Client.Tickets

/-!
# Turns of the blocking client

What one operation of a thread does to lock, cache and log, and the rules that follow for programs.

- `frame_of_step`: while a thread has the lock, the others leave the cache and the admissions alone;
- `log_of_step`: an operation notes one event at most;
- `perform_plain`, `withLock_triple`: an operation under the lock, and a locked section.
-/

namespace SeamSdk

open ByteCodec Threads Ledger

namespace Ledger

/-- The events the others leave. -/
def Event.underLock : Event → Bool
  | .admitted _ _ | .stored _ _ _ | .dropped _ => true
  | _ => false

/-- The thread whose own history an event belongs to. -/
def Event.by : Event → Option Nat
  | .answered i _ _ _ => some i
  | .marked i _ => some i
  | _ => none

end Ledger

namespace PyClient

/-! ## What a turn does -/

theorem note_eq_some {env : Surroundings} {e : Event} {w w' : World} :
    note env e w = some w' ↔ env w.log e = true ∧ w' = { w with log := e :: w.log } := by
  unfold note
  rw [Option.ite_none_right_eq_some, Option.some.injEq, @eq_comm _ w']

/-- The operations a thread does with or without the lock. -/
def Op.plain : Op → Bool
  | .acquire | .release | .cacheStore _ _ _ | .cacheInvalidate | .requestAdmit => false
  | _ => true

/-- Lock and cache are as before, and nothing was noted that takes the lock. -/
structure Frame (w w' : World) : Prop where
  lock : w'.lock = w.lock
  cache : w'.cache = w.cache
  log : ∃ new, w'.log = new ++ w.log ∧ ∀ e ∈ new, e.underLock = false

theorem Frame.refl (w : World) : Frame w w := ⟨rfl, rfl, [], rfl, by simp⟩

theorem Frame.note {e : Event} (he : e.underLock = false) (w : World) : Frame w { w with log := e :: w.log } :=
  ⟨rfl, rfl, [e], rfl, by simpa using he⟩

variable {env : Surroundings} {i j : Nat} {o : Op} {r : Res o} {w w' : World}

theorem step_acquire {r : Res .acquire} :
    step env i .acquire r w = some w' ↔ w.lock = none ∧ w' = { w with lock := some i } := by
  unfold step
  rw [Option.ite_none_right_eq_some, Option.some.injEq, @eq_comm _ w']

theorem step_cacheGet {now : Int} {r : Option Bytes} :
    step env i (.cacheGet now) r w = some w' ↔ r = w.cache.get now ∧
      ((r = none ∧ w' = w) ∨ ∃ t, r = some t ∧ env w.log (.got i now t) = true ∧
        w' = { w with log := .got i now t :: w.log }) := by
  cases r with
  | none =>
    refine Option.ite_none_right_eq_some.trans ?_
    simp [@eq_comm _ w']
  | some t =>
    refine Option.ite_none_right_eq_some.trans ?_
    simp [note_eq_some]

theorem step_cacheInvalidate {r : Res .cacheInvalidate} : step env i .cacheInvalidate r w = some w' ↔
      (w.cache.ticket = none ∧ w' = { w with cache := .invalidate }) ∨
      ∃ t, w.cache.ticket = some t ∧ env w.log (.dropped t) = true ∧
        w' = { w with cache := .invalidate, log := .dropped t :: w.log } := by
  obtain ⟨lock, ⟨ticket, refreshAtMs⟩, log⟩ := w
  cases ticket with
  | none =>
    show some _ = some w' ↔ _
    simp [@eq_comm _ w']
  | some t =>
    refine note_eq_some.trans ?_
    simp

theorem step_requestAdmit {r : Except SeamRpcError (Bytes × Int)} : step env i .requestAdmit r w = some w' ↔
      ((∃ e, r = .error e) ∧ w' = w) ∨
      ∃ t exp, r = .ok (t, exp) ∧ env w.log (.admitted t exp) = true ∧
        w' = { w with log := .admitted t exp :: w.log } := by
  cases r with
  | error e =>
    show some w = some w' ↔ _
    simp [@eq_comm _ w']
  | ok a =>
    refine note_eq_some.trans ?_
    simp [Prod.ext_iff]

/-- Such an operation changes neither lock nor cache. -/
theorem frame_of_plain (ho : o.plain = true) (h : step env i o r w = some w') : Frame w w' := by
  cases o with
  | acquire | release | cacheStore | cacheInvalidate | requestAdmit => cases ho
  | issueChallenge | sleep | random =>
    cases h
    exact .refl w
  | nowMs | send | mark =>
    obtain ⟨-, rfl⟩ := note_eq_some.mp h
    exact .note rfl w
  | cacheGet now =>
    rcases (step_cacheGet.mp h).2 with ⟨-, rfl⟩ | ⟨t, -, -, rfl⟩
    · exact .refl _
    · exact .note rfl w

/-- What an operation makes of the cache. -/
def Op.cacheAfter : Op → TicketCache → TicketCache
  | .cacheStore t exp now, _ => .store t exp now
  | .cacheInvalidate, _ => .invalidate
  | _, cache => cache

theorem cache_of_step (h : step env i o r w = some w') : w'.cache = o.cacheAfter w.cache := by
  cases o with
  | acquire =>
    obtain ⟨-, rfl⟩ := step_acquire.mp h
    rfl
  | release =>
    cases h
    rfl
  | cacheStore =>
    obtain ⟨-, rfl⟩ := note_eq_some.mp h
    rfl
  | cacheInvalidate => rcases step_cacheInvalidate.mp h with ⟨-, rfl⟩ | ⟨t, -, -, rfl⟩ <;> rfl
  | requestAdmit => rcases step_requestAdmit.mp h with ⟨-, rfl⟩ | ⟨t, exp, -, -, rfl⟩ <;> rfl
  | _ => exact (frame_of_plain rfl h).cache

/-- While a thread has the lock, the others leave lock, cache and admissions alone. -/
theorem frame_of_step (h : step env j o r w = some w') (hj : o.plain = false → o ≠ .acquire → w.lock = some j)
    (hi : w.lock = some i) (hne : j ≠ i) : Frame w w' := by
  have hacquire : o ≠ .acquire := by
    rintro rfl
    have hfree := (step_acquire.mp h).1
    rw [hi] at hfree
    cases hfree
  refine frame_of_plain ?_ h
  by_contra ho
  have hlock := hj (by simpa using ho) hacquire
  rw [hi, Option.some.injEq] at hlock
  exact hne hlock.symm

/-- A turn notes one event at most; an event of a thread's own history is a mark or an answer of that thread. -/
theorem log_of_step (h : step env i o r w = some w') :
    w'.log = w.log ∨ ∃ e, w'.log = e :: w.log ∧ (e.by = none ∨ (∃ m, o = .mark m ∧ e = .marked i m) ∨
      ∃ rpc t error, o = .send rpc t ∧ e = .answered i rpc t error) := by
  cases o with
  | acquire =>
    obtain ⟨-, rfl⟩ := step_acquire.mp h
    exact .inl rfl
  | release | issueChallenge | sleep | random =>
    cases h
    exact .inl rfl
  | nowMs | cacheStore =>
    obtain ⟨-, rfl⟩ := note_eq_some.mp h
    exact .inr ⟨_, rfl, .inl rfl⟩
  | mark m =>
    obtain ⟨-, rfl⟩ := note_eq_some.mp h
    exact .inr ⟨_, rfl, .inr (.inl ⟨m, rfl, rfl⟩)⟩
  | send rpc t =>
    obtain ⟨-, rfl⟩ := note_eq_some.mp h
    exact .inr ⟨_, rfl, .inr (.inr ⟨rpc, t, _, rfl, rfl⟩)⟩
  | cacheGet =>
    rcases (step_cacheGet.mp h).2 with ⟨-, rfl⟩ | ⟨t, -, -, rfl⟩
    · exact .inl rfl
    · exact .inr ⟨_, rfl, .inl rfl⟩
  | cacheInvalidate =>
    rcases step_cacheInvalidate.mp h with ⟨-, rfl⟩ | ⟨t, -, -, rfl⟩
    · exact .inl rfl
    · exact .inr ⟨_, rfl, .inl rfl⟩
  | requestAdmit =>
    rcases step_requestAdmit.mp h with ⟨-, rfl⟩ | ⟨t, exp, -, -, rfl⟩
    · exact .inl rfl
    · exact .inr ⟨_, rfl, .inl rfl⟩

/-- The log only grows. -/
theorem log_suffix_of_step (h : step env i o r w = some w') : w.log <:+ w'.log := by
  rcases log_of_step h with heq | ⟨e, heq, -⟩
  · exact heq ▸ List.suffix_refl _
  · exact heq ▸ List.suffix_cons _ _

theorem Frame.admissions (h : Frame w w') : admissions w'.log = admissions w.log := by
  obtain ⟨new, hlog, hnew⟩ := h.log
  rw [hlog]
  clear hlog
  induction new with
  | nil => rfl
  | cons e new ih =>
    have he : ∀ t exp, e ≠ .admitted t exp := by
      rintro t exp rfl
      cases hnew _ (.head _)
    rw [List.cons_append, admissions_cons he, ih fun e he => hnew e (.tail _ he)]

theorem Frame.mem_log (h : Frame w w') {e : Event} (he : e.underLock = true) : e ∈ w'.log ↔ e ∈ w.log := by
  obtain ⟨new, hlog, hnew⟩ := h.log
  rw [hlog, List.mem_append, or_iff_right]
  intro hmem
  rw [hnew e hmem] at he
  cases he

theorem Frame.suffix (h : Frame w w') : w.log <:+ w'.log := by
  obtain ⟨new, hlog, -⟩ := h.log
  exact ⟨new, hlog.symm⟩

/-! ## Facts that last -/

/-- What a larger log leaves true. -/
def Lasting (A : World → Prop) : Prop := ∀ w w', w.log <:+ w'.log → A w → A w'

/-- What the others leave true while a thread has the lock. -/
def Framed (A : World → Prop) : Prop := ∀ w w', Frame w w' → A w → A w'

/-- Thread `i` has the lock, and `A` holds. -/
def Held (i : Nat) (A : World → Prop) (w : World) : Prop := w.lock = some i ∧ A w

theorem Lasting.framed {A : World → Prop} (hA : Lasting A) : Framed A := fun w w' h => hA w w' h.suffix

theorem Lasting.and {A B : World → Prop} (hA : Lasting A) (hB : Lasting B) : Lasting fun w => A w ∧ B w :=
  fun w w' h hw => ⟨hA w w' h hw.1, hB w w' h hw.2⟩

theorem Framed.and {A B : World → Prop} (hA : Framed A) (hB : Framed B) : Framed fun w => A w ∧ B w :=
  fun w w' h hw => ⟨hA w w' h hw.1, hB w w' h hw.2⟩

section Rules

variable {D : Discipline (client env)} {A : World → Prop} {Q : Res o → World → Prop}

/-- The lock is kept: what is done under it is done by the thread that has it. -/
def KeepsLock (D : Discipline (client env)) : Prop :=
  ∀ j o w, D.pre j o w → o.plain = false → o ≠ .acquire → w.lock = some j

theorem Lasting.untouched (hA : Lasting A) (ok : Op → Prop) : D.Untouched i ok A :=
  fun _ _ _ w w' _ _ h _ hw => hA w w' (log_suffix_of_step h) hw

theorem Lasting.stable (hA : Lasting A) : D.Stable i A := (hA.untouched fun _ => True).stable

theorem Framed.stable (hD : KeepsLock D) (hA : Framed A) : D.Stable i (Held i A) := by
  intro w w' h hw
  obtain ⟨-, j, hne, o, r, hpre, hstep⟩ := h
  have hframe := frame_of_step hstep (hD j o w hpre) hw.1 hne
  exact ⟨hframe.lock.trans hw.1, hA w w' hframe hw.2⟩

theorem perform_spec (hpre : ∀ w, D.inv w → A w → D.pre i o w)
    (hstep : ∀ r w w', D.inv w → A w → step env i o r w = some w' → Q r w') (hstable : ∀ r, D.Stable i (Q r)) :
    D.Triple i A (Client.perform o) Q :=
  .perform hpre hstep hstable

/-- An operation under the lock that changes neither lock nor cache. -/
theorem perform_plain (hD : KeepsLock D) (ho : o.plain = true) (hA : Framed A)
    (hpre : ∀ w, D.inv w → Held i A w → D.pre i o w)
    (hstep : ∀ r w w', D.inv w → Held i A w → step env i o r w = some w' → Q r w') (hQ : ∀ r, Framed (Q r)) :
    D.Triple i (Held i A) (Client.perform o) fun r => Held i fun w => A w ∧ Q r w := by
  refine perform_spec hpre ?_ fun r => (hA.and (hQ r)).stable hD
  intro r w w' hw hP h
  have hframe := frame_of_plain ho h
  exact ⟨hframe.lock.trans hP.1, hA w w' hframe hP.2, hstep r w w' hw hP h⟩

/-- The challenge is answered under the lock. -/
theorem presentation_held (hD : KeepsLock D) (hchallenge : ∀ w, D.pre i .issueChallenge w)
    (hclock : ∀ w, D.pre i .nowMs w) (hA : Framed A) :
    D.Triple i (Held i A) Client.presentation.run fun _ => Held i A := by
  refine .bindE (R := fun _ => Held i A) ?_ ?_ fun _ _ _ h => h
  · refine perform_spec (fun w _ _ => hchallenge w) ?_ fun _ => hA.stable hD
    intro r w w' _ hP h
    cases h
    exact hP
  · intro _
    refine .thenE (T := fun _ => Held i A) ?_ fun _ => .ret fun _ _ h => h
    refine perform_spec (fun w _ _ => hclock w) ?_ fun _ => hA.stable hD
    intro r w w' _ hP h
    have hframe := frame_of_plain rfl h
    exact ⟨hframe.lock.trans hP.1, hA w w' hframe hP.2⟩

/-- A locked section: what the lock gives, and what has to hold when it is given back. -/
theorem withLock_triple {α : Type} {body : Client α} {P R : World → Prop} {B Q : Except SeamRpcError α → World → Prop}
    (hD : KeepsLock D) (hacquire : ∀ w, D.pre i .acquire w)
    (hfound : ∀ w, D.inv w → P w → w.lock = none → R { w with lock := some i }) (hR : Framed R)
    (hbody : D.Triple i (Held i R) body.run fun r => Held i (B r))
    (hrelease : ∀ r w, Held i (B r) w → D.pre i .release w) (hleft : ∀ r w, B r w → Q r { w with lock := none })
    (hQ : ∀ r, D.Stable i (Q r)) : D.Triple i P (Client.withLock body).run Q := by
  refine .bind (R := fun _ => Held i R) ?_ ?_
  · refine perform_spec (fun w _ _ => hacquire w) ?_ fun _ => hR.stable hD
    intro _ w w' hw hP h
    obtain ⟨hfree, rfl⟩ := step_acquire.mp h
    exact ⟨rfl, hfound w hw hP hfree⟩
  · intro _
    refine .bind hbody ?_
    intro r
    refine .bind (R := fun _ => Q r) ?_ fun _ => .ret fun _ _ h => h
    refine perform_spec (fun w _ h => hrelease r w h) ?_ fun _ => hQ r
    intro _ w w' _ hP h
    cases h
    exact hleft r w hP.2

end Rules

end PyClient

end SeamSdk
