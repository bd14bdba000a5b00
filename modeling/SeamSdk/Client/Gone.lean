import SeamSdk.Client.Turns

/-!
# Tickets that are gone

A ticket is retired when a call is over that forgot it as burned or refreshed it after a rejection. From then on it is
gone: it is not in the cache, or stale there, and the server does not give it out again (`Gone`).

- `Gone.step`: no operation brings a ticket back, if only a ticket just given out is stored;
- `Retiring.step`: the invariant, of which `Sound` is what the log shows.
-/

namespace SeamSdk

open ByteCodec Threads Ledger List

/-- The ticket of a call that is over: forgotten as burned, or refreshed. -/
def Ledger.Event.retires : Event → Option Bytes
  | .marked _ (.refreshed t) => some t
  | .marked _ (.forgot t) => some t
  | _ => none

namespace PyClient

/-! ## Histories -/

/-- The server never repeats a ticket, and the clock does not go back. -/
def neverRepeats : Surroundings := fun log e => newTicket Event.ticket? log e && onward Event.clock? log e

variable {log : List Event} {i : Nat}

theorem neverRepeats_admitted {t : Bytes} {exp : Int} (h : neverRepeats log (.admitted t exp) = true) :
    t ∉ admissions log := notMem_of_newTicket (Bool.and_eq_true_iff.mp h).1 rfl

theorem neverRepeats_clock {now : Int} (h : neverRepeats log (.clock now) = true) {earlier : Int}
    (he : .clock earlier ∈ log) : earlier ≤ now := le_of_onward (Bool.and_eq_true_iff.mp h).2 rfl he rfl

def retired (log : List Event) : List Bytes := log.filterMap Event.retires

/-- The tickets that were retired when the last fetch of the thread began. -/
def owed (i : Nat) : List Event → List Bytes
  | [] => []
  | e :: log => if e = .marked i .fetching then retired log else owed i log

/-- The tickets sent for guarded writes in each attempt of the retry loop the thread is in, the latest attempt first. -/
def attempts (i : Nat) : List Event → List (List Bytes)
  | [] => []
  | .marked j (.attempt n) :: log =>
    if j = i then if n = 1 then [[]] else [] :: attempts i log
    else attempts i log
  | .answered j rpc t _ :: log =>
    if j = i ∧ rpc ∈ replayGuarded then (attempts i log).modifyHead (t :: ·) else attempts i log
  | _ :: log => attempts i log

theorem owed_cons {e : Event} (h : e ≠ .marked i .fetching) : owed i (e :: log) = owed i log :=
  if_neg h

theorem attempts_cons {e : Event} (h : e.by ≠ some i) : attempts i (e :: log) = attempts i log := by
  cases e with
  | answered j rpc t error => exact if_neg fun hj => h (congrArg some hj.1)
  | marked j m =>
    cases m with
    | attempt n => exact if_neg fun hj => h (congrArg some hj)
    | _ => rfl
  | _ => rfl

/-- What is retired before a fetch begins is still owed when it is over. -/
theorem mem_owed_append {t : Bytes} (h : t ∈ retired log) (new : List Event) :
    t ∈ owed i (new ++ .marked i .fetching :: log) := by
  induction new with
  | nil => simpa [owed] using h
  | cons e new ih =>
    rw [cons_append, owed]
    split
    · refine (List.Sublist.filterMap Event.retires (List.Sublist.trans ?_ (sublist_append_right _ _))).subset h
      exact sublist_cons_self _ _
    · exact ih

/-- What the log shows. -/
structure Sound (log : List Event) : Prop where
  fetched : ∀ i t older, .marked i (.fetched t) :: older <:+ log → t ∉ owed i older
  disjoint : ∀ i, (attempts i log).Pairwise List.Disjoint
  got : ∀ i now t, .got i now t ∈ log → ∃ exp, .admitted t exp ∈ log ∧ now < exp

/-! ## The discipline -/

def Issued (t : Bytes) (w : World) : Prop := ∃ exp n, .stored t exp n ∈ w.log

/-- The readings of the clock. -/
def World.Read (w : World) (now : Int) : Prop := .clock now ∈ w.log

/-- Not in the cache, or stale there. -/
def Stale (t : Bytes) (w : World) : Prop := w.cache.Stale w.Read t

def Gone (t : Bytes) (w : World) : Prop := Issued t w ∧ Stale t w

structure Retiring (w : World) : Prop where
  nodup : (admissions w.log).Nodup
  stored : ∀ t exp n, .stored t exp n ∈ w.log → .admitted t exp ∈ w.log
  cached : ∀ t, w.cache.ticket = some t →
    ∃ exp n, .stored t exp n ∈ w.log ∧ n < exp ∧ w.cache.refreshAtMs = refreshPoint exp n
  retired : ∀ t ∈ retired w.log, Gone t w
  earlier : ∀ i, ∀ a ∈ (attempts i w.log).tail, ∀ t ∈ a, Gone t w
  sound : Sound w.log

/-- When an event may be added to the log. -/
def Due (w : World) : Event → Prop
  | .got _ now t => ∃ exp, .admitted t exp ∈ w.log ∧ now < exp
  | .answered i rpc t _ => rpc ∈ replayGuarded → ∀ a ∈ (attempts i w.log).tail, t ∉ a
  | .marked i (.fetched t) => t ∉ owed i w.log
  | .marked _ (.refreshed t) => Gone t w
  | .marked _ (.forgot t) => Gone t w
  | .marked i (.attempt n) => n = 1 ∨ ∀ t ∈ (attempts i w.log).headD [], Gone t w
  | _ => True

def keeps (i : Nat) : Op → World → Prop
  | .release, w => w.lock = some i
  | .requestAdmit, w => w.lock = some i
  | .cacheStore t exp _, w => w.lock = some i ∧ .admitted t exp ∈ w.log ∧ ¬Issued t w
  | .cacheInvalidate, w => w.lock = some i
  | .send rpc t, w => Due w (.answered i rpc t none)
  | .mark m, w => Due w (.marked i m)
  | _, _ => True

theorem lock_of_keeps {o : Op} {w : World} (h : keeps i o w) (ho : o.plain = false) (hacquire : o ≠ .acquire) :
    w.lock = some i := by
  cases o with
  | acquire => exact absurd rfl hacquire
  | release | requestAdmit | cacheInvalidate => exact h
  | cacheStore => exact h.1
  | _ => cases ho

section Step

variable {i : Nat} {o : Op} {r : Res o} {w w' : World} {t : Bytes}

theorem lasting_issued (t : Bytes) : Lasting (Issued t) := by
  intro w w' h hw
  obtain ⟨exp, n, hstored⟩ := hw
  exact ⟨exp, n, h.subset hstored⟩

theorem framed_stale (t : Bytes) : Framed (Stale t) := by
  intro w w' h hw
  unfold Stale
  rw [h.cache]
  exact hw.mono fun _ hclock => h.suffix.subset hclock

theorem framed_gone (t : Bytes) : Framed (Gone t) := (lasting_issued t).framed.and (framed_stale t)

/-- **No operation brings a ticket back.** -/
theorem Gone.step (hw : Gone t w) (hkeeps : keeps i o w) (h : step neverRepeats i o r w = some w') : Gone t w' := by
  have hlog := log_suffix_of_step h
  refine ⟨lasting_issued t w w' hlog hw.1, ?_⟩
  unfold Stale
  rw [cache_of_step h]
  cases o with
  | cacheStore s exp n => exact TicketCache.stale_store fun heq => hkeeps.2.2 (heq ▸ hw.1)
  | cacheInvalidate => exact TicketCache.stale_invalidate
  | _ => exact hw.2.mono fun _ hclock => hlog.subset hclock

variable {e : Event}

theorem attempts_answered (rpc : String) (t : Bytes) (error : Option SeamRpcError) (log : List Event) :
    attempts i (.answered i rpc t error :: log) =
      if rpc ∈ replayGuarded then (attempts i log).modifyHead (t :: ·) else attempts i log := by
  simp [attempts]

theorem attempts_attempt (n : Nat) (log : List Event) :
    attempts i (.marked i (.attempt n) :: log) = if n = 1 then [[]] else [] :: attempts i log := by
  simp [attempts]

/-- The attempts before the latest one, after an event of the thread itself. -/
theorem tail_attempts_cons {a : List Bytes} (h : a ∈ (attempts i (e :: log)).tail) :
    a ∈ (attempts i log).tail ∨ ∃ n, e = .marked i (.attempt n) ∧ n ≠ 1 ∧ a ∈ attempts i log := by
  by_cases hby : e.by = some i
  · cases e with
    | answered j rpc t error =>
      cases hby
      rw [attempts_answered] at h
      split at h
      · left
        cases hlog : attempts i log with
        | nil => simp [hlog] at h
        | cons b bs => simpa [hlog] using h
      · exact .inl h
    | marked j m =>
      cases hby
      cases m with
      | attempt n =>
        rw [attempts_attempt] at h
        split at h
        · cases h
        · rename_i hn
          exact .inr ⟨n, rfl, hn, h⟩
      | _ => exact .inl h
    | _ => cases hby
  · rw [attempts_cons hby] at h
    exact .inl h

theorem disjoint_attempts_cons (hw : Sound w.log) (hdue : Due w e) :
    (attempts i (e :: w.log)).Pairwise List.Disjoint := by
  by_cases hby : e.by = some i
  · cases e with
    | answered j rpc t error =>
      cases hby
      rw [attempts_answered]
      split
      · rename_i hguarded
        have hpair := hw.disjoint i
        have htail := hdue hguarded
        cases hlog : attempts i w.log with
        | nil => exact .nil
        | cons b bs =>
          rw [hlog] at hpair htail
          obtain ⟨hb, hbs⟩ := pairwise_cons.mp hpair
          refine pairwise_cons.mpr ⟨?_, hbs⟩
          intro c hc
          exact disjoint_cons_left.mpr ⟨htail c hc, hb c hc⟩
      · exact hw.disjoint i
    | marked j m =>
      cases hby
      cases m with
      | attempt n =>
        rw [attempts_attempt]
        split
        · exact pairwise_singleton _ _
        · exact pairwise_cons.mpr ⟨fun _ _ => disjoint_nil_left _, hw.disjoint i⟩
      | _ => exact hw.disjoint i
    | _ => cases hby
  · rw [attempts_cons hby]
    exact hw.disjoint i

theorem Sound.cons (hw : Sound w.log) (hdue : Due w e) : Sound (e :: w.log) where
  fetched i t older h := by
    rcases suffix_cons_iff.mp h with heq | h
    · obtain ⟨rfl, rfl⟩ := List.cons.inj heq
      exact hdue
    · exact hw.fetched i t older h
  disjoint i := disjoint_attempts_cons hw hdue
  got i now t h := by
    rcases mem_cons.mp h with rfl | h
    · obtain ⟨exp, hadmitted, hlt⟩ := hdue
      exact ⟨exp, .tail _ hadmitted, hlt⟩
    · obtain ⟨exp, hadmitted, hlt⟩ := hw.got i now t h
      exact ⟨exp, .tail _ hadmitted, hlt⟩

/-- What is retired after an event was so before, or is gone when the event is due. -/
theorem gone_of_mem_retired (hw : Retiring w) (hdue : Due w e) (ht : t ∈ retired (e :: w.log)) : Gone t w := by
  cases hret : e.retires with
  | none =>
    rw [retired, filterMap_cons_none hret] at ht
    exact hw.retired t ht
  | some s =>
    rw [retired, filterMap_cons_some hret] at ht
    rcases mem_cons.mp ht with rfl | ht
    · cases e with
      | marked j m =>
        cases m with
        | refreshed _ | forgot _ =>
          cases hret
          exact hdue
        | _ => cases hret
      | _ => cases hret
    · exact hw.retired t ht

theorem gone_of_mem_earlier (hw : Retiring w) (hdue : Due w e) {a : List Bytes}
    (ha : a ∈ (attempts i (e :: w.log)).tail) (ht : t ∈ a) : Gone t w := by
  rcases tail_attempts_cons ha with ha | ⟨n, rfl, hn, ha⟩
  · exact hw.earlier i a ha t ht
  · have hhead : ∀ s ∈ (attempts i w.log).headD [], Gone s w := hdue.resolve_left hn
    have htail := hw.earlier i
    cases hlog : attempts i w.log with
    | nil => simp [hlog] at ha
    | cons b bs =>
      rw [hlog] at ha hhead htail
      rcases mem_cons.mp ha with rfl | ha
      · exact hhead t ht
      · exact htail a ha t ht

/-- An event that is due keeps the invariant, whatever it does to the cache. -/
theorem Retiring.cons (hw : Retiring w) (hdue : Due w e) (hlog : w'.log = e :: w.log)
    (hgone : ∀ t, Gone t w → Gone t w') (hnodup : (admissions w'.log).Nodup)
    (hstored : ∀ t exp n, .stored t exp n ∈ w'.log → .admitted t exp ∈ w'.log)
    (hcached : ∀ t, w'.cache.ticket = some t →
      ∃ exp n, .stored t exp n ∈ w'.log ∧ n < exp ∧ w'.cache.refreshAtMs = refreshPoint exp n) : Retiring w' where
  nodup := hnodup
  stored := hstored
  cached := hcached
  retired t ht := hgone t (gone_of_mem_retired hw hdue (hlog ▸ ht))
  earlier _ _ ha t ht := hgone t (gone_of_mem_earlier hw hdue (hlog ▸ ha) ht)
  sound := hlog ▸ hw.sound.cons hdue

/-- An event that leaves the cache alone. -/
theorem Retiring.note (hw : Retiring w) (hdue : Due w e) (he : e.underLock = false) :
    Retiring { w with log := e :: w.log } := by
  have hframe : Frame w { w with log := e :: w.log } := .note he w
  refine hw.cons hdue rfl (fun t => framed_gone t _ _ hframe) ?_ ?_ ?_
  · rw [hframe.admissions]
    exact hw.nodup
  · intro t exp n h
    exact .tail _ (hw.stored t exp n ((hframe.mem_log rfl).mp h))
  · intro t ht
    obtain ⟨exp, n, hstored, hrest⟩ := hw.cached t ht
    exact ⟨exp, n, .tail _ hstored, hrest⟩

/-- **No operation breaks the invariant.** -/
theorem Retiring.step (hw : Retiring w) (hkeeps : keeps i o w) (h : step neverRepeats i o r w = some w') :
    Retiring w' := by
  have hgone : ∀ t, Gone t w → Gone t w' := fun t ht => ht.step hkeeps h
  cases o with
  | acquire =>
    obtain ⟨-, rfl⟩ := step_acquire.mp h
    exact ⟨hw.nodup, hw.stored, hw.cached, hw.retired, hw.earlier, hw.sound⟩
  | release =>
    cases h
    exact ⟨hw.nodup, hw.stored, hw.cached, hw.retired, hw.earlier, hw.sound⟩
  | issueChallenge | sleep | random =>
    cases h
    exact hw
  | nowMs =>
    obtain ⟨-, rfl⟩ := note_eq_some.mp h
    exact hw.note trivial rfl
  | send | mark =>
    obtain ⟨-, rfl⟩ := note_eq_some.mp h
    exact hw.note hkeeps rfl
  | cacheGet now =>
    obtain ⟨hget, ⟨-, rfl⟩ | ⟨t, rfl, -, rfl⟩⟩ := step_cacheGet.mp h
    · exact hw
    · obtain ⟨ht, hlt⟩ := TicketCache.get_eq_some_iff.mp hget.symm
      obtain ⟨exp, n, hstored, hn, hrefresh⟩ := hw.cached t ht
      have hpoint := refreshPoint_lt hn
      exact hw.note ⟨exp, hw.stored t exp n hstored, by omega⟩ rfl
  | cacheStore t exp n =>
    obtain ⟨-, hadmitted, -⟩ := hkeeps
    obtain ⟨-, rfl⟩ := note_eq_some.mp h
    refine hw.cons (e := .stored t exp n) trivial rfl hgone hw.nodup ?_ ?_
    · intro s exp' n' hs
      rcases mem_cons.mp hs with hs | hs
      · cases hs
        exact .tail _ hadmitted
      · exact .tail _ (hw.stored s exp' n' hs)
    · intro s hs
      obtain ⟨rfl, hlt, hrefresh⟩ := TicketCache.store_ticket hs
      exact ⟨exp, n, .head _, hlt, hrefresh⟩
  | cacheInvalidate =>
    rcases step_cacheInvalidate.mp h with ⟨-, rfl⟩ | ⟨t, -, -, rfl⟩
    · exact ⟨hw.nodup, hw.stored, nofun, fun t ht => hgone t (hw.retired t ht),
        fun j a ha t ht => hgone t (hw.earlier j a ha t ht), hw.sound⟩
    · refine hw.cons (e := .dropped t) trivial rfl hgone hw.nodup ?_ nofun
      intro s exp n hs
      rcases mem_cons.mp hs with hs | hs
      · cases hs
      · exact .tail _ (hw.stored s exp n hs)
  | requestAdmit =>
    rcases step_requestAdmit.mp h with ⟨-, rfl⟩ | ⟨t, exp, -, henv, rfl⟩
    · exact hw
    · have hnew := neverRepeats_admitted henv
      refine hw.cons (e := .admitted t exp) trivial rfl hgone (nodup_cons.mpr ⟨hnew, hw.nodup⟩) ?_ ?_
      · intro s exp' n hs
        rcases mem_cons.mp hs with hs | hs
        · cases hs
        · exact .tail _ (hw.stored s exp' n hs)
      · intro s hs
        obtain ⟨exp', n, hstored, hrest⟩ := hw.cached s hs
        exact ⟨exp', n, .tail _ hstored, hrest⟩

end Step

def retiring : Discipline (client neverRepeats) where
  inv := Retiring
  pre := keeps
  keeps hw hkeeps h := hw.step hkeeps h

theorem keepsLock_retiring : KeepsLock retiring := fun _ _ _ h ho hacquire => lock_of_keeps h ho hacquire

end PyClient

end SeamSdk
