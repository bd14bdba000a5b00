import SeamSdk.Client.Gone

/-!
# Fetches

A fetch returns no ticket that was gone when it began: from the cache it takes a ticket that is not stale, and a new
one was never stored before.

- `look_retiring`, `admitLocked_retiring`: a look at the cache, and the handshake;
- `ticketFor_retiring`, `refreshTicket_retiring`: the fetches; a refreshed ticket is gone;
- `forgetBurnedTicket_retiring`: so is one that is forgotten as burned.
-/

namespace SeamSdk.PyClient

open ByteCodec Threads Ledger Client

/-! ## What an operation leaves alone -/

/-- The operations of a locked section. -/
def Op.silent : Op → Prop
  | .send _ _ | .mark _ => False
  | _ => True

/-- The operations of a fetch: they send nothing and begin no attempt. -/
def Op.fetches : Op → Prop
  | .send _ _ | .mark (.attempt _) => False
  | _ => True

variable {G : List Bytes} {o : Op}

theorem Op.silent.fetches (h : o.silent) : o.fetches := by
  cases o with
  | send | mark => cases h
  | _ => trivial

theorem Op.silent.ne_mark (h : o.silent) (m : Mark) : o ≠ .mark m := by
  rintro rfl
  exact h

section Untouched

variable {i j : Nat} {o : Op} {r : Res o} {w w' : World}

theorem owed_of_step (h : step neverRepeats j o r w = some w') (ho : j = i → o ≠ .mark .fetching) :
    owed i w'.log = owed i w.log := by
  rcases log_of_step h with heq | ⟨e, heq, he⟩
  · rw [heq]
  · rw [heq]
    apply owed_cons
    rintro rfl
    rcases he with he | ⟨m, rfl, he⟩ | ⟨rpc, t, error, -, he⟩
    · cases he
    · cases he
      exact ho rfl rfl
    · cases he

theorem attempts_of_step (h : step neverRepeats j o r w = some w') (ho : j = i → o.fetches) :
    attempts i w'.log = attempts i w.log := by
  rcases log_of_step h with heq | ⟨e, heq, he⟩
  · rw [heq]
  · rw [heq]
    by_cases hj : j = i
    · subst hj
      rcases he with he | ⟨m, rfl, rfl⟩ | ⟨rpc, t, error, rfl, rfl⟩
      · exact attempts_cons (by simp [he])
      · cases m with
        | attempt n => exact absurd (ho rfl) id
        | _ => rfl
      · exact absurd (ho rfl) id
    · apply attempts_cons
      rcases he with he | ⟨m, -, rfl⟩ | ⟨rpc, t, error, -, rfl⟩
      · simp [he]
      · simpa [Event.by] using hj
      · simpa [Event.by] using hj

theorem untouched_owed (O : List Bytes) : retiring.Untouched i (· ≠ .mark .fetching) fun w => owed i w.log = O :=
  fun _ _ _ _ _ _ _ h ho hw => (owed_of_step h ho).trans hw

theorem untouched_attempts (S : List (List Bytes)) :
    retiring.Untouched i Op.fetches fun w => (attempts i w.log).tail = S :=
  fun _ _ _ _ _ _ _ h ho hw => (congrArg _ (attempts_of_step h ho)).trans hw

theorem untouched_gone (ok : Op → Prop) (t : Bytes) : retiring.Untouched i ok (Gone t) :=
  fun _ _ _ _ _ _ hkeeps h _ hw => hw.step hkeeps h

def GoneAll (G : List Bytes) (w : World) : Prop := ∀ t ∈ G, Gone t w

theorem untouched_goneAll (ok : Op → Prop) (G : List Bytes) : retiring.Untouched i ok (GoneAll G) :=
  fun _ _ _ _ _ _ hkeeps h _ hw t ht => (hw t ht).step hkeeps h

theorem framed_goneAll (G : List Bytes) : Framed (GoneAll G) := fun w w' h hw t ht => framed_gone t w w' h (hw t ht)

/-- Every ticket sent in the latest attempt is gone, except for those given. -/
def CleanBut (i : Nat) (N : List Bytes) (w : World) : Prop :=
  ∀ t ∈ (attempts i w.log).headD [], t ∈ N ∨ Gone t w

theorem untouched_cleanBut (N : List Bytes) : retiring.Untouched i Op.fetches (CleanBut i N) := by
  intro j o r w w' _ hkeeps h ho hw t ht
  rw [attempts_of_step h ho] at ht
  exact (hw t ht).imp_right fun hgone => hgone.step hkeeps h

end Untouched

/-! ## Locked sections -/

section Locked

variable {i : Nat} {A : World → Prop}

theorem framed_not_issued (t : Bytes) : Framed fun w => ¬Issued t w := by
  intro w w' h hw hissued
  obtain ⟨exp, n, hstored⟩ := hissued
  exact hw ⟨exp, n, (h.mem_log rfl).mp hstored⟩

/-- A reading of the clock at which the given tickets are stale, where they are cached. -/
def StaleAt (G : List Bytes) (now : Int) (w : World) : Prop := w.Read now ∧ ∀ t ∈ G, w.cache.Stale (· = now) t

theorem framed_staleAt (G : List Bytes) (now : Int) : Framed (StaleAt G now) := by
  intro w w' h hw
  refine ⟨h.suffix.subset hw.1, ?_⟩
  rw [h.cache]
  exact hw.2

theorem nowMs_retiring (hA : Framed A) (hG : ∀ w, A w → GoneAll G w) :
    retiring.Triple i (Held i A) (perform .nowMs) fun now => Held i fun w => A w ∧ StaleAt G now w := by
  refine perform_plain keepsLock_retiring rfl hA (fun _ _ _ => trivial) ?_ (framed_staleAt G)
  intro now w w' _ hP h
  obtain ⟨henv, rfl⟩ := note_eq_some.mp h
  refine ⟨.head _, ?_⟩
  intro t ht hcached
  -- The clock does not go back behind the reading at which the ticket was stale.
  obtain ⟨earlier, hclock, hle⟩ := (hG w hP.2 t ht).2 hcached
  exact ⟨now, rfl, hle.trans (neverRepeats_clock henv hclock)⟩

/-- What a look at the cache gives: a ticket that is not gone. Any other ticket is stale. -/
def Looked (G : List Bytes) (r : Option Bytes) (w : World) : Prop :=
  w.cache.Looked w.Read (fun t => t ∉ G ∧ Issued t w) r

theorem framed_looked (G : List Bytes) (r : Option Bytes) : Framed (Looked G r) := by
  intro w w' h hw
  unfold Looked
  rw [h.cache]
  exact hw.mono (fun _ hclock => h.suffix.subset hclock) fun t ht => ⟨ht.1, lasting_issued t w w' h.suffix ht.2⟩

theorem cacheGet_retiring {now : Int} (hA : Framed A) (hread : ∀ w, A w → StaleAt G now w) :
    retiring.Triple i (Held i A) (perform (.cacheGet now)) fun r => Held i fun w => A w ∧ Looked G r w := by
  refine perform_plain keepsLock_retiring rfl hA (fun _ _ _ => trivial) ?_ (framed_looked G)
  intro r w w' hw hP h
  obtain ⟨hclock, hstale⟩ := hread w hP.2
  refine framed_looked G r w w' (frame_of_plain rfl h) ?_
  rw [(step_cacheGet.mp h).1]
  refine TicketCache.looked_get hclock fun t ht => ⟨fun hG => ?_, ?_⟩
  · exact TicketCache.not_stale_of_get (fun _ hn => hn.le) ht (hstale t hG)
  · obtain ⟨exp, n, hstored, -⟩ := hw.cached t (TicketCache.get_eq_some_iff.mp ht).1
    exact ⟨exp, n, hstored⟩

theorem look_retiring {α : Type} {f : Option Bytes → Client α} {Q : Except SeamRpcError α → World → Prop}
    (hA : Framed A) (hG : ∀ w, A w → GoneAll G w)
    (hf : ∀ r, retiring.Triple i (Held i fun w => A w ∧ Looked G r w) (f r).run Q) :
    retiring.Triple i (Held i A) (nowMs >>= fun now => cacheGet now >>= f).run Q := by
  refine .thenE (nowMs_retiring hA hG) ?_
  intro now
  refine .thenE (cacheGet_retiring (hA.and (framed_staleAt G now)) fun _ h => h.2) ?_
  intro r
  exact (hf r).pre fun w _ h => ⟨h.1, h.2.1.1, h.2.2⟩

def IssuedAll (G : List Bytes) (w : World) : Prop := ∀ t ∈ G, Issued t w

theorem framed_issuedAll (G : List Bytes) : Framed (IssuedAll G) :=
  fun w w' h hw t ht => lasting_issued t w w' h.suffix (hw t ht)

/-- A ticket just given out: it is none of those given, and has not been stored. -/
def Minted (G : List Bytes) (t : Bytes) (exp : Int) (w : World) : Prop :=
  (.admitted t exp ∈ w.log ∧ ¬Issued t w) ∧ t ∉ G

theorem framed_minted (G : List Bytes) (t : Bytes) (exp : Int) : Framed (Minted G t exp) := by
  intro w w' h hw
  exact ⟨⟨h.suffix.subset hw.1.1, framed_not_issued t w w' h hw.1.2⟩, hw.2⟩

theorem requestAdmit_retiring (G : List Bytes) :
    retiring.Triple i (Held i (IssuedAll G)) requestAdmit.run fun r => Held i fun w =>
      match r with
      | .ok (t, exp) => Minted G t exp w
      | .error _ => True := by
  refine perform_spec (fun _ _ h => h.1) ?_ ?_
  · intro r w w' hw hP h
    rcases step_requestAdmit.mp h with ⟨⟨e, rfl⟩, rfl⟩ | ⟨t, exp, rfl, henv, rfl⟩
    · exact ⟨hP.1, trivial⟩
    · have hnew : ¬Issued t w := by
        rintro ⟨exp', n, hstored⟩
        exact neverRepeats_admitted henv (mem_admissions.mpr ⟨exp', hw.stored t exp' n hstored⟩)
      refine ⟨hP.1, ⟨.head _, ?_⟩, fun ht => hnew (hP.2 t ht)⟩
      rintro ⟨exp', n, hstored⟩
      rcases List.mem_cons.mp hstored with hstored | hstored
      · cases hstored
      · exact hnew ⟨exp', n, hstored⟩
  · intro r
    rcases r with e | ⟨t, exp⟩
    · exact Framed.stable keepsLock_retiring fun _ _ _ _ => trivial
    · exact (framed_minted G t exp).stable keepsLock_retiring

/-- What a fetch returns. -/
def Fetched (G : List Bytes) (r : Except SeamRpcError Bytes) (w : World) : Prop :=
  Returns (fun t => t ∉ G ∧ Issued t w) r

theorem lasting_fetched (G : List Bytes) (r : Except SeamRpcError Bytes) : Lasting (Fetched G r) :=
  fun w w' h hw => hw.mono fun t ht => ⟨ht.1, lasting_issued t w w' h ht.2⟩

/-- **A new ticket** is none of those that were stored before. -/
theorem admitLocked_retiring (G : List Bytes) :
    retiring.Triple i (Held i (IssuedAll G)) admitLocked.run fun r => Held i (Fetched G r) := by
  have hissued := framed_issuedAll G
  refine .bindE (presentation_held keepsLock_retiring (fun _ => trivial) (fun _ => trivial) hissued) ?_
    fun e w _ h => ⟨h.1, returns_error e⟩
  intro _
  refine .bindE (requestAdmit_retiring G) ?_ fun e w _ h => ⟨h.1, returns_error e⟩
  intro reply
  obtain ⟨t, exp⟩ := reply
  have hminted := framed_minted G t exp
  refine .thenE (perform_plain (Q := fun _ _ => True) keepsLock_retiring rfl hminted (fun _ _ _ => trivial)
    (fun _ _ _ _ _ _ => trivial) fun _ _ _ _ _ => trivial) ?_
  intro now
  refine .thenE (T := fun _ => Held i (Fetched G (.ok t))) ?_ fun _ => .ret fun _ _ h => h
  refine perform_spec (fun w _ h => ⟨h.1, h.2.1.1⟩) ?_ fun _ => (lasting_fetched G _).framed.stable keepsLock_retiring
  intro _ w w' _ hP h
  obtain ⟨-, rfl⟩ := note_eq_some.mp h
  exact ⟨hP.1, returns_ok ⟨hP.2.1.2, exp, now, .head _⟩⟩

end Locked

/-! ## Which operations the calls come to -/

section Operations

variable {α : Type}

theorem all_op {ok : Op → Prop} (h : ok o) : (op o).run.All ok := ⟨h, fun _ => trivial⟩

theorem all_withLock {body : Client α} (h : body.run.All Op.silent) : (withLock body).run.All Op.silent :=
  ⟨trivial, fun _ => h.bind fun _ => ⟨trivial, fun _ => trivial⟩⟩

theorem silent_look {f : Option Bytes → Client α} (h : ∀ r, (f r).run.All Op.silent) :
    (nowMs >>= fun now => cacheGet now >>= f).run.All Op.silent :=
  .bindE (all_op trivial) fun _ => .bindE (all_op trivial) h

theorem silent_admitLocked : admitLocked.run.All Op.silent := by
  refine .bindE ⟨trivial, fun r => ?_⟩ fun _ => .bindE ⟨trivial, fun _ => trivial⟩ fun reply => ?_
  · cases r with
    | ok _ => exact ⟨trivial, fun _ => trivial⟩
    | error e => exact trivial
  · exact .bindE (all_op trivial) fun now => .bindE (all_op trivial) fun _ => trivial

theorem fetches_ticketFor : ticketFor.run.All Op.fetches := by
  refine .bindE (all_op trivial) fun _ =>
    .bindE (.mono (all_withLock (silent_look ?_)) fun _ h => h.fetches) fun t => ?_
  · intro r
    cases r with
    | some t => exact trivial
    | none => exact silent_admitLocked
  · exact .bindE (all_op trivial) fun _ => trivial

/-- What `refreshTicket` does under the lock. -/
theorem silent_refresh (failed : Bytes) : (withLock do
    let current ← cacheGet (← nowMs)
    match current.filter (· ≠ failed) with
    | some ticket => return ticket
    | none =>
      op .cacheInvalidate
      admitLocked).run.All Op.silent := by
  refine all_withLock (silent_look ?_)
  intro r
  cases r.filter (· ≠ failed) with
  | some t => exact trivial
  | none => exact .bindE (all_op trivial) fun _ => silent_admitLocked

theorem fetches_refreshTicket (failed : Bytes) : (refreshTicket failed).run.All Op.fetches := by
  refine .bindE (all_op trivial) fun _ => .bindE ?_ fun t => .bindE (all_op trivial) fun _ => trivial
  exact ((silent_refresh failed).mono fun _ h => h.fetches).bind fun _ => ⟨trivial, fun _ => trivial⟩

theorem silent_invalidateTicket (failed : Bytes) : (invalidateTicket failed).run.All Op.silent := by
  refine all_withLock (silent_look ?_)
  intro r
  split
  · exact all_op trivial
  · exact trivial

theorem fetches_forgetBurnedTicket (t : Bytes) (rpc : String) (e : SeamRpcError) :
    (forgetBurnedTicket t rpc e).run.All Op.fetches := by
  unfold forgetBurnedTicket
  split
  · exact ((silent_invalidateTicket t).mono fun _ h => h.fetches).bind fun _ => ⟨trivial, fun _ => trivial⟩
  · exact trivial

end Operations

/-! ## Fetches -/

section Fetches

variable {i : Nat} {A B : World → Prop}

/-- A fetch: when it begins, whatever is retired is gone, so that the ticket it returns may be noted. -/
theorem fetch_retiring {body : Client Bytes} (hA : ∀ ok, retiring.Untouched i ok A)
    (hB : ∀ ok, retiring.Untouched i ok B) (hall : body.run.All (· ≠ .mark .fetching))
    (hbody : ∀ O, retiring.Triple i (fun w => A w ∧ GoneAll (O ++ G) w) body.run fun r w =>
    Fetched (O ++ G) r w ∧ B w) : retiring.Triple i (fun w => A w ∧ GoneAll G w)
      (do op (.mark .fetching); let t ← body; op (.mark (.fetched t)); return t : Client Bytes).run
      fun r w => Fetched G r w ∧ B w := by
  refine .thenE (T := fun _ w => ∃ O, (A w ∧ GoneAll (O ++ G) w) ∧ owed i w.log = O) ?_ fun _ => .exists_pre fun O => ?_
  · refine perform_spec (fun _ _ _ => trivial) ?_ ?_
    · intro r w w' hw hP h
      have hA' := hA (fun _ => True) i (.mark .fetching) r w w' hw trivial h (fun _ => trivial) hP.1
      refine ⟨retired w.log, ⟨hA', ?_⟩, ?_⟩
      · intro t ht
        rcases List.mem_append.mp ht with ht | ht
        · exact (hw.retired t ht).step (i := i) (o := .mark .fetching) trivial h
        · exact (hP.2 t ht).step (i := i) (o := .mark .fetching) trivial h
      · obtain ⟨-, rfl⟩ := note_eq_some.mp h
        exact if_pos rfl
    · intro _ w w' h hw
      obtain ⟨O, hO⟩ := hw
      exact ⟨O, ((hA _).and (untouched_goneAll _ _) |>.and (untouched_owed O)).stable w w' h hO⟩
  · refine .bindE ((hbody O).frame hall (untouched_owed O)) ?_ fun e w _ h => ⟨returns_error e, h.1.2⟩
    intro t
    have hdue : ∀ w, (Fetched (O ++ G) (.ok t) w ∧ B w) ∧ owed i w.log = O → keeps i (.mark (.fetched t)) w := by
      intro w h
      show t ∉ owed i w.log
      rw [h.2]
      exact fun ht => (h.1.1 t rfl).1 (List.mem_append_left _ ht)
    refine .thenE (T := fun _ w => Fetched G (.ok t) w ∧ B w) ?_ fun _ => .ret fun _ _ h => h
    refine perform_spec (fun w _ => hdue w) ?_
      fun _ => ((lasting_fetched G _).untouched (fun _ => True) |>.and (hB _)).stable
    intro r w w' hw hP h
    obtain ⟨ht, hissued⟩ := hP.1.1 t rfl
    refine ⟨returns_ok ⟨fun h => ht (List.mem_append_right _ h), ?_⟩,
      hB (fun _ => True) i (.mark (.fetched t)) r w w' hw (hdue w hP) h (fun _ => trivial) hP.1.2⟩
    exact lasting_issued t w w' (log_suffix_of_step h) hissued

theorem issuedAll_of_gone {w : World} (h : GoneAll G w) : IssuedAll G w := fun t ht => (h t ht).1

theorem ticketFor_retiring (G : List Bytes) : retiring.Triple i (GoneAll G) ticketFor.run fun r => Fetched G r := by
  refine (fetch_retiring (A := fun _ => True) (B := fun _ => True) (fun _ _ _ _ _ _ _ _ _ _ _ => trivial)
    (fun _ _ _ _ _ _ _ _ _ _ _ => trivial) ?_ ?_).mono (fun _ _ h => ⟨trivial, h⟩) fun _ _ _ h => h.1
  · refine (all_withLock (silent_look ?_)).mono fun _ h => h.ne_mark _
    intro r
    cases r with
    | some t => exact trivial
    | none => exact silent_admitLocked
  · intro O
    have hgone := framed_goneAll (O ++ G)
    refine withLock_triple (R := GoneAll (O ++ G)) (B := Fetched (O ++ G)) keepsLock_retiring (fun _ => trivial)
      (fun _ _ h _ => h.2) hgone (look_retiring hgone (fun _ h => h) ?_) (fun _ _ h => h.1) (fun _ _ h => ⟨h, trivial⟩)
      fun r => (lasting_fetched _ r).stable.and Discipline.stable_true
    intro r
    cases r with
    | some t =>
      exact .ret fun w _ h => ⟨h.1, returns_ok (h.2.2.1 t rfl)⟩
    | none => exact (admitLocked_retiring (O ++ G)).pre fun _ _ h => ⟨h.1, issuedAll_of_gone h.2.1⟩

/-- After the cache is thrown out, nothing in it is fresh. -/
theorem cacheInvalidate_retiring :
    retiring.Triple i (Held i (IssuedAll G)) (perform .cacheInvalidate) fun _ => Held i (GoneAll G) := by
  refine perform_spec (fun _ _ h => h.1) ?_ fun _ => (framed_goneAll G).stable keepsLock_retiring
  intro _ w w' _ hP h
  have hissued : IssuedAll G w' := fun t ht => lasting_issued t w w' (log_suffix_of_step h) (hP.2 t ht)
  rcases step_cacheInvalidate.mp h with ⟨-, rfl⟩ | ⟨s, -, -, rfl⟩
  · exact ⟨hP.1, fun t ht => ⟨hissued t ht, TicketCache.stale_invalidate⟩⟩
  · exact ⟨hP.1, fun t ht => ⟨hissued t ht, TicketCache.stale_invalidate⟩⟩

/-- **A refreshed ticket is gone**, whether or not there is another one. -/
theorem refreshTicket_retiring (failed : Bytes) (G : List Bytes) :
    retiring.Triple i (fun w => Issued failed w ∧ GoneAll G w) (refreshTicket failed).run fun r w =>
      Fetched G r w ∧ Gone failed w := by
  refine fetch_retiring (fun ok => (lasting_issued failed).untouched ok) (fun ok => untouched_gone ok failed) ?_ ?_
  · refine ((silent_refresh failed).mono fun _ h => h.ne_mark _).bind fun _ => ⟨nofun, fun _ => trivial⟩
  · intro O
    have hkept : ∀ r, retiring.Stable i fun w => Fetched (O ++ G) r w ∧ Gone failed w :=
      fun r => (lasting_fetched _ r).stable.and (untouched_gone (fun _ => True) failed).stable
    refine .bind (R := fun r w => Fetched (O ++ G) r w ∧ Gone failed w) ?_ ?_
    · have hframed := (lasting_issued failed).framed.and (framed_goneAll (O ++ G))
      refine withLock_triple (R := fun w => Issued failed w ∧ GoneAll (O ++ G) w)
        (B := fun r w => Fetched (O ++ G) r w ∧ Gone failed w) keepsLock_retiring (fun _ => trivial) (fun _ _ h _ => h)
        hframed (look_retiring hframed (fun _ h => h.2) ?_) (fun _ _ h => h.1) (fun _ _ h => h) hkept
      intro r
      cases hr : r.filter (· ≠ failed) with
      | some t =>
        obtain ⟨rfl, hne⟩ := Option.filter_eq_some_iff.mp hr
        exact .ret fun w _ h => ⟨h.1, returns_ok (h.2.2.1 t rfl), h.2.1.1, h.2.2.2 failed (by simpa using hne)⟩
      | none =>
        refine .thenE (cacheInvalidate_retiring (G := failed :: (O ++ G)) |>.pre ?_) fun _ => ?_
        · intro w _ h
          refine ⟨h.1, ?_⟩
          intro t ht
          rcases List.mem_cons.mp ht with rfl | ht
          · exact h.2.1.1
          · exact (h.2.1.2 t ht).1
        · have hsound := (admitLocked_retiring (i := i) (O ++ G)).frame silent_admitLocked
            (untouched_gone Op.silent failed)
          refine hsound.mono ?_ fun _ _ _ h => ⟨h.1.1, h.1.2, h.2⟩
          intro w _ h
          exact ⟨⟨h.1, fun t ht => (h.2 t (.tail _ ht)).1⟩, h.2 failed (.head _)⟩
    · intro r
      refine .bind (R := fun _ w => Fetched (O ++ G) r w ∧ Gone failed w) ?_ fun _ => .ret fun _ _ h => h
      refine perform_spec (fun _ _ h => h.2) ?_ fun _ => hkept r
      intro _ w w' _ hP h
      exact ⟨lasting_fetched _ r w w' (log_suffix_of_step h) hP.1,
        hP.2.step (i := i) (o := .mark (.refreshed failed)) hP.2 h⟩

/-- Forgetting a ticket does not raise. -/
theorem invalidateTicket_retiring (failed : Bytes) :
    retiring.Triple i (Issued failed) (invalidateTicket failed).run fun r w => r = .ok () ∧ Gone failed w := by
  have hissued := (lasting_issued failed).framed
  have hgone := untouched_gone (i := i) (fun _ => True) failed
  refine withLock_triple (B := fun r w => r = .ok () ∧ Gone failed w) keepsLock_retiring (fun _ => trivial)
    (fun _ _ h _ => h) hissued (look_retiring (G := []) hissued (fun _ _ => nofun) ?_) (fun _ _ h => h.1)
    (fun _ _ h => h) fun _ w w' h hw => ⟨hw.1, hgone.stable w w' h hw.2⟩
  intro r
  by_cases hr : r = some failed
  · rw [if_pos hr]
    refine .bind (cacheInvalidate_retiring (G := [failed]) |>.pre ?_)
      fun _ => .ret fun _ _ h => ⟨h.1, rfl, h.2 failed (.head _)⟩
    intro w _ h
    exact ⟨h.1, by simpa [IssuedAll] using h.2.1⟩
  · rw [if_neg hr]
    exact .ret fun w _ h => ⟨h.1, rfl, h.2.1, h.2.2.2 failed hr⟩

theorem forgetBurnedTicket_retiring (t : Bytes) (rpc : String) (e : SeamRpcError) :
    retiring.Triple i (Issued t) (forgetBurnedTicket t rpc e).run fun r w =>
      r = .ok () ∧ (burns rpc e = true → Gone t w) := by
  unfold forgetBurnedTicket
  split
  · have hgone := untouched_gone (i := i) (fun _ => True) t
    refine .bind (invalidateTicket_retiring t) fun r => ?_
    refine .bind (R := fun _ w => r = .ok () ∧ Gone t w) ?_ fun _ => .ret fun _ _ h => ⟨h.1, fun _ => h.2⟩
    refine perform_spec (fun _ _ h => h.2) ?_ fun _ w w' h hw => ⟨hw.1, hgone.stable w w' h hw.2⟩
    intro _ w w' _ hP h
    exact ⟨hP.1, hP.2.step (i := i) (o := .mark (.forgot t)) hP.2 h⟩
  · rename_i hburns
    exact .ret fun _ _ _ => ⟨rfl, fun h => absurd h hburns⟩

end Fetches

end SeamSdk.PyClient
