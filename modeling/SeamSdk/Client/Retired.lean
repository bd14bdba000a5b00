import SeamSdk.Client.Fetch

/-!
# A retired ticket does not come back

A call that fails so that it may be repeated has retired every ticket it sent for a guarded write (`Ended`). The next
attempt therefore fetches another one.

- `call_retiring`: the calls;
- `retryFrom_retiring`: the retry loop, by induction on the attempts that are left;
- `retired_stays_away`: over all runs.
-/

namespace SeamSdk.PyClient

open ByteCodec Threads Ledger Client List

/-! ## Calls -/

section Calls

variable {i : Nat} {N : List Bytes} {rpc : String} {t : Bytes} {w w' : World}

/-- The ticket was sent in no attempt before the latest one. -/
def Fresh (i : Nat) (t : Bytes) (w : World) : Prop := ∀ a ∈ (attempts i w.log).tail, t ∉ a

/-- What a fetch returns may be sent. -/
def MaySend (i : Nat) (r : Except SeamRpcError Bytes) (w : World) : Prop := Returns (fun t => Fresh i t w ∧ Issued t w) r

/-- A fetch within an attempt: the tickets of the earlier attempts are gone. -/
theorem fetch_within {body : Client Bytes} {P Q : World → Prop} (hall : body.run.All Op.fetches)
    (hbody : ∀ G, retiring.Triple i (fun w => P w ∧ GoneAll G w) body.run fun r w => Fetched G r w ∧ Q w)
    (N : List Bytes) :
    retiring.Triple i (fun w => P w ∧ CleanBut i N w) body.run fun r w => (Q w ∧ CleanBut i N w) ∧ MaySend i r w := by
  refine Discipline.Triple.pre (R := fun w => ∃ S, (P w ∧ GoneAll S.flatten w) ∧ CleanBut i N w ∧
    (attempts i w.log).tail = S) (.exists_pre fun S => ?_) ?_
  · refine ((hbody S.flatten).frame hall ((untouched_cleanBut N).and (untouched_attempts S))).post ?_
    intro r w _ h
    obtain ⟨⟨hfetched, hQ⟩, hclean, htail⟩ := h
    refine ⟨⟨hQ, hclean⟩, hfetched.mono fun t ht => ⟨?_, ht.2⟩⟩
    intro a ha hmem
    exact ht.1 (mem_flatten.mpr ⟨a, htail ▸ ha, hmem⟩)
  · intro w hw h
    refine ⟨_, ⟨h.1, ?_⟩, h.2, rfl⟩
    intro t ht
    obtain ⟨a, ha, hmem⟩ := mem_flatten.mp ht
    exact hw.earlier i a ha t hmem

theorem ticketFor_within (N : List Bytes) :
    retiring.Triple i (CleanBut i N) ticketFor.run fun r w => CleanBut i N w ∧ MaySend i r w := by
  have hfetch := fetch_within (i := i) (P := fun _ => True) (Q := fun _ => True) fetches_ticketFor
    (fun G => (ticketFor_retiring G).mono (fun _ _ h => h.2) fun _ _ _ h => ⟨h, trivial⟩) N
  exact hfetch.mono (fun _ _ h => ⟨trivial, h⟩) fun _ _ _ h => ⟨h.1.2, h.2⟩

theorem cleanBut_of_gone (hw : CleanBut i (t :: N) w) (ht : Gone t w) : CleanBut i N w := by
  intro s hs
  rcases hw s hs with hmem | hgone
  · rcases mem_cons.mp hmem with rfl | hmem
    · exact .inr ht
    · exact .inl hmem
  · exact .inr hgone

theorem refreshTicket_within (failed : Bytes) (N : List Bytes) :
    retiring.Triple i (fun w => Issued failed w ∧ CleanBut i (failed :: N) w) (refreshTicket failed).run
      fun r w => CleanBut i N w ∧ MaySend i r w := by
  refine (fetch_within (fetches_refreshTicket failed) (refreshTicket_retiring failed) (failed :: N)).post ?_
  intro r w _ h
  exact ⟨cleanBut_of_gone h.1.2 h.1.1, h.2⟩

/-- After a request the ticket that was sent may be alive. -/
def Sent (i : Nat) (rpc : String) (t : Bytes) (N : List Bytes) (w : World) : Prop :=
  CleanBut i (t :: N) w ∧ (rpc ∉ replayGuarded → CleanBut i N w)

theorem untouched_sent (rpc : String) (t : Bytes) (N : List Bytes) :
    retiring.Untouched i Op.fetches (Sent i rpc t N) := by
  intro j o r w w' hinv hkeeps h ho hw
  have hclean := fun N => untouched_cleanBut (i := i) N j o r w w' hinv hkeeps h ho
  exact ⟨hclean _ hw.1, fun hrpc => hclean _ (hw.2 hrpc)⟩

theorem send_retiring (rpc : String) (t : Bytes) (N : List Bytes) :
    retiring.Triple i (fun w => CleanBut i N w ∧ Fresh i t w ∧ Issued t w) (send rpc t).run fun _ w =>
      Issued t w ∧ Sent i rpc t N w := by
  refine perform_spec (fun w _ h _ => h.2.1) ?_
    fun _ => ((lasting_issued t).untouched _ |>.and (untouched_sent rpc t N)).stable
  intro r w w' _ hP h
  obtain ⟨hclean, hfresh, hissued⟩ := hP
  have hgone : ∀ s, Gone s w → Gone s w' := fun s hs => hs.step (i := i) (o := .send rpc t) (fun _ => hfresh) h
  refine ⟨lasting_issued t w w' (log_suffix_of_step h) hissued, ?_⟩
  obtain ⟨-, rfl⟩ := note_eq_some.mp h
  by_cases hrpc : rpc ∈ replayGuarded
  · refine ⟨?_, fun hnot => absurd hrpc hnot⟩
    intro s hs
    simp only [attempts_answered, if_pos hrpc] at hs
    cases hlog : attempts i w.log with
    | nil => simp [hlog] at hs
    | cons a as =>
      unfold CleanBut at hclean
      rw [hlog] at hs hclean
      rcases mem_cons.mp hs with rfl | hs
      · exact .inl (.head _)
      · exact (hclean s hs).imp (.tail _) (hgone s)
  · have hlog : attempts i (.answered i rpc t (errorOf r) :: w.log) = attempts i w.log := by
      rw [attempts_answered, if_neg hrpc]
    unfold Sent CleanBut
    simp only [hlog]
    exact ⟨fun s hs => (hclean s hs).imp (.tail _) (hgone s), fun _ s hs => (hclean s hs).imp_right (hgone s)⟩

/-- A call that fails so that it may be repeated leaves no other ticket alive. -/
def Ended (i : Nat) (N : List Bytes) (r : Except SeamRpcError Unit) (w : World) : Prop :=
  ∀ e, r = .error e → e.isRetryable = true → CleanBut i N w

theorem ended_ok (i : Nat) (N : List Bytes) (a : Unit) (w : World) : Ended i N (.ok a) w := nofun

theorem ended_error {e : SeamRpcError} (h : e.isRetryable = true → CleanBut i N w) : Ended i N (.error e) w := by
  intro e' he
  cases he
  exact h

theorem throw_retiring {e : SeamRpcError} {P : World → Prop} (h : ∀ w, P w → e.isRetryable = true → CleanBut i N w) :
    retiring.Triple i P (throw e : Client Unit).run (Ended i N) :=
  .ret fun w _ hw => ended_error (h w hw)

theorem code_of_isRetryable {e : SeamRpcError} (h : e.isRetryable = true) :
    e.code = .unavailable ∨ e.code = .failedPrecondition := by
  simp only [SeamRpcError.isRetryable, SeamRpcError.isSessionUnavailable, SeamRpcError.isTenantMoving, Bool.or_eq_true,
    decide_eq_true_eq] at h
  exact h.imp (·.1) (·.1)

/-- The handler of a refusal that may have burned the signature. -/
theorem forget_throw (e : SeamRpcError) : retiring.Triple i (fun w => Issued t w ∧ Sent i rpc t N w)
    (do forgetBurnedTicket t rpc e; throw e : Client Unit).run (Ended i N) := by
  have hforget := (forgetBurnedTicket_retiring (i := i) t rpc e).frame (fetches_forgetBurnedTicket t rpc e)
    (untouched_sent rpc t N)
  refine .bindE hforget (fun _ => throw_retiring ?_) fun _ _ _ h => nomatch h.1.1
  intro w h hretry
  by_cases hrpc : rpc ∈ replayGuarded
  · refine cleanBut_of_gone h.2.1 (h.1.2 ?_)
    simp only [SeamRpcError.isRetryable] at hretry
    simp [burns, hrpc, hretry]
  · exact h.2.2 hrpc

theorem sendLast_retiring (rpc : String) (t : Bytes) (N : List Bytes) :
    retiring.Triple i (fun w => CleanBut i N w ∧ Fresh i t w ∧ Issued t w) (sendLast rpc t).run (Ended i N) := by
  refine .catchE (send_retiring rpc t N) ?_ fun a w _ _ => ended_ok i N a w
  intro e
  dsimp only
  split
  · exact forget_throw e
  · rename_i hcode
    exact throw_retiring fun _ _ hretry => absurd (code_of_isRetryable hretry) hcode

theorem authorizeRpc_not_guarded : authorizeRpc ∉ replayGuarded := by decide +kernel

theorem authorize_retiring (N : List Bytes) : retiring.Triple i (CleanBut i N) authorize.run (Ended i N) := by
  refine .bindE (ticketFor_within N) ?_ fun _ _ _ h => ended_error fun _ => h.1
  intro t
  refine .catchE ((send_retiring authorizeRpc t N).pre fun _ _ h => ⟨h.1, h.2 t rfl⟩) ?_
    fun a w _ _ => ended_ok i N a w
  intro e
  split
  · refine .bindE ((refreshTicket_within t N).pre fun _ _ h => ⟨h.1, h.2.1⟩) ?_ fun _ _ _ h => ended_error fun _ => h.1
    intro t'
    refine (send_retiring authorizeRpc t' N).mono (fun _ _ h => ⟨h.1, h.2 t' rfl⟩) ?_
    intro r w _ h
    cases r with
    | ok a => exact ended_ok i N a w
    | error e => exact ended_error fun _ => h.2.2 authorizeRpc_not_guarded
  · exact throw_retiring fun _ h _ => h.2.2 authorizeRpc_not_guarded

theorem credentialedCall_retiring (rpc : String) (retry : Bool) (N : List Bytes) :
    retiring.Triple i (CleanBut i N) (credentialedCall rpc retry).run (Ended i N) := by
  refine .bindE (ticketFor_within N) ?_ fun _ _ _ h => ended_error fun _ => h.1
  intro t
  refine .catchE ((send_retiring rpc t N).pre fun _ _ h => ⟨h.1, h.2 t rfl⟩) ?_ fun a w _ _ => ended_ok i N a w
  intro e
  split
  · exact forget_throw e
  rename_i hcode
  have hfinal : ¬e.isRetryable = true := fun hretry => hcode (code_of_isRetryable hretry)
  split
  · exact throw_retiring fun _ _ hretry => absurd hretry hfinal
  split
  · refine .bindE ((invalidateTicket_retiring t).pre fun _ _ h => h.1)
      (fun _ => throw_retiring fun _ _ hretry => absurd hretry hfinal) fun _ _ _ h => nomatch h.1
  · refine .bindE ((refreshTicket_within t N).pre fun _ _ h => ⟨h.1, h.2.1⟩) ?_ fun _ _ _ h => ended_error fun _ => h.1
    exact fun t' => (sendLast_retiring rpc t' N).pre fun _ _ h => ⟨h.1, h.2 t' rfl⟩

theorem admitAgent_retiring (N : List Bytes) :
    retiring.Triple i (CleanBut i N) admitAgent.run fun _ => CleanBut i N := by
  have hlock : retiring.Triple i (fun _ => True) admitAgent.run fun _ _ => True := by
    exact withLock_triple (R := IssuedAll []) (B := Fetched []) keepsLock_retiring (fun _ => trivial)
      (fun _ _ _ _ => nofun) (framed_issuedAll []) (admitLocked_retiring []) (fun _ _ h => h.1) (fun _ _ _ => trivial)
      fun _ => Discipline.stable_true
  refine (hlock.frame (all_withLock silent_admitLocked) ?_).mono (fun _ _ h => ⟨trivial, h⟩) fun _ _ _ h => h.2
  intro j o r w w' hinv hkeeps h ho
  exact untouched_cleanBut N j o r w w' hinv hkeeps h fun hj => (ho hj).fetches

/-- **A call that may be repeated** leaves no ticket alive that it sent. -/
theorem call_retiring (c : Call) (N : List Bytes) : retiring.Triple i (CleanBut i N) (runCall c).run (Ended i N) := by
  cases c with
  | admitAgent =>
    refine .bindE (admitAgent_retiring N) (fun _ => ?_) fun _ _ _ h => ended_error fun _ => h
    exact .ret fun w _ _ => ended_ok i N () w
  | authorize => exact authorize_retiring N
  | signedOnce rpc =>
    refine .bindE (ticketFor_within N) ?_ fun _ _ _ h => ended_error fun _ => h.1
    exact fun t => (sendLast_retiring rpc t N).pre fun _ _ h => ⟨h.1, h.2 t rfl⟩
  | credentialedCall rpc retry => exact credentialedCall_retiring rpc retry N

theorem attempt_retiring (n : Nat) :
    retiring.Triple i (fun w => n = 1 ∨ CleanBut i [] w) (perform (.mark (.attempt n))) fun _ =>
      CleanBut i [] := by
  refine perform_spec ?_ ?_ fun _ => (untouched_cleanBut []).stable
  · intro w _ h
    exact h.imp_right fun hclean t ht => (hclean t ht).resolve_left not_mem_nil
  · intro _ w w' _ _ h t ht
    obtain ⟨-, rfl⟩ := note_eq_some.mp h
    have hnil : (attempts i (.marked i (.attempt n) :: w.log)).headD [] = [] := by
      rw [attempts_attempt]
      split <;> rfl
    simp only [hnil] at ht
    cases ht

/-- Drawing a random number or sleeping. -/
theorem pause_retiring {o : Op} (ho : o.fetches) (hpre : ∀ w, keeps i o w) :
    retiring.Triple i (CleanBut i N) (perform o) fun _ => CleanBut i N := by
  refine perform_spec (fun w _ _ => hpre w) ?_ fun _ => (untouched_cleanBut N).stable
  intro r w w' hw hP h
  exact untouched_cleanBut N i o r w w' hw (hpre w) h (fun _ => ho) hP

theorem retryFrom_retiring {l : RetryLimits} (c : Call) (left attempt : Nat) (waited : Rat) :
    retiring.Triple i (fun w => attempt = 1 ∨ CleanBut i [] w) (retryFrom l (runCall c) left attempt waited).run
      fun _ _ => True := by
  induction left generalizing attempt waited with
  | zero => exact .thenE (attempt_retiring attempt) fun _ => (call_retiring c []).post fun _ _ _ _ => trivial
  | succ left ih =>
    refine .thenE (attempt_retiring attempt) fun _ => .catchE (call_retiring c []) ?_ fun _ _ _ _ => trivial
    intro e
    split
    · rename_i hretry
      refine .thenE (pause_retiring (N := []) (o := .random) trivial (fun _ => trivial) |>.pre ?_) ?_
      · exact fun _ _ h => h e rfl hretry
      · intro random
        cases nextDelay l e attempt waited random with
        | none => exact .ret fun _ _ _ => trivial
        | some delay =>
          refine .thenE (pause_retiring (N := []) (o := .sleep delay) trivial fun _ => trivial) fun _ => ?_
          exact (ih (attempt + 1) (waited + delay)).pre fun _ _ h => .inr h
    · exact .ret fun _ _ _ => trivial

theorem use_retiring (u : Use) : retiring.Triple i (fun _ => True) u.run fun _ _ => True := by
  cases u with
  | once c =>
    refine Discipline.Triple.pre (R := fun w => ∃ N, CleanBut i N w)
      (.exists_pre fun N => (call_retiring c N).post fun _ _ _ _ => trivial) ?_
    exact fun w _ _ => ⟨(attempts i w.log).headD [], fun _ ht => .inl ht⟩
  | retried l c => exact (retryFrom_retiring c _ 1 0).pre fun _ _ _ => .inl rfl

end Calls

/-! ## All runs -/

theorem retiring_initial : Retiring .initial where
  nodup := nodup_nil
  stored := nofun
  cached := nofun
  retired := nofun
  earlier := nofun
  sound := ⟨fun _ _ _ h => absurd (suffix_nil.mp h) nofun, fun _ => .nil, nofun⟩

theorem retiring_of_reaches {users : Nat → User} {c : Config Res World Unit}
    (h : (client neverRepeats).Reaches (start users) c) : Retiring c.world := by
  refine retiring.inv_of_reaches (P := fun _ _ => True) h retiring_initial (fun _ => trivial)
    (fun _ => Discipline.stable_true) ?_
  exact fun i => .interp (fun u _ => use_retiring u) (users i).all_true

/-- The server gives out a ticket once, so it has one expiry. -/
theorem admitted_unique {log : List Event} (h : (admissions log).Nodup) {t : Bytes} {exp exp' : Int}
    (h₁ : .admitted t exp ∈ log) (h₂ : .admitted t exp' ∈ log) : exp = exp' := by
  induction log with
  | nil => cases h₁
  | cons e log ih =>
    cases e with
    | admitted s x =>
      obtain ⟨hnew, h⟩ := nodup_cons.mp h
      have hmem : ∀ y, .admitted s y ∉ log := fun y hy => hnew (mem_admissions.mpr ⟨y, hy⟩)
      rcases mem_cons.mp h₁ with hhead | hlog <;> rcases mem_cons.mp h₂ with hhead' | hlog'
      · cases hhead
        cases hhead'
        rfl
      · cases hhead
        exact absurd hlog' (hmem exp')
      · cases hhead'
        exact absurd hlog (hmem exp)
      · exact ih h hlog hlog'
    | _ => exact ih h ((mem_cons.mp h₁).resolve_left nofun) ((mem_cons.mp h₂).resolve_left nofun)

/-- **A retired ticket does not come back.** No fetch that begins after a ticket was retired returns it, the attempts of
a retry loop send different tickets for guarded writes, and a cached ticket is fetched before its expiry. -/
theorem retired_stays_away {users : Nat → User} {c : Config Res World Unit}
    (h : (client neverRepeats).Reaches (start users) c) :
    (∀ i failed ticket e newer between older,
      c.world.log = newer ++ .marked i (.fetched ticket) :: (between ++ .marked i .fetching :: older) →
      e ∈ older → e.retires = some failed → ticket ≠ failed) ∧
    (∀ i, (attempts i c.world.log).Pairwise List.Disjoint) ∧
    ∀ i now ticket exp, .got i now ticket ∈ c.world.log → .admitted ticket exp ∈ c.world.log → now < exp := by
  have hw := retiring_of_reaches h
  refine ⟨?_, hw.sound.disjoint, ?_⟩
  · intro i failed ticket e newer between older hlog he hretires heq
    have hretired : failed ∈ retired older := List.mem_filterMap.mpr ⟨e, he, hretires⟩
    refine hw.sound.fetched i ticket (between ++ .marked i .fetching :: older) ⟨newer, hlog.symm⟩ ?_
    rw [heq]
    exact mem_owed_append hretired between
  · intro i now ticket exp hgot hadmitted
    obtain ⟨exp', hadmitted', hlt⟩ := hw.sound.got i now ticket hgot
    rw [admitted_unique hw.nodup hadmitted hadmitted']
    exact hlt

/-- One thread that repeats a vote. -/
def oneVote : Nat → User
  | 0 => .call (.retried ⟨10, 1, 1, 2⟩ (.credentialedCall "/seam.api.v1.SeamCoordination/SubmitVote" true))
    fun _ => .ret ()
  | _ => .ret ()

/-- The vote is burned at first and succeeds with another ticket. -/
def burnedOnce : List (Nat × ((o : Op) → Res o)) :=
  List.replicate 13 (0, answers 0 none ([1], 100) (.error .sessionUnavailable)) ++
  List.replicate 9 (0, answers 5 (some [1]) ([], 0) (.ok ())) ++
  List.replicate 12 (0, answers 6 none ([2], 100) (.ok ()))

theorem retired_stays_away_burnedOnce :
    ∃ c, (client neverRepeats).Reaches (start oneVote) c ∧ attempts 0 c.world.log = [[[2]], [[1]]] ∧
      (attempts 0 c.world.log).Pairwise List.Disjoint ∧ .got 0 5 [1] ∈ c.world.log ∧ .admitted [1] 100 ∈ c.world.log ∧
      (5 : Int) < 100 := by
  have hrun : ((client neverRepeats).exec burnedOnce (start oneVote)).map
      (fun c => (attempts 0 c.world.log, c.world.log.contains (.got 0 5 [1]),
        c.world.log.contains (.admitted [1] 100))) = some ([[[2]], [[1]]], true, true) := by decide +kernel
  obtain ⟨c, hreach, hw⟩ := System.reaches_of_exec_map _ hrun
  simp only [Prod.mk.injEq, List.contains_iff_mem] at hw
  obtain ⟨hattempts, hgot, hadmitted⟩ := hw
  obtain ⟨-, hdisjoint, hbefore⟩ := retired_stays_away hreach
  exact ⟨c, hreach, hattempts, hdisjoint 0, hgot, hadmitted, hbefore 0 5 [1] 100 hgot hadmitted⟩

end SeamSdk.PyClient
