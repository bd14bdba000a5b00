import SeamSdk.Lib.Family
import SeamSdk.Lib.Histories
import SeamSdk.Client.Turns
import SeamSdk.Sdk.Authorize

/-!
# One client for several identities

A client keeps a cache and a lock for every identity (`_cache_and_lock`). A call takes steps with them: it fetches a
ticket, has it refreshed or forgotten, and sends requests (`CallOp`). Each step is carried out on the cache and the lock
of its identity, while other threads come in between (`CallOp.run`). Each thread notes which steps it begins and how
they end.

The server never gives out a ticket twice (`freshTickets`). Nothing else is assumed of it, nor of the clock.

- `obtained_ticketFor`, `obtained_refreshTicket`: what a fetch returns was given out, and a refresh returns another
  ticket than the one that failed;
- `Course.began`, `Course.ended`: the notes of a program over these steps, up to where a step begins or has ended;
- `follows_of_reaches`: the notes of a thread among others.
-/

namespace SeamSdk.PyClient

open ByteCodec Threads Ledger List

/-! ## The steps of a call -/

structure Agent where
  aid : String
  seed : Bytes
  deriving DecidableEq

/-- What a call raises: an error from the server, an exception while something is signed, or any other. -/
inductive CallError (X : Type)
  | rpc (e : SeamRpcError)
  | refused (r : Python.Refusal)
  | other (exc : X)

abbrev Metadata := List (String × Bytes)

inductive CallOp
  | admitAgent (aid : String)
  | ticketFor (aid : String)
  | refreshTicket (aid : String) (failed : Bytes)
  | invalidateTicket (aid : String) (failed : Bytes)
  | forgetBurnedTicket (aid : String) (ticket : Bytes) (rpcFullName : String) (exc : SeamRpcError)
  | send (metadata : Option Metadata)
  deriving DecidableEq

namespace CallOp

/-- The identity whose cache the step uses. -/
def aid? : CallOp → Option String
  | .admitAgent aid | .ticketFor aid | .refreshTicket aid _ | .invalidateTicket aid _
  | .forgetBurnedTicket aid _ _ _ => some aid
  | .send _ => none

/-- `V` is for what a call returns. -/
@[reducible] def Ans (X V : Type) : CallOp → Type
  | .admitAgent _ | .ticketFor _ | .refreshTicket _ _ => Except (CallError X) Bytes
  | .invalidateTicket _ _ | .forgetBurnedTicket _ _ _ _ => Unit
  | .send _ => Except (CallError X) V

end CallOp

section Steps

variable (X V : Type)

/-- What a thread notes of its own steps. -/
inductive Note
  | began (o : CallOp)
  | ended (d : Done (CallOp.Ans X V))

inductive NoteOp
  | send (metadata : Option Metadata)
  | fail (e : SeamRpcError)
  | note (n : Note X V)

@[reducible] def NoteOp.Ans : NoteOp X V → Type
  | .send _ => Except (CallError X) V
  | .fail _ => CallError X
  | .note _ => Unit

/-- The notes of all threads, in order. A request is answered in any way. Where the server refuses a ticket, the client
may as well fail on its own: when it cannot make its presentation of what the server sent. -/
def notebook : System (NoteOp.Ans X V) (List (Nat × Note X V)) where
  step i
    | .send _, _, notes => some notes
    | .fail e, (exc : CallError X), notes =>
      match exc with
      | .rpc e' => if e' = e then some notes else none
      | _ => some notes
    | .note n, _, notes => some (notes ++ [(i, n)])

abbrev RegistryRes := Keyed.Ans (K := String) Res (NoteOp.Ans X V)

abbrev Registry := (String → World) × List (Nat × Note X V)

def registry (env : Surroundings) : System (RegistryRes X V) (Registry X V) := (client env).family (notebook X V)

def Registry.initial : Registry X V := (fun _ => .initial, [])

variable {X V}

theorem notebook_fail {i : Nat} {e : SeamRpcError} {exc : CallError X} {notes notes' : List (Nat × Note X V)}
    (h : (notebook X V).step i (.fail e) exc notes = some notes') : notes = notes' := by
  cases exc with
  | rpc e' => exact (Option.ite_none_right_eq_some.mp h).2 |> Option.some.inj
  | refused | other => exact Option.some.inj h

/-- What a fetch raises. -/
def raising : Except SeamRpcError Bytes → Prog (RegistryRes X V) (Except (CallError X) Bytes)
  | .ok t => .ret (.ok t)
  | .error e => (Prog.perform (Keyed.beside (NoteOp.fail e))).bind fun exc => .ret (.error exc)

/-- The step on the cache and the lock of its identity. -/
def CallOp.carryOut : (o : CallOp) → Prog (RegistryRes X V) (o.Ans X V)
  | .admitAgent aid => (Client.admitAgent.run.on aid).bind raising
  | .ticketFor aid => (Client.ticketFor.run.on aid).bind raising
  | .refreshTicket aid failed => ((Client.refreshTicket failed).run.on aid).bind raising
  | .invalidateTicket aid failed => ((Client.invalidateTicket failed).run.bind fun _ => .ret ()).on aid
  | .forgetBurnedTicket aid ticket rpc exc =>
    ((Client.forgetBurnedTicket ticket rpc exc).run.bind fun _ => .ret ()).on aid
  | .send metadata => Prog.perform (Keyed.beside (NoteOp.send metadata))

def record (n : Note X V) : Prog (RegistryRes X V) Unit := Prog.perform (Keyed.beside (NoteOp.note n))

def CallOp.run (o : CallOp) : Prog (RegistryRes X V) (o.Ans X V) :=
  (record (.began o)).bind fun _ => o.carryOut.bind fun r => (record (.ended ⟨o, r⟩)).bind fun _ => .ret r

/-- Threads that run programs over these steps. -/
def beginning {α : Type} (threads : Nat → Prog (CallOp.Ans X V) α) : Config (RegistryRes X V) (Registry X V) α :=
  ⟨.initial X V, fun i => (threads i).interp CallOp.run⟩

end Steps

/-! ## Tickets that were given out -/

/-- The server never repeats a ticket. -/
def freshTickets : Surroundings := newTicket Event.ticket?

variable {env : Surroundings}

section Issuing

variable {i : Nat} {G : List Bytes} {α ε : Type}

def Known (t : Bytes) (w : World) : Prop := t ∈ admissions w.log

def KnownAll (G : List Bytes) (w : World) : Prop := ∀ t ∈ G, Known t w

theorem lasting_known (t : Bytes) : Lasting (Known t) := fun _ _ h hw => (h.sublist.filterMap _).subset hw

theorem lasting_knownAll (G : List Bytes) : Lasting (KnownAll G) :=
  fun w w' h hw t ht => lasting_known t w w' h (hw t ht)

/-- What is cached was given out. -/
def CachesKnown (w : World) : Prop := ∀ t, w.cache.ticket = some t → Known t w

def storesKnown : Op → World → Prop
  | .cacheStore t _ _, w => Known t w
  | _, _ => True

theorem CachesKnown.step {o : Op} {r : Res o} {w w' : World} (hw : CachesKnown w) (hstores : storesKnown o w)
    (h : step env i o r w = some w') : CachesKnown w' := by
  intro t ht
  rw [cache_of_step h] at ht
  refine lasting_known t w w' (log_suffix_of_step h) ?_
  cases o with
  | cacheStore s exp now =>
    obtain ⟨rfl, -, -⟩ := TicketCache.store_ticket ht
    exact hstores
  | cacheInvalidate => cases ht
  | _ => exact hw t ht

def issuing : Discipline (client freshTickets) where
  inv := CachesKnown
  pre _ := storesKnown
  keeps hw hstores h := hw.step hstores h

variable {A : World → Prop}

/-- An operation that stores nothing; `B` is what its own turn gives. -/
theorem perform_issuing {o : Op} {B : Res o → World → Prop} (ho : ∀ w, storesKnown o w) (hA : Lasting A)
    (hB : ∀ r, Lasting (B r)) (hstep : ∀ r w w', CachesKnown w → A w → step freshTickets i o r w = some w' → B r w') :
    issuing.Triple i A (Client.perform o) fun r w => A w ∧ B r w := by
  refine perform_spec (fun w _ _ => ho w) ?_ fun r => (hA.and (hB r)).stable
  intro r w w' hw hP h
  exact ⟨hA w w' (log_suffix_of_step h) hP, hstep r w w' hw hP h⟩

/-- An operation whose answer does not matter. -/
theorem pass_issuing {o : Op} (ho : ∀ w, storesKnown o w) (hA : Lasting A) :
    issuing.Triple i A (Client.perform o) fun _ => A :=
  (perform_issuing (B := fun _ _ => True) ho hA (fun _ _ _ _ _ => trivial) fun _ _ _ _ _ _ => trivial).post
    fun _ _ _ h => h.1

/-- What a fetch returns: a ticket that was given out, and none of those given. -/
def Obtained (G : List Bytes) (r : Except ε Bytes) (w : World) : Prop := Returns (fun t => Known t w ∧ t ∉ G) r

theorem lasting_obtained (G : List Bytes) (r : Except ε Bytes) : Lasting (Obtained G r) :=
  fun w w' h hw => hw.mono fun t ht => ⟨lasting_known t w w' h ht.1, ht.2⟩

/-- A new ticket is none of those that were given out before. -/
theorem obtained_admitLocked (G : List Bytes) :
    issuing.Triple i (KnownAll G) Client.admitLocked.run (Obtained G) := by
  have hG := lasting_knownAll G
  refine .bindE (R := fun _ => KnownAll G) ?_ ?_ fun e w _ _ => returns_error e
  · refine .bindE (R := fun _ => KnownAll G) (pass_issuing (fun _ => trivial) hG) ?_ fun _ _ _ h => h
    exact fun _ => .thenE (pass_issuing (fun _ => trivial) hG) fun _ => .ret fun _ _ h => h
  intro _
  refine .bindE (R := fun r w => ∀ t exp, r = .ok (t, exp) → Known t w ∧ t ∉ G) ?_ ?_
    fun e w _ _ => returns_error e
  · refine (perform_issuing (o := .requestAdmit) (A := KnownAll G) (fun _ => trivial) hG ?_ ?_).post fun _ _ _ h => h.2
    · intro r w w' h hw t exp ht
      exact ⟨lasting_known t w w' h (hw t exp ht).1, (hw t exp ht).2⟩
    · rintro r w w' - hP h t exp rfl
      rcases step_requestAdmit.mp h with ⟨⟨e, he⟩, -⟩ | ⟨s, exp', hs, henv, rfl⟩
      · cases he
      · cases hs
        exact ⟨.head _, fun ht => notMem_of_newTicket henv rfl (hP t ht)⟩
  · intro reply
    obtain ⟨t, exp⟩ := reply
    let fetched : Except SeamRpcError Bytes := .ok t
    have hobtained : Lasting (Obtained G fetched) := lasting_obtained G _
    refine .thenE (T := fun _ => Obtained G fetched)
      ((pass_issuing (o := .nowMs) (fun _ => trivial) hobtained).pre ?_) fun now => ?_
    · exact fun w _ h => returns_ok (h t exp rfl)
    · refine .thenE (T := fun _ => Obtained G fetched) ?_ fun _ => .ret fun _ _ h => h
      refine perform_spec (fun w _ h => (h t rfl).1) ?_ fun _ => hobtained.stable
      exact fun _ w w' _ hP h => hobtained w w' (log_suffix_of_step h) hP

theorem withLock_issuing {body : Client α} {Q : Except SeamRpcError α → World → Prop} (hA : Lasting A)
    (hQ : ∀ r, Lasting (Q r)) (hbody : issuing.Triple i A body.run Q) :
    issuing.Triple i A (Client.withLock body).run Q := by
  refine .bind (R := fun _ => A) (pass_issuing (fun _ => trivial) hA) fun _ => .bind hbody fun r => ?_
  exact .bind (R := fun _ => Q r) (pass_issuing (fun _ => trivial) (hQ r)) fun _ => .ret fun _ _ h => h

/-- What a look at the cache gives was given out. -/
theorem look_issuing {f : Option Bytes → Client α} {Q : Except SeamRpcError α → World → Prop}
    (hf : ∀ r, issuing.Triple i (fun w => KnownAll G w ∧ ∀ t, r = some t → Known t w) (f r).run Q) :
    issuing.Triple i (KnownAll G) (Client.nowMs >>= fun now => Client.cacheGet now >>= f).run Q := by
  have hG := lasting_knownAll G
  refine .thenE (pass_issuing (fun _ => trivial) hG) fun now => .thenE ?_ hf
  refine perform_issuing (fun _ => trivial) hG ?_ ?_
  · exact fun r w w' h hw t ht => lasting_known t w w' h (hw t ht)
  · rintro r w w' hw - h t rfl
    have hget := (step_cacheGet.mp h).1.symm
    exact lasting_known t w w' (log_suffix_of_step h) (hw t (TicketCache.get_eq_some_iff.mp hget).1)

/-- A mark at the beginning or at the end. -/
theorem mark_issuing {m : Mark} (hA : Lasting A) :
    issuing.Triple i A (Client.perform (.mark m)) fun _ => A := pass_issuing (fun _ => trivial) hA

theorem fetch_issuing {body : Client Bytes} (hbody : issuing.Triple i (KnownAll G) body.run (Obtained G)) :
    issuing.Triple i (KnownAll G)
      (do Client.op (.mark .fetching); let t ← body; Client.op (.mark (.fetched t)); return t : Client Bytes).run
      (Obtained G) := by
  refine .thenE (mark_issuing (lasting_knownAll G)) fun _ => .bindE hbody ?_ fun e w _ _ => returns_error e
  exact fun t => .thenE (mark_issuing (lasting_obtained G (.ok t))) fun _ => .ret fun _ _ h => h

theorem obtained_ticketFor : issuing.Triple i (KnownAll []) Client.ticketFor.run (Obtained []) := by
  refine fetch_issuing ?_
  refine withLock_issuing (lasting_knownAll []) (lasting_obtained []) (look_issuing fun r => ?_)
  cases r with
  | some t => exact .ret fun w _ h => returns_ok ⟨h.2 t rfl, not_mem_nil⟩
  | none => exact (obtained_admitLocked []).pre fun _ _ h => h.1

/-- **A refresh** returns another ticket than the one that failed. -/
theorem obtained_refreshTicket {failed : Bytes} (hG : ∀ s ∈ G, s = failed) :
    issuing.Triple i (KnownAll G) (Client.refreshTicket failed).run (Obtained G) := by
  refine fetch_issuing ?_
  have hQ : ∀ r : Except SeamRpcError Bytes, Lasting (Obtained G r) := lasting_obtained G
  refine .bind (R := Obtained G) ?_ fun r => .bind (mark_issuing (hQ r)) fun _ => .ret fun _ _ h => h
  refine withLock_issuing (lasting_knownAll _) hQ (look_issuing fun r => ?_)
  cases hr : r.filter (· ≠ failed) with
  | some t =>
    obtain ⟨rfl, hne⟩ := Option.filter_eq_some_iff.mp hr
    refine .ret fun w _ h => returns_ok ⟨h.2 t rfl, fun ht => ?_⟩
    simp [hG t ht] at hne
  | none =>
    refine .thenE (T := fun _ => KnownAll G) ?_ fun _ => obtained_admitLocked G
    exact (pass_issuing (o := .cacheInvalidate) (fun _ => trivial) (lasting_knownAll _)).pre fun _ _ h => h.1

theorem obtained_admitAgent : issuing.Triple i (KnownAll []) Client.admitAgent.run (Obtained []) :=
  withLock_issuing (lasting_knownAll []) (lasting_obtained []) (obtained_admitLocked [])

theorem invalidateTicket_issuing (failed : Bytes) :
    issuing.Triple i (fun _ => True) (Client.invalidateTicket failed).run fun _ _ => True := by
  refine (withLock_issuing (A := KnownAll []) (Q := fun _ _ => True) (lasting_knownAll []) (fun _ _ _ _ _ => trivial)
    (look_issuing fun r => ?_)).pre fun _ _ _ => nofun
  split
  · refine .bind (R := fun _ => KnownAll []) ?_ fun _ => .ret fun _ _ _ => trivial
    exact (pass_issuing (o := .cacheInvalidate) (fun _ => trivial) (lasting_knownAll [])).pre fun _ _ h => h.1
  · exact .ret fun _ _ _ => trivial

theorem forgetBurnedTicket_issuing (ticket : Bytes) (rpc : String) (exc : SeamRpcError) :
    issuing.Triple i (fun _ => True) (Client.forgetBurnedTicket ticket rpc exc).run fun _ _ => True := by
  unfold Client.forgetBurnedTicket
  split
  · refine .bind (invalidateTicket_issuing ticket) fun r => ?_
    exact .bind (mark_issuing fun _ _ _ _ => trivial) fun _ => .ret fun _ _ _ => trivial
  · exact .ret fun _ _ _ => trivial

theorem quiet_issuing {c : Client Unit} (hc : issuing.Triple i (fun _ => True) c.run fun _ _ => True) :
    issuing.Triple i (fun _ => True) (c.run.bind fun _ => .ret ()) fun _ _ => True :=
  .bind hc fun _ => .ret fun _ _ _ => trivial

end Issuing

/-! ## The notes of a thread -/

section Following

variable {X V α : Type}

def notesOf (i : Nat) (notes : List (Nat × Note X V)) : List (Note X V) :=
  notes.filterMap fun n => if n.1 = i then some n.2 else none

theorem notesOf_append_self (i : Nat) (notes : List (Nat × Note X V)) (n : Note X V) :
    notesOf i (notes ++ [(i, n)]) = notesOf i notes ++ [n] := by
  simp [notesOf, filterMap_append]

variable {h : List (Done (CallOp.Ans X V))} {j : Nat}

theorem notesOf_append_other {i : Nat} (h : j ≠ i) (notes : List (Nat × Note X V)) (n : Note X V) :
    notesOf i (notes ++ [(j, n)]) = notesOf i notes := by
  simp [notesOf, filterMap_append, h]

/-- The notes of steps that are over. -/
def noted (h : List (Done (CallOp.Ans X V))) : List (Note X V) := h.flatMap fun d => [.began d.1, .ended d]

theorem noted_append (h : List (Done (CallOp.Ans X V))) (d : Done (CallOp.Ans X V)) :
    noted (h ++ [d]) = noted h ++ [.began d.1] ++ [.ended d] := by
  simp [noted, flatMap_append]

theorem ended_mem_noted {d : Done (CallOp.Ans X V)} : .ended d ∈ noted h ↔ d ∈ h := by
  simp [noted]

/-- The notes of a thread that runs `p`: the steps it has done, and one that it may have begun. -/
def Course (p : Prog (CallOp.Ans X V) α) (notes : List (Note X V)) : Prop :=
  ∃ h p', p.Goes h p' ∧ (notes = noted h ∨ ∃ o, p'.next = some o ∧ notes = noted h ++ [.began o])

/-- What was begun, read off the notes. -/
def begins {β : Type} (f : CallOp → Option β) (notes : List (Note X V)) : List β :=
  notes.filterMap fun
    | .began o => f o
    | .ended _ => none

section Begins

variable {β : Type} {f : CallOp → Option β}

@[simp] theorem begins_nil : begins f ([] : List (Note X V)) = [] := rfl

@[simp] theorem begins_append (notes notes' : List (Note X V)) :
    begins f (notes ++ notes') = begins f notes ++ begins f notes' := filterMap_append

@[simp] theorem begins_began (o : CallOp) : begins f ([.began o] : List (Note X V)) = (f o).toList := by
  cases h : f o <;> simp [begins, h]

@[simp] theorem begins_ended (d : Done (CallOp.Ans X V)) : begins f [.ended d] = [] := rfl

/-- If no more than `n` were begun before any of them, there are no more than one more. -/
theorem length_begins_le {n : Nat} {notes : List (Note X V)} (h : ∀ before o after,
    notes = before ++ .began o :: after → (f o).isSome → (begins f before).length ≤ n) :
    (begins f notes).length ≤ n + 1 := by
  induction notes using List.reverseRecOn with
  | nil => simp
  | append_singleton notes note ih =>
    rw [begins_append, length_append]
    have hbefore : (begins f notes).length ≤ n + 1 :=
      ih fun before o after hnotes => h before o (after ++ [note]) (by simp [hnotes])
    cases note with
    | ended d => simpa using hbefore
    | began o =>
      rw [begins_began]
      cases ho : f o with
      | none => simpa using hbefore
      | some b => simpa using h notes o [] rfl (by simp [ho])

end Begins

/-- The notes when the program is over. -/
def Finished (p : Prog (CallOp.Ans X V) α) (notes : List (Note X V)) (a : α) : Prop :=
  ∃ h, p.Goes h (.ret a) ∧ notes = noted h

section Course

variable {p : Prog (CallOp.Ans X V) α} {o : CallOp} {k : o.Ans X V → Prog (CallOp.Ans X V) α}
  {notes before after : List (Note X V)} {a b : α}

theorem course_ret : Course (.ret a) notes ↔ notes = [] := by
  constructor
  · rintro ⟨h, p', hgoes, hnotes⟩
    obtain ⟨rfl, rfl⟩ := Prog.goes_ret.mp hgoes
    rcases hnotes with rfl | ⟨o, ho, -⟩
    · rfl
    · cases ho
  · rintro rfl
    exact ⟨[], _, .refl _, .inl rfl⟩

theorem course_call : Course (.call o k) notes ↔
    notes = [] ∨ notes = [.began o] ∨ ∃ r rest, notes = .began o :: .ended ⟨o, r⟩ :: rest ∧ Course (k r) rest := by
  constructor
  · rintro ⟨h, p', hgoes, hnotes⟩
    rcases Prog.goes_call.mp hgoes with ⟨rfl, rfl⟩ | ⟨r, h', rfl, hrest⟩
    · rcases hnotes with rfl | ⟨o', ho', rfl⟩
      · exact .inl rfl
      · cases ho'
        exact .inr (.inl rfl)
    · refine .inr (.inr ⟨r, notes.drop 2, ?_⟩)
      rcases hnotes with rfl | ⟨o', ho', rfl⟩
      · exact ⟨rfl, h', p', hrest, .inl rfl⟩
      · exact ⟨rfl, h', p', hrest, .inr ⟨o', ho', rfl⟩⟩
  · rintro (rfl | rfl | ⟨r, rest, rfl, h, p', hgoes, hrest⟩)
    · exact ⟨[], _, .refl _, .inl rfl⟩
    · exact ⟨[], _, .refl _, .inr ⟨o, rfl, rfl⟩⟩
    · refine ⟨⟨o, r⟩ :: h, p', .call hgoes, ?_⟩
      rcases hrest with rfl | ⟨o', ho', rfl⟩
      · exact .inl rfl
      · exact .inr ⟨o', ho', rfl⟩

theorem finished_call : Finished (.call o k) notes a ↔
    ∃ r rest, notes = .began o :: .ended ⟨o, r⟩ :: rest ∧ Finished (k r) rest a := by
  constructor
  · rintro ⟨h, hgoes, rfl⟩
    rcases Prog.goes_call.mp hgoes with ⟨-, hcall⟩ | ⟨r, h', rfl, hrest⟩
    · cases hcall
    · exact ⟨r, noted h', rfl, h', hrest, rfl⟩
  · rintro ⟨r, rest, rfl, h, hgoes, rfl⟩
    exact ⟨⟨o, r⟩ :: h, .call hgoes, rfl⟩

/-- Where a step was begun. -/
theorem Course.began (hcourse : Course p (before ++ .began o :: after)) :
    ∃ h k, p.Goes h (.call o k) ∧ before = noted h := by
  induction p generalizing before with
  | ret a => simp [course_ret] at hcourse
  | call o' k ih =>
    rcases course_call.mp hcourse with hnotes | hnotes | ⟨r, rest, hnotes, hrest⟩
    · simp at hnotes
    · obtain ⟨rfl, hnotes⟩ := append_eq_singleton_iff.mp hnotes |>.resolve_right (by simp)
      cases hnotes
      exact ⟨[], k, .refl _, rfl⟩
    · rcases before with _ | ⟨n, _ | ⟨n', before⟩⟩
      · cases hnotes
        exact ⟨[], k, .refl _, rfl⟩
      · cases hnotes
      · simp only [cons_append, List.cons.injEq] at hnotes
        obtain ⟨rfl, rfl, rfl⟩ := hnotes
        obtain ⟨h, k', hgoes, rfl⟩ := ih r hrest
        exact ⟨⟨o', r⟩ :: h, k', .call hgoes, rfl⟩

/-- Where a step has ended, and what comes after. -/
theorem Course.ended {r : o.Ans X V} (hcourse : Course p (before ++ .ended ⟨o, r⟩ :: after)) :
    ∃ h k, p.Goes h (.call o k) ∧ before = noted h ++ [.began o] ∧ Course (k r) after ∧
      ∀ a, Finished p (before ++ .ended ⟨o, r⟩ :: after) a → Finished (k r) after a := by
  induction p generalizing before with
  | ret a => simp [course_ret] at hcourse
  | call o' k ih =>
    rcases course_call.mp hcourse with hnotes | hnotes | ⟨r', rest, hnotes, hrest⟩
    · simp at hnotes
    · obtain ⟨rfl, hnotes⟩ := append_eq_singleton_iff.mp hnotes |>.resolve_right (by simp)
      cases hnotes
    · rcases before with _ | ⟨n, _ | ⟨n', before⟩⟩
      · cases hnotes
      · cases hnotes
        refine ⟨[], k, .refl _, rfl, hrest, ?_⟩
        intro a ha
        obtain ⟨_, _, hnotes, ha⟩ := finished_call.mp ha
        cases hnotes
        exact ha
      · simp only [cons_append, List.cons.injEq] at hnotes
        obtain ⟨rfl, rfl, rfl⟩ := hnotes
        obtain ⟨h, k', hgoes, rfl, hcourse', hfinished⟩ := ih r' hrest
        refine ⟨⟨o', r'⟩ :: h, k', .call hgoes, rfl, hcourse', ?_⟩
        intro a ha
        obtain ⟨_, _, hnotes, ha⟩ := finished_call.mp ha
        cases hnotes
        exact hfinished a ha

/-- The notes of a program that quits. -/
theorem Course.quits {ok : CallOp → Prop} (hcourse : Course p notes) (hp : p.Quits ok a) (ho : .began o ∈ notes) :
    ok o := by
  obtain ⟨before, after, rfl⟩ := append_of_mem ho
  obtain ⟨h, k, hgoes, -⟩ := hcourse.began
  exact (hp.of_goes hgoes).1

theorem Finished.quits {ok : CallOp → Prop} (hover : Finished p notes b) (hp : p.Quits ok a) : b = a := by
  obtain ⟨h, hgoes, -⟩ := hover
  exact hp.of_goes hgoes

end Course

/-- What is known of an answer. -/
def AnswerKnown : Done (CallOp.Ans X V) → Registry X V → Prop
  | ⟨.ticketFor aid, r⟩, w => Obtained [] r (w.1 aid)
  | ⟨.refreshTicket aid failed, r⟩, w => Obtained [failed] r (w.1 aid)
  | _, _ => True

/-- A program that uses only these identities, and refreshes only what it has fetched. -/
structure Proper (p : Prog (CallOp.Ans X V) α) (may : String → Prop) : Prop where
  uses : ∀ {h o k aid}, p.Goes h (.call o k) → o.aid? = some aid → may aid
  refreshes : ∀ {h aid failed k}, p.Goes h (.call (.refreshTicket aid failed) k) → ⟨.ticketFor aid, .ok failed⟩ ∈ h

section Discipline

variable (p : Prog (CallOp.Ans X V) α) (i : Nat) (may : String → Prop)

/-- What holds while thread `i` runs `p`. -/
structure Follows (w : Registry X V) : Prop where
  caches : ∀ aid, CachesKnown (w.1 aid)
  course : Course p (notesOf i w.2)
  answered : ∀ d, .ended d ∈ notesOf i w.2 → AnswerKnown d w

/-- What a thread owes before an operation: thread `i` uses only its identities, and notes what it does. -/
def owesNote (j : Nat) : Keyed String Op (NoteOp X V) → Registry X V → Prop
  | .on aid o, w => storesKnown o (w.1 aid) ∧ (j = i → may aid)
  | .beside (.note n), w => j = i → Course p (notesOf i w.2 ++ [n]) ∧ ∀ d, n = .ended d → AnswerKnown d w
  | .beside _, _ => True

def writes : Keyed String Op (NoteOp X V) → Prop
  | .beside (.note _) => True
  | _ => False

theorem notes_of_step {o : Keyed String Op (NoteOp X V)} {r : o.Ans Res (NoteOp.Ans X V)} {w w' : Registry X V}
    (h : (registry X V env).step j o r w = some w') :
    (¬writes o ∧ w'.2 = w.2) ∨ ∃ n, o = .beside (.note n) ∧ w'.2 = w.2 ++ [(j, n)] := by
  cases o with
  | on aid o =>
    obtain ⟨v, -, rfl⟩ := step_on.mp h
    exact .inl ⟨id, rfl⟩
  | beside e =>
    obtain ⟨x, hx, rfl⟩ := step_beside.mp h
    cases e with
    | send => exact .inl ⟨id, (Option.some.inj hx).symm⟩
    | fail e => exact .inl ⟨id, (notebook_fail hx).symm⟩
    | note n => exact .inr ⟨n, rfl, (Option.some.inj hx).symm⟩

theorem answerKnown_of_step {o : Keyed String Op (NoteOp X V)} {r : o.Ans Res (NoteOp.Ans X V)} {w w' : Registry X V}
    (h : (registry X V env).step j o r w = some w') {d : Done (CallOp.Ans X V)} (hd : AnswerKnown d w) :
    AnswerKnown d w' := by
  have hlog : ∀ aid, (w.1 aid).log <:+ (w'.1 aid).log := by
    intro aid
    cases o with
    | on key o =>
      obtain ⟨v, hv, rfl⟩ := step_on.mp h
      by_cases haid : aid = key
      · subst haid
        simpa only [Function.update_self] using log_suffix_of_step hv
      · simp only [Function.update_of_ne haid]
        exact suffix_refl _
    | beside e =>
      obtain ⟨x, -, rfl⟩ := step_beside.mp h
      exact suffix_refl _
  obtain ⟨c, a⟩ := d
  cases c with
  | ticketFor aid => exact lasting_obtained [] a _ _ (hlog aid) hd
  | refreshTicket aid failed => exact lasting_obtained [failed] a _ _ (hlog aid) hd
  | admitAgent | invalidateTicket | forgetBurnedTicket | send => trivial

def following : Discipline (registry X V freshTickets) where
  inv := Follows p i
  pre := owesNote p i may
  keeps {j o r w w'} hw howes h := by
    have hcaches : ∀ aid, CachesKnown (w'.1 aid) := by
      intro aid
      cases o with
      | on key o =>
        obtain ⟨v, hv, rfl⟩ := step_on.mp h
        by_cases haid : aid = key
        · subst haid
          simpa only [Function.update_self] using (hw.caches aid).step howes.1 hv
        · simpa only [Function.update_of_ne haid] using hw.caches aid
      | beside e =>
        obtain ⟨x, -, rfl⟩ := step_beside.mp h
        exact hw.caches aid
    rcases notes_of_step h with ⟨-, hnotes⟩ | ⟨n, rfl, hnotes⟩
    · exact ⟨hcaches, hnotes ▸ hw.course, fun d hd => answerKnown_of_step h (hw.answered d (hnotes ▸ hd))⟩
    · by_cases hj : j = i
      · subst hj
        obtain ⟨hcourse, hanswered⟩ := howes rfl
        refine ⟨hcaches, ?_, ?_⟩
        · rw [hnotes, notesOf_append_self]
          exact hcourse
        · intro d hd
          refine answerKnown_of_step h ?_
          rw [hnotes, notesOf_append_self, List.mem_append, List.mem_singleton] at hd
          rcases hd with hd | hd
          · exact hw.answered d hd
          · exact hanswered d hd.symm
      · have hsame : notesOf i w'.2 = notesOf i w.2 := hnotes ▸ notesOf_append_other hj w.2 n
        exact ⟨hcaches, hsame ▸ hw.course, fun d hd => answerKnown_of_step h (hw.answered d (hsame ▸ hd))⟩

variable {p i may}

theorem extends_following : Discipline.Extends (following p i may) issuing fun j aid => j = i → may aid :=
  ⟨fun hw => hw.caches _, Iff.rfl⟩

theorem untouched_notes (N : List (Note X V)) :
    (following p i may).Untouched i (fun o => ¬writes o) fun w => notesOf i w.2 = N := by
  intro j o r w w' _ _ h ho hw
  rcases notes_of_step h with ⟨-, hnotes⟩ | ⟨n, rfl, hnotes⟩
  · exact hnotes ▸ hw
  · by_cases hj : j = i
    · exact absurd trivial (ho hj)
    · rw [hnotes, notesOf_append_other hj]
      exact hw

theorem all_carryOut (o : CallOp) : (o.carryOut (X := X) (V := V)).All fun o => ¬writes o := by
  have hon : ∀ {β : Type} (aid : String) (q : Prog Res β), (q.on aid : Prog (RegistryRes X V) β).All (¬writes ·) := by
    intro β aid q
    refine (Prog.all_on aid q).mono ?_
    rintro _ ⟨o, rfl⟩
    exact id
  have hraising : ∀ r, (raising (X := X) (V := V) r).All (¬writes ·) := by
    intro r
    cases r with
    | ok t => exact trivial
    | error e => exact ⟨id, fun _ => trivial⟩
  cases o with
  | send => exact ⟨id, fun _ => trivial⟩
  | admitAgent | ticketFor | refreshTicket => exact (hon _ _).bind hraising
  | invalidateTicket | forgetBurnedTicket => exact hon _ _

/-- What a refresh needs to return another ticket. -/
def CallOp.Ready : CallOp → Registry X V → Prop
  | .refreshTicket aid failed, w => Known failed (w.1 aid)
  | _, _ => True

theorem raising_following {aid : String} (G : List Bytes) (r : Except SeamRpcError Bytes) :
    (following p i may).Triple j (fun w => Obtained G r (w.1 aid)) (raising r) fun r' w => Obtained G r' (w.1 aid) := by
  cases r with
  | ok t => exact .ret fun w _ h s hs => h s (Except.ok.inj hs ▸ rfl)
  | error e =>
    refine .bind (R := fun _ _ => True) ?_ fun exc => .ret fun w _ _ => returns_error exc
    exact .perform (fun _ _ _ => trivial) (fun _ _ _ _ _ _ => trivial) fun _ => Discipline.stable_true

/-- A fetch on an identity the thread may use. -/
theorem fetch_following {aid : String} (hmay : j = i → may aid) {G : List Bytes} {c : Client Bytes}
    (hc : issuing.Triple j (KnownAll G) c.run (Obtained G)) :
    (following p i may).Triple j (fun w => KnownAll G (w.1 aid)) ((c.run.on aid).bind raising)
      fun r w => Obtained G r (w.1 aid) :=
  .bind (.on extends_following hmay hc) (raising_following G)

/-- A step on an identity the thread may use, except for a refresh. -/
theorem carryOut_plain {o : CallOp} (hmay : ∀ aid, o.aid? = some aid → j = i → may aid)
    (ho : ∀ aid failed, o ≠ .refreshTicket aid failed) :
    (following p i may).Triple j (fun _ => True) o.carryOut fun r => AnswerKnown ⟨o, r⟩ := by
  cases o with
  | send metadata =>
    exact .perform (fun _ _ _ => trivial) (fun _ _ _ _ _ _ => trivial) fun _ => Discipline.stable_true
  | admitAgent aid =>
    exact (fetch_following (hmay aid rfl) obtained_admitAgent).mono (fun _ _ _ => nofun) fun _ _ _ _ => trivial
  | ticketFor aid => exact (fetch_following (hmay aid rfl) obtained_ticketFor).pre fun _ _ _ => nofun
  | refreshTicket aid failed => exact absurd rfl (ho aid failed)
  | invalidateTicket aid failed =>
    exact .on extends_following (hmay aid rfl) (quiet_issuing (invalidateTicket_issuing failed))
  | forgetBurnedTicket aid ticket rpc exc =>
    exact .on extends_following (hmay aid rfl) (quiet_issuing (forgetBurnedTicket_issuing ticket rpc exc))

/-- A step of thread `i`. -/
theorem carryOut_own (o : CallOp) (hmay : ∀ aid, o.aid? = some aid → may aid) :
    (following p i may).Triple i o.Ready o.carryOut fun r => AnswerKnown ⟨o, r⟩ := by
  by_cases ho : ∃ aid failed, o = .refreshTicket aid failed
  · obtain ⟨aid, failed, rfl⟩ := ho
    have hobtained := obtained_refreshTicket (i := i) (G := [failed]) fun s hs => mem_singleton.mp hs
    refine (fetch_following (fun _ => hmay aid rfl) hobtained).pre ?_
    intro w _ h t ht
    exact mem_singleton.mp ht ▸ h
  · push Not at ho
    exact (carryOut_plain (fun aid haid _ => hmay aid haid) ho).pre fun _ _ _ => trivial

/-- A step of another thread. -/
theorem carryOut_other (hj : j ≠ i) (o : CallOp) :
    (following p i may).Triple j (fun _ => True) o.carryOut fun _ _ => True := by
  by_cases ho : ∃ aid failed, o = .refreshTicket aid failed
  · obtain ⟨aid, failed, rfl⟩ := ho
    exact (fetch_following (absurd · hj) (obtained_refreshTicket (G := []) nofun)).mono (fun _ _ _ => nofun)
      fun _ _ _ _ => trivial
  · push Not at ho
    exact (carryOut_plain (fun _ _ => (absurd · hj)) ho).post fun _ _ _ _ => trivial

theorem record_other (hj : j ≠ i) (n : Note X V) :
    (following p i may).Triple j (fun _ => True) (record n) fun _ _ => True :=
  .perform (fun _ _ _ => (absurd · hj)) (fun _ _ _ _ _ _ => trivial) fun _ => Discipline.stable_true

theorem run_other (hj : j ≠ i) (o : CallOp) : (following p i may).Triple j (fun _ => True) o.run fun _ _ => True :=
  .bind (record_other hj _) fun _ => .bind (carryOut_other hj o) fun _ => .bind (record_other hj _) fun _ =>
    .ret fun _ _ _ => trivial

/-- A note of thread `i`, on its course. -/
theorem record_own {N : List (Note X V)} {n : Note X V} (hcourse : Course p (N ++ [n])) :
    (following p i may).Triple i (fun w => notesOf i w.2 = N ∧ ∀ d, n = .ended d → AnswerKnown d w) (record n)
      fun _ w => notesOf i w.2 = N ++ [n] := by
  refine .perform ?_ ?_ fun _ => (untouched_notes _).stable
  · intro w _ h _
    exact ⟨h.1 ▸ hcourse, h.2⟩
  · intro _ w w' _ h hstep
    obtain ⟨x, hx, rfl⟩ := step_beside.mp hstep
    cases hx
    exact h.1 ▸ notesOf_append_self i w.2 n

/-- One step of the program of thread `i`. -/
theorem run_own (hp : Proper p may) {o : CallOp} {k : o.Ans X V → Prog (CallOp.Ans X V) α}
    (hgoes : p.Goes h (.call o k)) : (following p i may).Triple i (fun w => notesOf i w.2 = noted h) o.run
      fun r w => notesOf i w.2 = noted (h ++ [⟨o, r⟩]) := by
  have hbegan : Course p (noted h ++ [.began o]) := ⟨h, _, hgoes, .inr ⟨o, rfl, rfl⟩⟩
  refine .bind ((record_own hbegan).pre fun w _ hw => ⟨hw, fun d hd => by cases hd⟩) fun _ => ?_
  refine .bind (((carryOut_own o fun aid => hp.uses hgoes).frame (all_carryOut o)
    (untouched_notes (noted h ++ [.began o]))).pre ?_) fun r => ?_
  · intro w hinv hw
    refine ⟨?_, hw⟩
    cases o with
    | refreshTicket aid failed =>
      have hfetched := hinv.answered ⟨.ticketFor aid, .ok failed⟩ <| by
        rw [hw]
        exact mem_append_left _ (ended_mem_noted.mpr (hp.refreshes hgoes))
      exact (hfetched failed rfl).1
    | _ => trivial
  · have hended : Course p (noted h ++ [.began o] ++ [.ended ⟨o, r⟩]) :=
      ⟨h ++ [⟨o, r⟩], _, hgoes.snoc r, .inl (noted_append h ⟨o, r⟩).symm⟩
    refine .bind ((record_own hended).pre ?_) fun _ => .ret fun _ _ hw => hw.trans (noted_append h ⟨o, r⟩).symm
    rintro w - ⟨ha, hnotes⟩
    refine ⟨hnotes, ?_⟩
    rintro d hd
    cases hd
    exact ha

theorem interp_own (hp : Proper p may) {q : Prog (CallOp.Ans X V) α} (hgoes : p.Goes h q) :
    (following p i may).Triple i (fun w => notesOf i w.2 = noted h) (q.interp CallOp.run)
      fun a w => Finished p (notesOf i w.2) a := by
  induction q generalizing h with
  | ret a => exact .ret fun w _ hw => ⟨h, hgoes, hw⟩
  | call o k ih => exact .bind (run_own hp hgoes) fun r => ih r (hgoes.snoc r)

/-- **The notes of a thread among others** are those of its program. What it was answered is known, it leaves alone what
belongs to other identities, and when it is over its program is. -/
theorem follows_of_reaches {threads : Nat → Prog (CallOp.Ans X V) α} (hp : Proper (threads i) may)
    {c : Config (RegistryRes X V) (Registry X V) α}
    (hreach : (registry X V freshTickets).Reaches (beginning threads) c) :
    Course (threads i) (notesOf i c.world.2) ∧ (∀ d, .ended d ∈ notesOf i c.world.2 → AnswerKnown d c.world) ∧
    (∀ a, c.threads i = .ret a → Finished (threads i) (notesOf i c.world.2) a) ∧
    ∀ o k r w, c.threads i = .call o k → (registry X V freshTickets).step i o r c.world = some w →
      ∀ aid, ¬may aid → w.1 aid = c.world.1 aid := by
  have hkept : (following (threads i) i may).Kept
      (fun j a w => j = i → Finished (threads i) (notesOf i w.2) a) c := by
    refine Discipline.kept_of_reaches (P := fun j w => j = i → notesOf i w.2 = noted []) hreach ?_ ?_ ?_ ?_
    · refine ⟨fun _ => nofun, ⟨[], threads i, .refl _, .inl rfl⟩, ?_⟩
      intro d hd
      cases hd
    · exact fun _ _ => rfl
    · intro j w w' h hw hj
      subst hj
      exact (untouched_notes _).stable w w' h (hw rfl)
    · intro j
      by_cases hj : j = i
      · subst hj
        exact (interp_own hp (.refl _)).mono (fun w _ hw => hw rfl) fun a w _ hw _ => hw
      · refine (Discipline.Triple.interp (fun o _ => run_other hj o) (Prog.all_true _)).mono ?_ ?_
        · exact fun _ _ _ => trivial
        · exact fun _ _ _ _ hi => absurd hi hj
  refine ⟨hkept.1.course, hkept.1.answered, fun a ha => hkept.post ha rfl, ?_⟩
  intro o k r w hthread hstep aid haid
  have howes := hkept.pre hthread
  cases o with
  | on key o =>
    obtain ⟨v, -, rfl⟩ := step_on.mp hstep
    have hne : aid ≠ key := by
      rintro rfl
      exact haid (howes.2 rfl)
    exact Function.update_of_ne hne _ _
  | beside e =>
    obtain ⟨x, -, rfl⟩ := step_beside.mp hstep
    rfl

end Discipline

end Following

end SeamSdk.PyClient
