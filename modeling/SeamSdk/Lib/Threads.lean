import Mathlib.Logic.Relation
import Mathlib.Logic.Function.Basic

/-!
# Threads over a shared state

A program is a tree of operations: it is over, or it asks for an operation and goes on with the answer (`Prog`). A
`System` says what an operation of a thread does to the shared state, for each answer it can have. Threads take turns,
one operation at a time (`System.Reaches`).

Threads are reasoned about one by one. A `Discipline` is an invariant of the shared state together with what a thread
owes the others before each of its operations. A thread may then rely on the others: they only do what the discipline
asks of them. `Discipline.wp` is the weakest precondition of a program among such threads.

- `Discipline.Triple.perform`, `Discipline.Triple.bind`, `Discipline.Triple.frame`: the rules for one operation, for two
  programs in a row, and for facts that the operations of a program do not touch;
- `Discipline.Triple.bindE`, `Discipline.Triple.thenE`, `Discipline.Triple.catchE`: the same for programs that can fail;
- `Discipline.Triple.interp`: a program over calls, each call a program itself;
- `Discipline.inv_of_reaches`: if every thread keeps the discipline, the invariant holds wherever a run leads;
- `Discipline.Kept.pre`, `Discipline.Kept.post`: and so does what a thread owes next, or ends with;
- `System.reaches_of_exec`: a run given by its turns and answers;
- `System.Reaches.mono`: the runs of a system that can do more.
-/

namespace Threads

/-! ## Programs -/

inductive Prog {Op : Type} (Res : Op → Type) (α : Type) : Type
  | ret (a : α)
  | call (o : Op) (k : Res o → Prog Res α)

section

variable {Op : Type} {Res : Op → Type} {α β ε W : Type}

variable {p : Prog Res α} {ok : Op → Prop} {Call : Type} {o : Op} {Ans : Call → Type}

namespace Prog

protected def bind : Prog Res α → (α → Prog Res β) → Prog Res β
  | ret a, f => f a
  | call o k, f => call o fun r => (k r).bind f

instance : Monad (Prog Res) where
  pure := ret
  bind := Prog.bind

/-- A single operation. -/
def perform (o : Op) : Prog Res (Res o) := call o ret

/-- A program that does not fail, among programs that can. -/
def liftE (p : Prog Res α) : ExceptT ε (Prog Res) α := .mk (p.bind fun a => .ret (.ok a))

/-- Every operation the program can come to is one of those given. -/
def All (p : Op → Prop) : Prog Res α → Prop
  | ret _ => True
  | call o k => p o ∧ ∀ r, (k r).All p

theorem all_true (p : Prog Res α) : p.All fun _ => True := by
  induction p with
  | ret a => exact trivial
  | call o k ih => exact ⟨trivial, ih⟩

theorem All.mono {ok' : Op → Prop} (hp : p.All ok) (h : ∀ o, ok o → ok' o) : p.All ok' := by
  induction p with
  | ret a => exact trivial
  | call o k ih => exact ⟨h o hp.1, fun r => ih r (hp.2 r)⟩

theorem All.bind {f : α → Prog Res β} (hp : p.All ok) (hf : ∀ a, (f a).All ok) : (p.bind f).All ok := by
  induction p with
  | ret a => exact hf a
  | call o k ih => exact ⟨hp.1, fun r => ih r (hp.2 r)⟩

theorem All.bindE {p : ExceptT ε (Prog Res) α} {f : α → ExceptT ε (Prog Res) β} (hp : p.run.All ok)
    (hf : ∀ a, (f a).run.All ok) : (p >>= f).run.All ok := by
  refine hp.bind ?_
  intro r
  cases r with
  | ok a => exact hf a
  | error e => exact trivial

theorem All.catchE {p : ExceptT ε (Prog Res) α} {handler : ε → ExceptT ε (Prog Res) α} (hp : p.run.All ok)
    (hhandler : ∀ e, (handler e).run.All ok) : (tryCatch p handler).run.All ok := by
  refine hp.bind ?_
  intro r
  cases r with
  | ok a => exact trivial
  | error e => exact hhandler e

/-- The operations a program asks for, as long as there are answers. -/
def asked : Prog Res α → List ((o : Op) → Res o) → List Op
  | call o k, r :: rs => o :: (k (r o)).asked rs
  | _, _ => []

theorem All.asked (hp : p.All ok) {rs : List ((o : Op) → Res o)} (ho : o ∈ p.asked rs) : ok o := by
  induction p generalizing rs with
  | ret a => simp [Prog.asked] at ho
  | call o' k ih =>
    cases rs with
    | nil => simp [Prog.asked] at ho
    | cons r rs =>
      rcases List.mem_cons.mp ho with rfl | ho
      · exact hp.1
      · exact ih _ (hp.2 _) ho

/-- One operation in each of the first two threads. -/
def inTwo (o : Op) : Nat → Prog Res Unit
  | 0 | 1 => call o fun _ => ret ()
  | _ => ret ()

theorem all_inTwo (h : ok o) (i : Nat) : (inTwo o i : Prog Res Unit).All ok := by
  unfold inTwo
  split
  · exact ⟨h, fun _ => trivial⟩
  · exact ⟨h, fun _ => trivial⟩
  · exact trivial

/-- Each operation is carried out by a program. -/
def interp {Call : Type} {Ans : Call → Type} (run : (c : Call) → Prog Res (Ans c)) : Prog Ans α → Prog Res α
  | ret a => ret a
  | call c k => (run c).bind fun r => (k r).interp run

end Prog

/-! ## Runs -/

/-- What an operation of a thread does, if it can be done in this state and have this answer. -/
structure System (Res : Op → Type) (W : Type) where
  step : Nat → (o : Op) → Res o → W → Option W

structure Config (Res : Op → Type) (W α : Type) where
  world : W
  threads : Nat → Prog Res α

namespace System

variable (S : System Res W)

/-- One thread takes its turn. -/
inductive Step : Config Res W α → Config Res W α → Prop
  | turn {c : Config Res W α} {i : Nat} {o : Op} {k : Res o → Prog Res α} {r : Res o} {w : W}
      (hthread : c.threads i = .call o k) (hstep : S.step i o r c.world = some w) :
      Step c ⟨w, Function.update c.threads i (k r)⟩

def Reaches : Config Res W α → Config Res W α → Prop := Relation.ReflTransGen S.Step

/-- The turns in order, each with the answer to whatever the thread asks for. -/
def exec : List (Nat × ((o : Op) → Res o)) → Config Res W α → Option (Config Res W α)
  | [], c => some c
  | (i, answer) :: turns, c =>
    match c.threads i with
    | .ret _ => none
    | .call o k => do
      let w ← S.step i o (answer o) c.world
      exec turns ⟨w, Function.update c.threads i (k (answer o))⟩

theorem reaches_of_exec {turns : List (Nat × ((o : Op) → Res o))} {c c' : Config Res W α}
    (h : S.exec turns c = some c') : S.Reaches c c' := by
  induction turns generalizing c with
  | nil =>
    cases h
    exact .refl
  | cons turn turns ih =>
    obtain ⟨i, answer⟩ := turn
    unfold exec at h
    split at h
    · cases h
    · rename_i o k hthread
      obtain ⟨w, hstep, hrest⟩ := Option.bind_eq_some_iff.mp h
      exact .head (.turn hthread hstep) (ih hrest)

/-- A run of which something is seen at the end. -/
theorem reaches_of_exec_map {β : Type} {turns : List (Nat × ((o : Op) → Res o))} {c : Config Res W α}
    {f : Config Res W α → β} {b : β} (h : (S.exec turns c).map f = some b) : ∃ c', S.Reaches c c' ∧ f c' = b := by
  obtain ⟨c', hc, hb⟩ := Option.map_eq_some_iff.mp h
  exact ⟨c', reaches_of_exec S hc, hb⟩

variable {S}

/-- The runs of a system are runs of any other one that can do what it does. -/
theorem Reaches.mono {S' : System Res W}
    (hstep : ∀ {i o r w w'}, S.step i o r w = some w' → S'.step i o r w = some w') {c c' : Config Res W α}
    (h : S.Reaches c c') : S'.Reaches c c' := by
  refine Relation.ReflTransGen.mono ?_ _ _ h
  rintro _ _ ⟨hthread, h⟩
  exact .turn hthread (hstep h)

end System

/-! ## Disciplines -/

/-- An invariant of the shared state, and what a thread owes the others before each operation to keep it. -/
structure Discipline (S : System Res W) where
  inv : W → Prop
  pre : Nat → Op → W → Prop
  keeps : ∀ {i o r w w'}, inv w → pre i o w → S.step i o r w = some w' → inv w'

namespace Discipline

variable {S : System Res W} (D : Discipline S)

/-- A turn of another thread that keeps the discipline. -/
def RelyStep (i : Nat) (w w' : W) : Prop :=
  D.inv w ∧ ∃ j, j ≠ i ∧ ∃ o r, D.pre j o w ∧ S.step j o r w = some w'

def Rely (i : Nat) : W → W → Prop := Relation.ReflTransGen (D.RelyStep i)

/-- No turn of another thread undoes it. -/
def Stable (i : Nat) (A : W → Prop) : Prop := ∀ w w', D.RelyStep i w w' → A w → A w'

/-- From here the program keeps the discipline, whatever the others do in between, and ends with `Q`. -/
def wp (i : Nat) : Prog Res α → (α → W → Prop) → W → Prop
  | .ret a, Q, w => Q a w
  | .call o k, Q, w =>
    D.pre i o w ∧ ∀ r w', S.step i o r w = some w' → ∀ w'', D.Rely i w' w'' → wp i (k r) Q w''

def Triple (i : Nat) (P : W → Prop) (p : Prog Res α) (Q : α → W → Prop) : Prop :=
  ∀ w, D.inv w → P w → D.wp i p Q w

variable {D} {i : Nat} {P R : W → Prop}

variable {A : W → Prop} {Q' : α → W → Prop} {w : W}

theorem inv_of_rely {w' : W} (h : D.Rely i w w') (hw : D.inv w) : D.inv w' := by
  induction h with
  | refl => exact hw
  | tail _ hstep _ =>
    obtain ⟨hinv, j, -, o, r, hpre, hstep⟩ := hstep
    exact D.keeps hinv hpre hstep

theorem Stable.rely (hA : D.Stable i A) {w' : W} (h : D.Rely i w w') (hw : A w) : A w' := by
  induction h with
  | refl => exact hw
  | tail _ hstep ih => exact hA _ _ hstep ih

theorem Stable.and {B : W → Prop} (hA : D.Stable i A) (hB : D.Stable i B) : D.Stable i fun w => A w ∧ B w :=
  fun w w' h hw => ⟨hA w w' h hw.1, hB w w' h hw.2⟩

theorem stable_true : D.Stable i fun _ => True := fun _ _ _ _ => trivial

variable (D) in
/-- No turn of another thread undoes it, and none of thread `i` with one of the operations given. -/
def Untouched (i : Nat) (ok : Op → Prop) (A : W → Prop) : Prop :=
  ∀ j o r w w', D.inv w → D.pre j o w → S.step j o r w = some w' → (j = i → ok o) → A w → A w'

theorem Untouched.stable (hA : D.Untouched i ok A) : D.Stable i A := by
  intro w w' h hw
  obtain ⟨hinv, j, hne, o, r, hpre, hstep⟩ := h
  exact hA j o r w w' hinv hpre hstep (fun hj => absurd hj hne) hw

theorem Untouched.and {B : W → Prop} (hA : D.Untouched i ok A) (hB : D.Untouched i ok B) :
    D.Untouched i ok fun w => A w ∧ B w :=
  fun j o r w w' hinv hpre hstep hok hw =>
    ⟨hA j o r w w' hinv hpre hstep hok hw.1, hB j o r w w' hinv hpre hstep hok hw.2⟩

/-- The invariant may be used at the end of a program. -/
theorem wp_mono {Q : α → W → Prop} (hQ : ∀ a w, D.inv w → Q a w → Q' a w) (hw : D.inv w) (h : D.wp i p Q w) :
    D.wp i p Q' w := by
  induction p generalizing w with
  | ret a => exact hQ a w hw h
  | call o k ih =>
    refine ⟨h.1, ?_⟩
    intro r w' hstep w'' hrely
    exact ih r (inv_of_rely hrely (D.keeps hw h.1 hstep)) (h.2 r w' hstep w'' hrely)

theorem wp_bind {f : α → Prog Res β} {Q : β → W → Prop} (h : D.wp i p (fun a => D.wp i (f a) Q) w) :
    D.wp i (p.bind f) Q w := by
  induction p generalizing w with
  | ret a => exact h
  | call o k ih =>
    refine ⟨h.1, ?_⟩
    intro r w' hstep w'' hrely
    exact ih r (h.2 r w' hstep w'' hrely)

namespace Triple

theorem ret {a : α} {Q : α → W → Prop} (h : ∀ w, D.inv w → P w → Q a w) : D.Triple i P (.ret a) Q :=
  fun w hw hP => h w hw hP

theorem bind {f : α → Prog Res β} {R : α → W → Prop} {Q : β → W → Prop} (hp : D.Triple i P p R)
    (hf : ∀ a, D.Triple i (R a) (f a) Q) : D.Triple i P (p.bind f) Q := by
  intro w hw hP
  exact wp_bind (wp_mono (fun a w' hw' hR => hf a w' hw' hR) hw (hp w hw hP))

/-- One operation: its own turn gives `Q`, and what the others do then does not undo it. -/
theorem perform {Q : Res o → W → Prop} (hpre : ∀ w, D.inv w → P w → D.pre i o w)
    (hstep : ∀ r w w', D.inv w → P w → S.step i o r w = some w' → Q r w') (hstable : ∀ r, D.Stable i (Q r)) :
    D.Triple i P (Prog.perform o) Q := by
  intro w hw hP
  refine ⟨hpre w hw hP, ?_⟩
  intro r w' h w'' hrely
  exact (hstable r).rely hrely (hstep r w w' hw hP h)

theorem mono {Q : α → W → Prop} (hp : D.Triple i R p Q) (hP : ∀ w, D.inv w → P w → R w)
    (hQ : ∀ a w, D.inv w → Q a w → Q' a w) : D.Triple i P p Q' :=
  fun w hw h => wp_mono hQ hw (hp w hw (hP w hw h))

theorem pre {Q : α → W → Prop} (hp : D.Triple i R p Q) (hP : ∀ w, D.inv w → P w → R w) : D.Triple i P p Q :=
  hp.mono hP fun _ _ _ h => h

theorem post {Q : α → W → Prop} (hp : D.Triple i P p Q) (hQ : ∀ a w, D.inv w → Q a w → Q' a w) : D.Triple i P p Q' :=
  hp.mono (fun _ _ h => h) hQ

theorem exists_pre {X : Type} {T : X → W → Prop} {Q : α → W → Prop} (h : ∀ x, D.Triple i (T x) p Q) :
    D.Triple i (fun w => ∃ x, T x w) p Q := by
  intro w hw hT
  obtain ⟨x, hx⟩ := hT
  exact h x w hw hx

/-- What neither the others nor the operations of the program undo is kept throughout. -/
theorem frame {Q : α → W → Prop} (hp : D.Triple i P p Q) (hok : p.All ok) (hA : D.Untouched i ok A) :
    D.Triple i (fun w => P w ∧ A w) p fun a w => Q a w ∧ A w := by
  have hwp : ∀ w, D.inv w → A w → D.wp i p Q w → D.wp i p (fun a w => Q a w ∧ A w) w := by
    clear hp
    induction p with
    | ret a => exact fun w _ hw h => ⟨h, hw⟩
    | call o k ih =>
      intro w hinv hw h
      refine ⟨h.1, ?_⟩
      intro r w' hstep w'' hrely
      have hw' := hA i o r w w' hinv h.1 hstep (fun _ => hok.1) hw
      exact ih r (hok.2 r) w'' (inv_of_rely hrely (D.keeps hinv h.1 hstep)) (hA.stable.rely hrely hw')
        (h.2 r w' hstep w'' hrely)
  intro w hw h
  exact hwp w hw h.2 (hp w hw h.1)

/-- A program over calls keeps what each call keeps. -/
theorem interp {run : (c : Call) → Prog Res (Ans c)} {ok : Call → Prop}
    (hrun : ∀ c, ok c → D.Triple i P (run c) fun _ => P) {u : Prog Ans α} (hu : u.All ok) :
    D.Triple i P (u.interp run) fun _ => P := by
  induction u with
  | ret a => exact ret fun _ _ h => h
  | call c k ih => exact bind (hrun c hu.1) fun r => ih r (hu.2 r)

/-! ## Programs that can fail -/

theorem bindE {p : ExceptT ε (Prog Res) α} {f : α → ExceptT ε (Prog Res) β} {R : Except ε α → W → Prop}
    {Q : Except ε β → W → Prop} (hp : D.Triple i P p.run R) (hf : ∀ a, D.Triple i (R (.ok a)) (f a).run Q)
    (herror : ∀ e w, D.inv w → R (.error e) w → Q (.error e) w) : D.Triple i P (p >>= f).run Q := by
  refine bind hp ?_
  intro r
  cases r with
  | ok a => exact hf a
  | error e => exact ret (herror e)

/-- First a program that does not fail. -/
theorem thenE {f : α → ExceptT ε (Prog Res) β} {T : α → W → Prop} {Q : Except ε β → W → Prop} (hp : D.Triple i P p T)
    (hf : ∀ a, D.Triple i (T a) (f a).run Q) : D.Triple i P (Prog.liftE p >>= f).run Q := by
  refine bindE (R := fun r w => ∃ a, r = .ok a ∧ T a w) (bind hp ?_) ?_ ?_
  · exact fun a => ret fun w _ h => ⟨a, rfl, h⟩
  · intro a w hw h
    obtain ⟨_, ha, hT⟩ := h
    cases ha
    exact hf a w hw hT
  · intro e w _ h
    obtain ⟨_, ha, -⟩ := h
    cases ha

theorem catchE {p : ExceptT ε (Prog Res) α} {handler : ε → ExceptT ε (Prog Res) α} {R Q : Except ε α → W → Prop}
    (hp : D.Triple i P p.run R) (hhandler : ∀ e, D.Triple i (R (.error e)) (handler e).run Q)
    (hok : ∀ a w, D.inv w → R (.ok a) w → Q (.ok a) w) : D.Triple i P (tryCatch p handler).run Q := by
  refine bind hp ?_
  intro r
  cases r with
  | ok a => exact ret (hok a)
  | error e => exact hhandler e

end Triple

/-- Wherever it is taken up after turns of the others, each thread keeps the discipline and ends with `Q`. -/
def Kept (D : Discipline S) (Q : Nat → α → W → Prop) (c : Config Res W α) : Prop :=
  D.inv c.world ∧ ∀ i w, D.Rely i c.world w → D.wp i (c.threads i) (Q i) w

section Kept

variable {Q : Nat → α → W → Prop} {c c' : Config Res W α}

theorem Kept.step (h : D.Kept Q c) (hstep : S.Step c c') : D.Kept Q c' := by
  obtain ⟨hinv, hthreads⟩ := h
  cases hstep with
  | @turn i o k r w hthread hstep =>
    have hwp := hthreads i c.world .refl
    rw [hthread] at hwp
    refine ⟨D.keeps hinv hwp.1 hstep, ?_⟩
    intro j w' hrely
    by_cases hj : j = i
    · subst hj
      simp only [Function.update_self]
      exact hwp.2 r w hstep w' hrely
    · simp only [Function.update_of_ne hj]
      -- The turn of thread i is one that thread j relies on.
      exact hthreads j w' (.head ⟨hinv, i, Ne.symm hj, o, r, hwp.1, hstep⟩ hrely)

/-- What a thread owes before its next operation. -/
theorem Kept.pre (h : D.Kept Q c) {k : Res o → Prog Res α} (hthread : c.threads i = .call o k) : D.pre i o c.world := by
  have hwp := h.2 i c.world .refl
  rw [hthread] at hwp
  exact hwp.1

/-- What holds when a thread is over. -/
theorem Kept.post (h : D.Kept Q c) {a : α} (hthread : c.threads i = .ret a) : Q i a c.world := by
  have hwp := h.2 i c.world .refl
  rw [hthread] at hwp
  exact hwp

theorem kept_of_reaches {P : Nat → W → Prop} (hreach : S.Reaches c c') (hinv : D.inv c.world)
    (hP : ∀ i, P i c.world) (hstable : ∀ i, D.Stable i (P i)) (hthreads : ∀ i, D.Triple i (P i) (c.threads i) (Q i)) :
    D.Kept Q c' := by
  have hkept : D.Kept Q c := by
    refine ⟨hinv, ?_⟩
    intro i w hrely
    exact hthreads i w (inv_of_rely hrely hinv) ((hstable i).rely hrely (hP i))
  induction hreach with
  | refl => exact hkept
  | tail _ hstep ih => exact ih.step hstep

/-- **A discipline every thread keeps.** -/
theorem inv_of_reaches {P : Nat → W → Prop} (hreach : S.Reaches c c') (hinv : D.inv c.world)
    (hP : ∀ i, P i c.world) (hstable : ∀ i, D.Stable i (P i))
    (hthreads : ∀ i, D.Triple i (P i) (c.threads i) fun _ _ => True) : D.inv c'.world :=
  (kept_of_reaches hreach hinv hP hstable hthreads).1

end Kept

end Discipline

end

end Threads
