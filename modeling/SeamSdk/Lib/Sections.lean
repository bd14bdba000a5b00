import SeamSdk.Lib.Threads

/-!
# Sections under a lock

Threads share a lock. A `Locking` says which operations are done under the lock and after which answers a thread has it,
so an operation that takes the lock may also fail to. A program keeps to its sections if on every way it does under the
lock what belongs there, and nothing else (`Locking.Sections`).

- `Sections.bind`, `Sections.bindE`, `Sections.catchE`: programs in a row;
- `sections_of_reaches`: if all threads keep to their sections, the one that has the lock is inside a section, and no
  other is;
- `Kept.finish_all`: if a thread that has the lock or finds it free can go on, all of them can run to their ends;
- `Framed.stable`, `under`: what a thread may rely on while it has the lock.
-/

namespace Threads

variable {Op : Type} {Res : Op → Type} {α β ε W : Type}

/-- A lock, the operations that need it, and when it is had after an operation. -/
structure Locking (S : System Res W) where
  holder : W → Option Nat
  before : Op → Bool
  after : (o : Op) → Res o → Bool
  takes : ∀ {i o r w w'}, before o = false → after o r = true → S.step i o r w = some w' →
    holder w = none ∧ holder w' = some i
  gives : ∀ {i o r w w'}, before o = true → after o r = false → S.step i o r w = some w' → holder w' = none
  keeps : ∀ {i o r w w'}, before o = after o r → S.step i o r w = some w' → holder w' = holder w

namespace Locking

variable {S : System Res W} (L : Locking S)

/-- With the lock or without, the program does what it may on every way, and `Q` says whether it ends with the lock. -/
def Sections (Q : α → Bool) : Bool → Prog Res α → Prop
  | has, .ret a => has = Q a
  | has, .call o k => has = L.before o ∧ ∀ r, Sections Q (L.after o r) (k r)

variable {L} {has : Bool} {Q : β → Bool}

theorem Sections.bind {R : α → Bool} {p : Prog Res α} {f : α → Prog Res β} (hp : L.Sections R has p)
    (hf : ∀ a, L.Sections Q (R a) (f a)) : L.Sections Q has (p.bind f) := by
  induction p generalizing has with
  | ret a =>
    obtain rfl : has = R a := hp
    exact hf a
  | call o k ih => exact ⟨hp.1, fun r => ih r (hp.2 r)⟩

theorem Sections.bindE {R : Except ε α → Bool} {Q : Except ε β → Bool} {p : ExceptT ε (Prog Res) α}
    {f : α → ExceptT ε (Prog Res) β} (hp : L.Sections R has p.run) (hf : ∀ a, L.Sections Q (R (.ok a)) (f a).run)
    (herror : ∀ e, R (.error e) = Q (.error e)) : L.Sections Q has (p >>= f).run := by
  refine hp.bind ?_
  intro r
  cases r with
  | ok a => exact hf a
  | error e => exact herror e

theorem Sections.catchE {R Q : Except ε α → Bool} {p : ExceptT ε (Prog Res) α} {handler : ε → ExceptT ε (Prog Res) α}
    (hp : L.Sections R has p.run) (hhandler : ∀ e, L.Sections Q (R (.error e)) (handler e).run)
    (hok : ∀ a, R (.ok a) = Q (.ok a)) : L.Sections Q has (tryCatch p handler).run := by
  refine hp.bind ?_
  intro r
  cases r with
  | ok a => exact hok a
  | error e => exact hhandler e

variable (L) in
/-- Whoever has the lock is inside a section, and nobody else is. -/
def Kept (c : Config Res W α) : Prop :=
  ∀ i, L.Sections (fun _ => false) (decide (L.holder c.world = some i)) (c.threads i)

/-- What a turn does to the holder, for the thread itself and for any other. -/
theorem Kept.turn {c : Config Res W α} {i : Nat} {o : Op} {k : Res o → Prog Res α} {r : Res o} {w : W} (h : L.Kept c)
    (hthread : c.threads i = .call o k) (hstep : S.step i o r c.world = some w) :
    decide (L.holder w = some i) = L.after o r ∧ ∀ j, j ≠ i → (L.holder w = some j ↔ L.holder c.world = some j) := by
  have hi := h i
  rw [hthread] at hi
  obtain ⟨hbefore, -⟩ := hi
  cases hb : L.before o <;> cases ha : L.after o r
  · have hsame := L.keeps (hb.trans ha.symm) hstep
    exact ⟨by rw [hsame, hbefore, hb], fun j _ => by rw [hsame]⟩
  · obtain ⟨hnone, hsome⟩ := L.takes hb ha hstep
    exact ⟨by simp [hsome], fun j hj => by simp [hnone, hsome, Ne.symm hj]⟩
  · have hnone := L.gives hb ha hstep
    have hsome : L.holder c.world = some i := of_decide_eq_true (hbefore.trans hb)
    exact ⟨by simp [hnone], fun j hj => by simp [hnone, hsome, Ne.symm hj]⟩
  · have hsame := L.keeps (hb.trans ha.symm) hstep
    exact ⟨by rw [hsame, hbefore, hb], fun j _ => by rw [hsame]⟩

theorem Kept.step {c c' : Config Res W α} (h : L.Kept c) (hstep : S.Step c c') : L.Kept c' := by
  cases hstep with
  | @turn i o k r w hthread hstep =>
    have hholder := h.turn hthread hstep
    have hi := h i
    rw [hthread] at hi
    intro j
    by_cases hj : j = i
    · subst hj
      simp only [Function.update_self, hholder.1]
      exact hi.2 r
    · simp only [Function.update_of_ne hj, hholder.2 j hj]
      exact h j

/-- **Sections under a lock.** -/
theorem sections_of_reaches {c c' : Config Res W α} (hreach : S.Reaches c c') (hfree : L.holder c.world = none)
    (hthreads : ∀ i, L.Sections (fun _ => false) false (c.threads i)) : L.Kept c' := by
  have hkept : L.Kept c := by
    intro i
    rw [hfree]
    exact hthreads i
  induction hreach with
  | refl => exact hkept
  | tail _ hstep ih => exact ih.step hstep

/-! ## The lock is given back -/

section Finish

variable (L) in
/-- A thread that has the lock, or finds it free, can always go on. -/
def Serves : Prop :=
  ∀ i o w, L.holder w = (if L.before o then some i else none) → ∃ r w', S.step i o r w = some w'

variable {i : Nat}

/-- A thread that has the lock, or finds it free, can run to its end, and leaves the lock free. -/
theorem Kept.finish (hserves : L.Serves) : ∀ {p : Prog Res α} {c : Config Res W α}, c.threads i = p → L.Kept c →
    (∀ j, L.holder c.world = some j → j = i) → ∃ c', S.Reaches c c' ∧ L.Kept c' ∧ L.holder c'.world = none ∧
      (∃ a, c'.threads i = .ret a) ∧ ∀ j, j ≠ i → c'.threads j = c.threads j
  | .ret a, c, hthread, hkept, honly => by
    have hi := hkept i
    rw [hthread] at hi
    refine ⟨c, .refl, hkept, Option.eq_none_iff_forall_ne_some.mpr fun j hj => ?_, ⟨a, hthread⟩, fun _ _ => rfl⟩
    exact of_decide_eq_false hi (honly j hj ▸ hj)
  | .call o k, c, hthread, hkept, honly => by
    have hi := hkept i
    rw [hthread] at hi
    have hholder : L.holder c.world = if L.before o then some i else none := by
      rw [← hi.1]
      by_cases h : L.holder c.world = some i
      · simp [h]
      · simp only [h, decide_false]
        exact Option.eq_none_iff_forall_ne_some.mpr fun j hj => h (honly j hj ▸ hj)
    obtain ⟨r, w, hstep⟩ := hserves i o c.world hholder
    have hturn : S.Step c ⟨w, Function.update c.threads i (k r)⟩ := .turn hthread hstep
    have honly' : ∀ j, L.holder w = some j → j = i := by
      intro j hj
      by_contra hne
      exact hne (honly j (((hkept.turn hthread hstep).2 j hne).mp hj))
    obtain ⟨c', hreach, hkept', hfree, hover, hsame⟩ :=
      Kept.finish hserves (Function.update_self i (k r) c.threads) (hkept.step hturn) honly'
    exact ⟨c', .head hturn hreach, hkept', hfree, hover,
      fun j hj => (hsame j hj).trans (Function.update_of_ne hj _ _)⟩

/-- **Nobody is locked out.** Whoever has the lock, the first `n` threads can all run to their ends. -/
theorem Kept.finish_all (hserves : L.Serves) {c : Config Res W α} (hkept : L.Kept c) :
    ∀ n, ∃ c', S.Reaches c c' ∧ L.Kept c' ∧ L.holder c'.world = none ∧ ∀ i < n, ∃ a, c'.threads i = .ret a
  | 0 => by
    cases hholder : L.holder c.world with
    | none => exact ⟨c, .refl, hkept, hholder, nofun⟩
    | some j =>
      obtain ⟨c', hreach, hkept', hfree, -⟩ := Kept.finish (i := j) hserves rfl hkept fun _ h =>
        Option.some.inj (h.symm.trans hholder)
      exact ⟨c', hreach, hkept', hfree, nofun⟩
  | n + 1 => by
    obtain ⟨c₁, hreach₁, hkept₁, hfree₁, hover₁⟩ := Kept.finish_all hserves hkept n
    obtain ⟨c', hreach, hkept', hfree, hover, hsame⟩ := Kept.finish (i := n) hserves rfl hkept₁ fun j h => by
      cases hfree₁.symm.trans h
    refine ⟨c', hreach₁.trans hreach, hkept', hfree, fun i hi => ?_⟩
    rcases Nat.lt_succ_iff_lt_or_eq.mp hi with hi | rfl
    · obtain ⟨a, ha⟩ := hover₁ i hi
      exact ⟨a, (hsame i (Nat.ne_of_lt hi)).trans ha⟩
    · exact hover

end Finish

/-! ## Disciplines under a lock -/

section Discipline

variable {D : Discipline S} {i : Nat} {A : W → Prop}

variable (L) in
/-- The discipline has threads keep to the lock. -/
def Guards (D : Discipline S) : Prop := ∀ {i o w}, D.pre i o w → L.before o = true → L.holder w = some i

variable (L) in
/-- What the others can do while thread `i` has the lock. -/
def Aside (i : Nat) (w w' : W) : Prop :=
  ∃ j o r, j ≠ i ∧ L.before o = false ∧ L.after o r = false ∧ S.step j o r w = some w'

variable (L) in
def Framed (i : Nat) (A : W → Prop) : Prop := ∀ w w', L.Aside i w w' → A w → A w'

variable (L) in
/-- Thread `i` has the lock, and `A` holds. -/
def Held (i : Nat) (A : W → Prop) (w : W) : Prop := L.holder w = some i ∧ A w

/-- While a thread has the lock, the others only do what is apart from it. -/
theorem Framed.stable (hD : L.Guards D) (hA : L.Framed i A) : D.Stable i (L.Held i A) := by
  intro w w' h hw
  obtain ⟨-, j, hne, o, r, hpre, hstep⟩ := h
  cases hb : L.before o with
  | true =>
    have hj := (hD hpre hb).symm.trans hw.1
    exact absurd (Option.some.inj hj) hne
  | false =>
    cases ha : L.after o r with
    | true =>
      have hnone := (L.takes hb ha hstep).1.symm.trans hw.1
      cases hnone
    | false =>
      have hsame := L.keeps (hb.trans ha.symm) hstep
      exact ⟨hsame.trans hw.1, hA w w' ⟨j, o, r, hne, hb, ha, hstep⟩ hw.2⟩

/-- An operation under the lock. -/
theorem under {o : Op} {B : Res o → W → Prop} (hD : L.Guards D) (hbefore : L.before o = true)
    (hafter : ∀ r, L.after o r = true) (hpre : ∀ w, D.inv w → L.Held i A w → D.pre i o w)
    (hstep : ∀ r w w', D.inv w → L.Held i A w → S.step i o r w = some w' → B r w') (hB : ∀ r, L.Framed i (B r)) :
    D.Triple i (L.Held i A) (Prog.perform o) fun r => L.Held i (B r) := by
  refine .perform hpre ?_ fun r => (hB r).stable hD
  intro r w w' hinv hw h
  exact ⟨(L.keeps (hbefore.trans (hafter r).symm) h).trans hw.1, hstep r w w' hinv hw h⟩

end Discipline

end Locking

end Threads
