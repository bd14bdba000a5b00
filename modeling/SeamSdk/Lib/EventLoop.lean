import SeamSdk.Lib.Threads
import Mathlib.Data.List.Basic

/-!
# An event loop

Asynchronous functions take turns on one thread of control. A function that is running is not interrupted: it runs on
until it awaits something, a reply from outside or a promise. The loop then resumes another function that is ready.
Replies are delivered only when no function is ready.

Functions are programs (`Threads.Prog`) over the operations of `Op`. What the operations of the application do with its
own data is given by a `Machine`.

- `stable_running`: while a function runs, nothing changes that it relies on, whatever it is;
- `suspended_of_step`, `taken_of_step`: giving up the control and taking it leave promises and data alone;
- `promises_of_step`: a promise is made and settled only by the operations for that.
-/

namespace EventLoop

open Threads Option

structure Promise (ρ : Type) where
  maker : Nat
  value : Option ρ

structure Loop (ρ σ : Type) where
  running : Option Nat
  ready : List Nat
  promises : List (Promise ρ)
  /-- Who waits for which promise. -/
  waiters : List (Nat × Nat)
  data : σ

inductive Op (Sync Req ρ : Type)
  /-- A call begins, and is over. -/
  | enter
  | leave
  | sync (o : Sync)
  | promise
  | settle (p : Nat) (r : ρ)
  | suspendOn (p : Nat)
  | resume (p : Nat)
  | yield
  | wake
  | request (q : Req)
  | deliver (q : Req)

section

variable {Sync Req ρ σ : Type} {Ans : Sync → Type} {Reply : Req → Type}

/-- What an operation answers. -/
@[reducible] def Res (Ans : Sync → Type) (Reply : Req → Type) : Op Sync Req ρ → Type
  | .sync o => Ans o
  | .promise => Nat
  | .resume _ => ρ
  | .deliver q => Reply q
  | _ => Unit

structure Machine (Ans : Sync → Type) (Reply : Req → Type) (σ : Type) where
  sync : Nat → (o : Sync) → Ans o → σ → Option σ
  deliver : Nat → (q : Req) → Reply q → σ → Option σ

namespace Loop

variable (l : Loop ρ σ)

def value (p : Nat) : Option ρ := l.promises[p]?.bind Promise.value

/-- Promise `p` was made by function `i`, and this is its value so far. -/
def Has (p i : Nat) (v : Option ρ) : Prop := l.promises[p]? = some ⟨i, v⟩

def Pending (p i : Nat) : Prop := l.Has p i none

def Settled (p i : Nat) : Prop := ∃ r, l.Has p i (some r)

/-- The waiters of the promise are ready. -/
def settle (p : Nat) (r : ρ) : Loop ρ σ :=
  { l with
    promises := l.promises.modify p fun q => { q with value := some r }
    ready := l.ready ++ (l.waiters.filter (·.2 = p)).map (·.1)
    waiters := l.waiters.filter (·.2 ≠ p) }

/-- Who awaits a promise that is settled is ready at once. -/
def suspendOn (i p : Nat) : Loop ρ σ :=
  if (l.value p).isSome then { l with running := none, ready := l.ready ++ [i] }
  else { l with running := none, waiters := l.waiters ++ [(i, p)] }

def take (i : Nat) : Loop ρ σ := { l with running := some i, ready := l.ready.erase i }

end Loop

/-- The turn of function `i`. -/
def step [DecidableEq ρ] (M : Machine Ans Reply σ) (i : Nat) :
    (o : Op Sync Req ρ) → Res Ans Reply o → Loop ρ σ → Option (Loop ρ σ)
  | .enter, _, l => if l.running = none then some { l with running := some i } else none
  | .leave, _, l => if l.running = some i then some { l with running := none } else none
  | .sync o, (r : Ans o), l =>
    if l.running = some i then (M.sync i o r l.data).map fun d => { l with data := d } else none
  | .promise, (p : Nat), l =>
    if l.running = some i ∧ p = l.promises.length then some { l with promises := l.promises ++ [⟨i, none⟩] } else none
  | .settle p r, _, l => if l.running = some i then some (l.settle p r) else none
  | .suspendOn p, _, l => if l.running = some i then some (l.suspendOn i p) else none
  | .resume p, (r : ρ), l =>
    if l.running = none ∧ i ∈ l.ready ∧ l.value p = some r then some (l.take i) else none
  | .yield, _, l => if l.running = some i then some { l with running := none, ready := l.ready ++ [i] } else none
  | .wake, _, l => if l.running = none ∧ i ∈ l.ready then some (l.take i) else none
  | .request _, _, l => if l.running = some i then some { l with running := none } else none
  | .deliver q, (r : Reply q), l =>
    if l.running = none ∧ l.ready = [] then
      (M.deliver i q r l.data).map fun d => { l with running := some i, data := d }
    else none

def system [DecidableEq ρ] (M : Machine Ans Reply σ) : System (Res Ans Reply (ρ := ρ)) (Loop ρ σ) := ⟨step M⟩

/-! ## What a turn does -/

variable [DecidableEq ρ] {M : Machine Ans Reply σ} {i : Nat} {o : Op Sync Req ρ} {r : Res Ans Reply o} {l l' : Loop ρ σ}

theorem step_sync {o : Sync} {r : Ans o} : step M i (.sync o : Op Sync Req ρ) r l = some l' ↔
    l.running = some i ∧ ∃ d, M.sync i o r l.data = some d ∧ l' = { l with data := d } := by
  have hstep : step M i (.sync o : Op Sync Req ρ) r l =
      if l.running = some i then (M.sync i o r l.data).map fun d => { l with data := d } else none := rfl
  rw [hstep, ite_none_right_eq_some, map_eq_some_iff]
  simp only [@eq_comm _ l']

variable {v : Option ρ} {p j : Nat}

theorem step_promise : step M i (.promise : Op Sync Req ρ) p l = some l' ↔
    l.running = some i ∧ p = l.promises.length ∧ l' = { l with promises := l.promises ++ [⟨i, none⟩] } := by
  have hstep : step M i (.promise : Op Sync Req ρ) p l = if l.running = some i ∧ p = l.promises.length then
      some { l with promises := l.promises ++ [⟨i, none⟩] } else none := rfl
  rw [hstep, ite_none_right_eq_some, Option.some.injEq, @eq_comm _ l', and_assoc]

theorem step_settle {v : ρ} {r : Unit} : step M i (.settle p v : Op Sync Req ρ) r l = some l' ↔
    l.running = some i ∧ l' = l.settle p v := by
  unfold step
  rw [ite_none_right_eq_some, Option.some.injEq, @eq_comm _ l']

theorem step_deliver {q : Req} {r : Reply q} : step M i (.deliver q : Op Sync Req ρ) r l = some l' ↔
    (l.running = none ∧ l.ready = []) ∧
      ∃ d, M.deliver i q r l.data = some d ∧ l' = { l with running := some i, data := d } := by
  have hstep : step M i (.deliver q : Op Sync Req ρ) r l = if l.running = none ∧ l.ready = [] then
      (M.deliver i q r l.data).map fun d => { l with running := some i, data := d } else none := rfl
  rw [hstep, ite_none_right_eq_some, map_eq_some_iff]
  simp only [@eq_comm _ l']

/-- The operations that give up the control. -/
def Op.suspends : Op Sync Req ρ → Bool
  | .leave | .suspendOn _ | .yield | .request _ => true
  | _ => false

structure Suspended (i : Nat) (o : Op Sync Req ρ) (l l' : Loop ρ σ) : Prop where
  before : l.running = some i
  after : l'.running = none
  promises : l'.promises = l.promises
  data : l'.data = l.data
  ready : l.ready ⊆ l'.ready
  yield : o = .yield → i ∈ l'.ready

theorem suspended_of_step (h : step M i o r l = some l') (ho : o.suspends = true) : Suspended i o l l' := by
  cases o with
  | leave | request =>
    obtain ⟨hrun, heq⟩ := ite_none_right_eq_some.mp h
    cases heq
    exact ⟨hrun, rfl, rfl, rfl, List.Subset.refl _, nofun⟩
  | yield =>
    obtain ⟨hrun, heq⟩ := ite_none_right_eq_some.mp h
    cases heq
    exact ⟨hrun, rfl, rfl, rfl, List.subset_append_left _ _, fun _ => List.mem_append_right _ (.head _)⟩
  | suspendOn p =>
    obtain ⟨hrun, heq⟩ := ite_none_right_eq_some.mp h
    cases heq
    unfold Loop.suspendOn
    split
    · exact ⟨hrun, rfl, rfl, rfl, List.subset_append_left _ _, nofun⟩
    · exact ⟨hrun, rfl, rfl, rfl, List.Subset.refl _, nofun⟩
  | _ => cases ho

/-- The operations that take the control and do nothing else. -/
def Op.takes : Op Sync Req ρ → Bool
  | .enter | .resume _ | .wake => true
  | _ => false

structure Taken (i : Nat) (l l' : Loop ρ σ) : Prop where
  before : l.running = none
  after : l'.running = some i
  promises : l'.promises = l.promises
  data : l'.data = l.data
  ready : ∀ j ∈ l.ready, j ≠ i → j ∈ l'.ready

theorem taken_of_step (h : step M i o r l = some l') (ho : o.takes = true) : Taken i l l' := by
  cases o with
  | enter =>
    obtain ⟨hrun, heq⟩ := ite_none_right_eq_some.mp h
    cases heq
    exact ⟨hrun, rfl, rfl, rfl, fun _ hj _ => hj⟩
  | wake | resume =>
    obtain ⟨hrun, heq⟩ := ite_none_right_eq_some.mp h
    cases heq
    exact ⟨hrun.1, rfl, rfl, rfl, fun j hj hne => (List.mem_erase_of_ne hne).mpr hj⟩
  | _ => cases ho

theorem running_of_step (h : step M i o r l = some l') : l.running = none ∨ l.running = some i := by
  cases o with
  | enter | resume | wake => exact .inl (taken_of_step h rfl).before
  | leave | suspendOn | yield | request => exact .inr (suspended_of_step h rfl).before
  | sync => exact .inr (step_sync.mp h).1
  | promise => exact .inr (step_promise.mp h).1
  | settle => exact .inr (step_settle.mp h).1
  | deliver => exact .inl (step_deliver.mp h).1.1

/-- The promises after a turn. -/
theorem promises_of_step (h : step M i o r l = some l') :
    l'.promises = l.promises ∨ (o = .promise ∧ l'.promises = l.promises ++ [⟨i, none⟩]) ∨
      ∃ p v, o = .settle p v ∧ l'.promises = l.promises.modify p fun q => { q with value := some v } := by
  cases o with
  | enter | resume | wake => exact .inl (taken_of_step h rfl).promises
  | leave | suspendOn | yield | request => exact .inl (suspended_of_step h rfl).promises
  | sync =>
    obtain ⟨-, d, -, rfl⟩ := step_sync.mp h
    exact .inl rfl
  | promise =>
    obtain ⟨-, -, rfl⟩ := step_promise.mp h
    exact .inr (.inl ⟨rfl, rfl⟩)
  | settle p v =>
    obtain ⟨-, rfl⟩ := step_settle.mp h
    exact .inr (.inr ⟨p, v, rfl, rfl⟩)
  | deliver =>
    obtain ⟨-, d, -, rfl⟩ := step_deliver.mp h
    exact .inl rfl

omit [DecidableEq ρ] in
theorem Loop.Has.unique {v' : Option ρ} (h : l.Has p i v) (h' : l.Has p j v') : i = j ∧ v = v' := by
  unfold Loop.Has at h h'
  rw [h, Option.some.injEq, Promise.mk.injEq] at h'
  exact h'

omit [DecidableEq ρ] in
theorem Loop.Has.promise : ({ l with promises := l.promises ++ [⟨j, none⟩] } : Loop ρ σ).Has p i v ↔
    l.Has p i v ∨ p = l.promises.length ∧ i = j ∧ v = none := by
  unfold Loop.Has
  rw [List.getElem?_append]
  split
  · rename_i hp
    rw [or_iff_left]
    omega
  · rename_i hp
    rw [List.getElem?_eq_none (Nat.not_lt.mp hp), List.getElem?_singleton]
    split
    · rename_i hsub
      simp only [Option.some.injEq, Promise.mk.injEq, reduceCtorEq, false_or]
      constructor
      · rintro ⟨rfl, rfl⟩
        exact ⟨by omega, rfl, rfl⟩
      · rintro ⟨-, rfl, rfl⟩
        exact ⟨rfl, rfl⟩
    · rename_i hsub
      simp only [reduceCtorEq, false_or, false_iff]
      rintro ⟨rfl, -⟩
      exact hsub (Nat.sub_self _)

omit [DecidableEq ρ] in
theorem Loop.Has.settle {q : Nat} {x : ρ} (hq : l.Pending q j) : (l.settle q x).Has p i v ↔
    p ≠ q ∧ l.Has p i v ∨ p = q ∧ i = j ∧ v = some x := by
  unfold Loop.Has Loop.settle
  rw [List.getElem?_modify]
  by_cases hpq : q = p
  · subst hpq
    simp [show l.promises[q]? = some ⟨j, none⟩ from hq, eq_comm]
  · simp [hpq, Ne.symm hpq]

/-- No function touches the promises of another one, if each settles its own. -/
theorem has_of_step (hne : i ≠ j) (h : step M i o r l = some l') (hsettle : ∀ q x, o = .settle q x → l.Pending q i) :
    l'.Has p j v ↔ l.Has p j v := by
  rcases promises_of_step h with heq | ⟨-, heq⟩ | ⟨q, x, rfl, -⟩
  · unfold Loop.Has
    rw [heq]
  · have hmade := Loop.Has.promise (l := l) (i := j) (p := p) (j := i) (v := v)
    unfold Loop.Has at hmade ⊢
    rw [heq, hmade, or_iff_left]
    exact fun hj => hne hj.2.1.symm
  · obtain ⟨-, rfl⟩ := step_settle.mp h
    have hq := hsettle q x rfl
    rw [Loop.Has.settle hq, or_iff_left fun hj => hne hj.2.1.symm, and_iff_right_iff_imp]
    rintro hp rfl
    exact hne (hq.unique hp).1

/-! ## Running without interruption -/

variable {D : Discipline (system (ρ := ρ) M)} {A : Loop ρ σ → Prop}

/-- The function runs, and `A` holds. -/
def Running (i : Nat) (A : Loop ρ σ → Prop) (l : Loop ρ σ) : Prop := l.running = some i ∧ A l

/-- **While a function runs, the others wait.** -/
theorem stable_running : D.Stable i (Running i A) := by
  intro l l' h hl
  obtain ⟨-, j, hne, o, r, -, hstep⟩ := h
  rcases running_of_step hstep with hrun | hrun
  · rw [hl.1] at hrun
    cases hrun
  · rw [hl.1, Option.some.injEq] at hrun
    exact absurd hrun.symm hne

end

end EventLoop
