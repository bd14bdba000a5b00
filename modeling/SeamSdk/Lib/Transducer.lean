import Mathlib.Data.List.Basic

/-!
# Objects that answer calls

An object is called again and again; each call changes its state and has effects outside (`Transducer`). A run collects
the effects in order.

- `run_append`: a run is that of its first calls and then that of the others;
- `run_keeps`, `effects_of_keeps`: a set of states that no call leaves, and what the calls do there;
- `keeps_or_leaves`: a run keeps to a set of states, up to the call at which it leaves the set.
-/

structure Transducer (σ ι ω : Type) where
  step : σ → ι → σ × List ω

namespace Transducer

variable {σ ι ω : Type} (T : Transducer σ ι ω)

/-- The state after the calls, and their effects. -/
def run (s : σ) : List ι → σ × List ω
  | [] => (s, [])
  | i :: is => ((run (T.step s i).1 is).1, (T.step s i).2 ++ (run (T.step s i).1 is).2)

/-- Each call is as `p` says, in the state it is made in. -/
def Along (p : σ → ι → Prop) (s : σ) : List ι → Prop
  | [] => True
  | i :: is => p s i ∧ Along p (T.step s i).1 is

variable {T} {s : σ} {is js : List ι}

@[simp] theorem run_nil : T.run s [] = (s, []) := rfl

theorem run_cons (i : ι) : T.run s (i :: is) = ((T.run (T.step s i).1 is).1, (T.step s i).2 ++
    (T.run (T.step s i).1 is).2) := rfl

theorem run_append (is js : List ι) :
    T.run s (is ++ js) = ((T.run (T.run s is).1 js).1, (T.run s is).2 ++ (T.run (T.run s is).1 js).2) := by
  induction is generalizing s with
  | nil => rfl
  | cons i is ih => simp only [List.cons_append, run_cons, ih, List.append_assoc]

/-- The calls up to one, that one, and the others. -/
theorem run_append_cons (is : List ι) (i : ι) (js : List ι) :
    T.run s (is ++ i :: js) = ((T.run (T.step (T.run s is).1 i).1 js).1,
      (T.run s is).2 ++ ((T.step (T.run s is).1 i).2 ++ (T.run (T.step (T.run s is).1 i).1 js).2)) := by
  rw [run_append, run_cons]

theorem along_append {p : σ → ι → Prop} : T.Along p s (is ++ js) ↔ T.Along p s is ∧ T.Along p (T.run s is).1 js := by
  induction is generalizing s with
  | nil => simp [Along]
  | cons i is ih => simp only [List.cons_append, Along, ih, run_cons, and_assoc]

/-! ## Sets of states -/

section Keeps

variable {P : σ → Prop}

theorem run_keeps (hstep : ∀ s i, P s → P (T.step s i).1) (hs : P s) (is : List ι) : P (T.run s is).1 := by
  induction is generalizing s with
  | nil => exact hs
  | cons i is ih => exact ih (hstep s i hs)

/-- Where no call leaves a set of states and the state does not matter for what a call does. -/
theorem effects_of_keeps {f : ι → List ω} (hstep : ∀ s i, P s → P (T.step s i).1)
    (hf : ∀ s i, P s → (T.step s i).2 = f i) (hs : P s) (is : List ι) : (T.run s is).2 = is.flatMap f := by
  induction is generalizing s with
  | nil => rfl
  | cons i is ih => rw [run_cons, List.flatMap_cons, hf s i hs, ih (hstep s i hs)]

/-- A run keeps to a set of states, or there is a call at which it leaves the set. -/
theorem keeps_or_leaves (P : σ → Prop) (hs : P s) (is : List ι) :
    (P (T.run s is).1 ∧ T.Along (fun s i => P (T.step s i).1) s is) ∨
    ∃ before i after, is = before ++ i :: after ∧ P (T.run s before).1 ∧
      T.Along (fun s i => P (T.step s i).1) s before ∧ ¬P (T.step (T.run s before).1 i).1 := by
  induction is generalizing s with
  | nil => exact .inl ⟨hs, trivial⟩
  | cons i is ih =>
    by_cases hi : P (T.step s i).1
    · rcases ih hi with ⟨hend, halong⟩ | ⟨before, j, after, rfl, hbefore, halong, hj⟩
      · exact .inl ⟨hend, hi, halong⟩
      · exact .inr ⟨i :: before, j, after, rfl, hbefore, ⟨hi, halong⟩, hj⟩
    · exact .inr ⟨[], i, is, rfl, hs, trivial, hi⟩

end Keeps

end Transducer
