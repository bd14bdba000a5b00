import SeamSdk.Lib.Checked
import SeamSdk.Lib.Generator

/-!
# Exceptions and the handlers that catch them

A computation raises exceptions of several kinds, and a handler catches some of them (`handle`). When a computation
raises nothing else than what its handler catches (`Only`), the handler leaves no exception behind (`Only.handle`).
-/

namespace Raise

variable {ε α β σ : Type} {caught : ε → Bool}

/-- `try: r` with `except caught: other`. -/
def handle (caught : ε → Bool) (other : α) : Except ε α → Except ε α
  | .ok a => .ok a
  | .error e => if caught e then .ok other else .error e

/-- Nothing is raised that is not caught. -/
def Only (caught : ε → Bool) (r : Except ε α) : Prop := ∀ e, r = .error e → caught e = true

theorem Only.handle {r : Except ε α} (h : Only caught r) (other : α) :
    handle caught other r = .ok (r.toOption.getD other) := by
  cases r with
  | ok a => rfl
  | error e =>
    rw [Raise.handle, if_pos (h e rfl)]
    rfl

theorem only_ok (a : α) : Only caught (.ok a : Except ε α) := by
  intro e h
  cases h

theorem only_demand {e : ε} (he : caught e = true) (o : Option α) : Only caught (Checked.demand o e) := by
  cases o with
  | none =>
    intro e' h
    cases h
    exact he
  | some a => exact only_ok a

theorem Only.bind {r : Except ε α} (h : Only caught r) {f : α → Except ε β} (hf : ∀ a, r = .ok a → Only caught (f a)) :
    Only caught (r >>= f) := by
  cases r with
  | ok a => exact hf a rfl
  | error e =>
    intro e' he
    cases he
    exact h e rfl

/-- **A loop raises only what is caught**, when its generator and its body do. -/
theorem only_foldM {e : ε} (he : caught e = true) {f : σ → α → Except ε σ} (hf : ∀ s a, Only caught (f s a)) (s : σ)
    (items : Generator α) : Only caught (items.foldM e f s) := by
  induction items generalizing s with
  | stop => exact only_ok s
  | raise =>
    intro e' h
    cases h
    exact he
  | yield a rest ih => exact (hf s a).bind fun s _ => ih s

end Raise
