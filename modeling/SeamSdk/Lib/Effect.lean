/-!
# Computations with a state that survives an exception

A computation returns or raises, and either way it has changed a state. `handle` is `try … except`, `ensure` is
`try … finally`: what the last block raises takes the place of what was raised before it. `Spec P m Q E` says that from a
state of `P` the computation returns in `Q` or raises in `E`, with a rule for each construct.
-/

namespace Effect

/-- A computation on states `σ` that may raise `ε`. -/
def Run (σ ε α : Type) : Type := σ → Except ε α × σ

section Constructs

variable {σ ε δ α β : Type}

instance : Monad (Run σ ε) where
  pure a := fun s => (.ok a, s)
  bind m f := fun s =>
    match m s with
    | (.ok a, s) => f a s
    | (.error e, s) => (.error e, s)

def raise (e : ε) : Run σ ε α := fun s => (.error e, s)

def ofExcept : Except ε α → Run σ ε α := fun r s => (r, s)

/-- `try: m` with `except e: h e`. -/
def handle (m : Run σ δ α) (h : δ → Run σ ε α) : Run σ ε α := fun s =>
  match m s with
  | (.ok a, s) => (.ok a, s)
  | (.error e, s) => h e s

/-- `try: m` with `finally: f`. -/
def ensure (m : Run σ ε α) (f : Run σ ε Unit) : Run σ ε α := fun s =>
  match m s with
  | (r, s) =>
    match f s with
    | (.ok _, s) => (r, s)
    | (.error e, s) => (.error e, s)

/-! ## One run -/

variable {s s' t : σ} {a : α} {e : ε} {d : δ}

theorem bind_of_ok {m : Run σ ε α} {f : α → Run σ ε β} (h : m s = (.ok a, s')) : (m >>= f) s = f a s' := by
  show (match m s with | (.ok a, s) => f a s | (.error e, s) => (.error e, s)) = f a s'
  rw [h]

theorem bind_of_error {m : Run σ ε α} {f : α → Run σ ε β} (h : m s = (.error e, s')) :
    (m >>= f) s = (.error e, s') := by
  show (match m s with | (.ok a, s) => f a s | (.error e, s) => (.error e, s)) = (.error e, s')
  rw [h]

theorem ofExcept_bind_of_ok {r : Except ε α} {f : α → Run σ ε β} (h : r = .ok a) : (ofExcept r >>= f) s = f a s :=
  bind_of_ok (by rw [h]; rfl)

theorem handle_of_ok {m : Run σ δ α} {h : δ → Run σ ε α} (hm : m s = (.ok a, s')) : handle m h s = (.ok a, s') := by
  rw [handle, hm]

theorem handle_of_error {m : Run σ δ α} {h : δ → Run σ ε α} (hm : m s = (.error d, s')) : handle m h s = h d s' := by
  rw [handle, hm]

theorem ensure_of_ok {m : Run σ ε α} {f : Run σ ε Unit} {r : Except ε α} (hm : m s = (r, s'))
    (hf : f s' = (.ok (), t)) : ensure m f s = (r, t) := by
  rw [ensure, hm]
  dsimp only
  rw [hf]

theorem ensure_of_error {m : Run σ ε α} {f : Run σ ε Unit} {r : Except ε α} (hm : m s = (r, s'))
    (hf : f s' = (.error e, t)) : ensure m f s = (.error e, t) := by
  rw [ensure, hm]
  dsimp only
  rw [hf]

end Constructs

/-! ## Rules -/

section Rules

variable {σ ε δ α β : Type}

/-- The outcome of a computation is in `Q` or in `E`. -/
def Ends (Q : α → σ → Prop) (E : ε → σ → Prop) : Except ε α × σ → Prop
  | (.ok a, s) => Q a s
  | (.error e, s) => E e s

/-- From a state of `P` the computation returns in `Q` or raises in `E`. -/
def Spec (P : σ → Prop) (m : Run σ ε α) (Q : α → σ → Prop) (E : ε → σ → Prop) : Prop := ∀ s, P s → Ends Q E (m s)

variable {P P' : σ → Prop} {Q : α → σ → Prop} {E : ε → σ → Prop}

theorem Spec.pure {a : α} (h : ∀ s, P s → Q a s) : Spec P (Pure.pure a : Run σ ε α) Q E := h

theorem Spec.raise {e : ε} (h : ∀ s, P s → E e s) : Spec P (raise e : Run σ ε α) Q E := h

theorem Spec.ofExcept {r : Except ε α} (hok : ∀ a, r = .ok a → ∀ s, P s → Q a s)
    (herror : ∀ e, r = .error e → ∀ s, P s → E e s) : Spec P (ofExcept r) Q E := by
  intro s hs
  cases r with
  | ok a => exact hok a rfl s hs
  | error e => exact herror e rfl s hs

theorem Spec.mono {Q' : α → σ → Prop} {E' : ε → σ → Prop} {m : Run σ ε α} (h : Spec P m Q E) (hP : ∀ s, P' s → P s)
    (hQ : ∀ a s, Q a s → Q' a s) (hE : ∀ e s, E e s → E' e s) : Spec P' m Q' E' := by
  intro s hs
  have hm := h s (hP s hs)
  rcases hms : m s with ⟨_ | a, s'⟩ <;> rw [hms] at hm
  · exact hE _ _ hm
  · exact hQ _ _ hm

theorem Spec.weaken {E' : ε → σ → Prop} {m : Run σ ε α} (h : Spec P m Q E) (hE : ∀ e s, E e s → E' e s) :
    Spec P m Q E' :=
  h.mono (fun _ hs => hs) (fun _ _ hs => hs) hE

theorem Spec.bind {m : Run σ ε α} {f : α → Run σ ε β} {R : β → σ → Prop} (hm : Spec P m Q E)
    (hf : ∀ a, Spec (Q a) (f a) R E) : Spec P (m >>= f) R E := by
  intro s hs
  have h := hm s hs
  rcases hms : m s with ⟨e | a, s'⟩ <;> rw [hms] at h
  · rw [bind_of_error hms]
    exact h
  · rw [bind_of_ok hms]
    exact hf a s' h

theorem Spec.handle {m : Run σ δ α} {h : δ → Run σ ε α} {D : δ → σ → Prop} (hm : Spec P m Q D)
    (hh : ∀ e, Spec (D e) (h e) Q E) : Spec P (handle m h) Q E := by
  intro s hs
  have hends := hm s hs
  rcases hms : m s with ⟨e | a, s'⟩ <;> rw [hms] at hends
  · rw [handle_of_error hms]
    exact hh e s' hends
  · rw [handle_of_ok hms]
    exact hends

/-- The last block runs in either case, and what it raises is what is raised. -/
theorem Spec.ensure {m : Run σ ε α} {f : Run σ ε Unit} {R : α → σ → Prop} {G : ε → σ → Prop} (hm : Spec P m Q E)
    (hok : ∀ a, Spec (Q a) f (fun _ => R a) G) (herror : ∀ e, Spec (E e) f (fun _ => G e) G) :
    Spec P (ensure m f) R G := by
  intro s hs
  have h := hm s hs
  rcases hms : m s with ⟨e | a, s'⟩ <;> rw [hms] at h
  · have hends := herror e s' h
    rcases hfs : f s' with ⟨e' | u, t⟩ <;> rw [hfs] at hends
    · rw [ensure_of_error hms hfs]
      exact hends
    · rw [ensure_of_ok hms hfs]
      exact hends
  · have hends := hok a s' h
    rcases hfs : f s' with ⟨e' | u, t⟩ <;> rw [hfs] at hends
    · rw [ensure_of_error hms hfs]
      exact hends
    · rw [ensure_of_ok hms hfs]
      exact hends

end Rules

end Effect
