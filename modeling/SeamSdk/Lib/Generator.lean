import Mathlib.Data.List.Basic

/-!
# Generators that may raise

A generator yields items one by one and then stops or raises. A loop that runs to the end sees the items first and the
exception last, so it ends only where the items can be collected (`foldM_ok`). A loop that returns at the first item it
looks for never sees what comes behind it (`search_eq`).
-/

/-- What a generator yields, and how it ends. -/
inductive Generator (α : Type)
  | stop
  | raise
  | yield (a : α) (rest : Generator α)

namespace Generator

variable {α β σ : Type}

/-- All the items, unless it raises. -/
def collect : Generator α → Option (List α)
  | .stop => some []
  | .raise => none
  | .yield a rest => (collect rest).map (a :: ·)

/-- A loop over all items: the generator raises `e`, the body what it says. -/
def foldM {ε : Type} (e : ε) (f : σ → α → Except ε σ) : σ → Generator α → Except ε σ
  | s, .stop => .ok s
  | _, .raise => .error e
  | s, .yield a rest => (f s a).bind fun s => foldM e f s rest

/-- A loop that returns at the first item `p` accepts. -/
def search (p : α → Option β) : Generator α → Option (Option β)
  | .stop => some none
  | .raise => none
  | .yield a rest =>
    match p a with
    | some b => some (some b)
    | none => search p rest

/-- A loop to the end is one over the items, where they can be collected. -/
theorem foldM_of_collect {ε : Type} {e : ε} {f : σ → α → Except ε σ} {g : Generator α} {l : List α}
    (h : g.collect = some l) (s : σ) : foldM e f s g = l.foldlM f s := by
  induction g generalizing l s with
  | stop =>
    obtain rfl := Option.some.inj h
    rfl
  | raise => cases h
  | yield a rest ih =>
    obtain ⟨l', hl', rfl⟩ := Option.map_eq_some_iff.mp h
    rw [foldM, List.foldlM_cons]
    exact congrArg (Except.bind (f s a)) (funext fun s => ih hl' s)

/-- A loop that reaches the end has seen all items. -/
theorem foldM_ok {ε : Type} {e : ε} {f : σ → α → Except ε σ} {g : Generator α} {s t : σ} (h : foldM e f s g = .ok t) :
    ∃ l, g.collect = some l ∧ l.foldlM f s = .ok t := by
  induction g generalizing s with
  | stop => exact ⟨[], rfl, h⟩
  | raise => cases h
  | yield a rest ih =>
    rw [foldM] at h
    cases hstep : f s a with
    | error e =>
      rw [hstep] at h
      cases h
    | ok u =>
      rw [hstep] at h
      obtain ⟨l, hl, hfold⟩ := ih h
      refine ⟨a :: l, by rw [collect, hl]; rfl, ?_⟩
      rw [List.foldlM_cons, hstep]
      exact hfold

theorem search_eq (p : α → Option β) {g : Generator α} {l : List α} (h : g.collect = some l) :
    search p g = some (l.findSome? p) := by
  induction g generalizing l with
  | stop =>
    obtain rfl := Option.some.inj h
    rfl
  | raise => cases h
  | yield a rest ih =>
    obtain ⟨l', hl', rfl⟩ := Option.map_eq_some_iff.mp h
    rw [search, List.findSome?_cons, ih hl']
    cases p a <;> rfl

/-! ## Items read from the front of a list -/

section Items

variable {next : List β → Option (α × List β)}

/-- The items `next` reads one after another, until nothing is left. Each read is charged to `fuel`. -/
def items (next : List β → Option (α × List β)) : Nat → List β → Generator α
  | _, [] => .stop
  | 0, _ :: _ => .raise
  | fuel + 1, b :: bs =>
    match next (b :: bs) with
    | none => .raise
    | some (a, rest) => .yield a (items next fuel rest)

/-- Where each read takes something, the length of the list is fuel enough. -/
theorem items_fuel (hnext : ∀ {s a r}, next s = some (a, r) → r.length < s.length) :
    ∀ {fuel : Nat} {s : List β}, s.length ≤ fuel → items next fuel s = items next s.length s
  | 0, [], _ => rfl
  | fuel + 1, [], _ => rfl
  | fuel + 1, b :: bs, h => by
    rw [List.length_cons, items, items]
    cases hn : next (b :: bs) with
    | none => rfl
    | some p =>
      have hlt : p.2.length < bs.length + 1 := hnext hn
      have hle : bs.length + 1 ≤ fuel + 1 := h
      dsimp only
      have hmore : items next fuel p.2 = items next p.2.length p.2 := items_fuel hnext (by omega)
      have hleast : items next bs.length p.2 = items next p.2.length p.2 := items_fuel hnext (by omega)
      rw [hmore, hleast]

end Items

end Generator
