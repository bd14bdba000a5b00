import Mathlib.Data.List.Nodup
import Mathlib.Data.List.Infix

/-!
# Chains of records

A record names the head it extends (`prev`) and the head it produces (`next`). A list of records is `Linked` from a
start when each one extends the head before it; its running heads are `heads`. Nothing here fixes how `next` is
computed: what a hash gives is that records with equal `next` agree on `prev` (and on whatever else it hashes), and
that is the hypothesis of the three results.

- `heads_nodup`: if no record leads back to the start, the running heads are pairwise distinct;
- `prefix_of_subset`: then a chain from the same start that draws its records from this one, in any order and with
  any repetition, is a prefix of it;
- `agree_below`: two chains with the same head at position `k` agree on every record below `k`.
-/

namespace HashChain

open List

variable {ρ η : Type*} {prev next : ρ → η}

/-- Every record extends the head before it, starting at `h`. -/
def Linked (prev next : ρ → η) : η → List ρ → Prop
  | _, [] => True
  | h, x :: xs => prev x = h ∧ Linked prev next (next x) xs

/-- The running heads: the start, then the head each record produces. -/
def heads (next : ρ → η) (h : η) (xs : List ρ) : List η := h :: xs.map next

/-- The head after all records. -/
def lastHead (next : ρ → η) (h : η) (xs : List ρ) : η := xs.foldl (fun _ x => next x) h

@[simp] theorem length_heads (h : η) (xs : List ρ) : (heads next h xs).length = xs.length + 1 := by
  simp [heads]

@[simp] theorem heads_zero (h : η) (xs : List ρ) : (heads next h xs)[0]? = some h := rfl

@[simp] theorem heads_succ (h : η) (xs : List ρ) (k : Nat) : (heads next h xs)[k + 1]? = xs[k]?.map next := by
  simp [heads]

@[simp] theorem heads_cons (h : η) (x : ρ) (xs : List ρ) : heads next h (x :: xs) = h :: heads next (next x) xs := rfl

theorem heads_append (h : η) (xs : List ρ) (x : ρ) : heads next h (xs ++ [x]) = heads next h xs ++ [next x] := by
  simp [heads]

@[simp] theorem lastHead_nil (h : η) : lastHead next h [] = h := rfl

@[simp] theorem lastHead_cons (h : η) (x : ρ) (xs : List ρ) :
    lastHead next h (x :: xs) = lastHead next (next x) xs := rfl

@[simp] theorem lastHead_append (h : η) (xs ys : List ρ) :
    lastHead next h (xs ++ ys) = lastHead next (lastHead next h xs) ys := by
  simp [lastHead]

/-- The running head at the end of a chain is its last head. -/
theorem heads_length (h : η) (xs : List ρ) : (heads next h xs)[xs.length]? = some (lastHead next h xs) := by
  induction xs generalizing h with
  | nil => rfl
  | cons x xs ih => simpa using ih (next x)

/-- Running heads past a prefix are the running heads of the rest. -/
theorem heads_drop (h : η) (xs ys : List ρ) (k : Nat) :
    (heads next h (xs ++ ys))[xs.length + k]? = (heads next (lastHead next h xs) ys)[k]? := by
  induction xs generalizing h with
  | nil => simp
  | cons x xs ih =>
    have hk : (x :: xs).length + k = xs.length + k + 1 := by simp; omega
    rw [hk, cons_append, heads_cons, List.getElem?_cons_succ, ih, lastHead_cons]

/-- The head at position `k` is the last head of the first `k` records. -/
theorem lastHead_take : ∀ {h a : η} {xs : List ρ} {k : Nat}, (heads next h xs)[k]? = some a →
    lastHead next h (xs.take k) = a
  | h, a, xs, 0, hk => Option.some.inj ((heads_zero h xs).symm.trans hk)
  | h, a, [], k + 1, hk => by simp at hk
  | h, a, x :: xs, k + 1, hk => by
    rw [heads_cons, List.getElem?_cons_succ] at hk
    rw [take_succ_cons, lastHead_cons]
    exact lastHead_take hk

variable {xs : List ρ} {h : η}

/-- There is a head at each position up to the number of records. -/
theorem heads_eq_some_iff {a : η} {k : Nat} :
    (heads next h xs)[k]? = some a ↔ k ≤ xs.length ∧ lastHead next h (xs.take k) = a := by
  constructor
  · intro hk
    have hlt := (List.getElem?_eq_some_iff.mp hk).1
    rw [length_heads] at hlt
    exact ⟨by omega, lastHead_take hk⟩
  · rintro ⟨hle, rfl⟩
    have hlt : k < (heads next h xs).length := by
      rw [length_heads]
      omega
    have hk := List.getElem?_eq_getElem hlt
    rw [hk, lastHead_take hk]

/-- Cutting at position `k` shifts the running heads by `k`. -/
theorem heads_drop_of_head {a : η} {k : Nat} (hk : (heads next h xs)[k]? = some a) (j : Nat) :
    (heads next a (xs.drop k))[j]? = (heads next h xs)[k + j]? := by
  have hle : k ≤ xs.length := by
    have := (List.getElem?_eq_some_iff.mp hk).1
    rw [length_heads] at this
    omega
  have hcut : (heads next h (xs.take k ++ xs.drop k))[(xs.take k).length + j]? = _ := heads_drop ..
  rw [take_append_drop, lastHead_take hk, length_take_of_le hle] at hcut
  exact hcut.symm

theorem linked_append (h : η) (xs ys : List ρ) :
    Linked prev next h (xs ++ ys) ↔ Linked prev next h xs ∧ Linked prev next (lastHead next h xs) ys := by
  induction xs generalizing h with
  | nil => simp [Linked]
  | cons x xs ih => simp [Linked, ih, and_assoc]

/-- In a chain, record `k` extends running head `k`. -/
theorem heads_prev : ∀ {h : η} {xs : List ρ} {k : Nat} {x : ρ}, Linked prev next h xs → xs[k]? = some x →
    (heads next h xs)[k]? = some (prev x)
  | _, y :: ys, 0, x, hl, hx => by
    simp only [List.getElem?_cons_zero, Option.some.injEq] at hx
    rw [← hx, hl.1]; rfl
  | _, y :: ys, k + 1, x, hl, hx => by
    simp only [List.getElem?_cons_succ] at hx
    simpa using heads_prev hl.2 hx
  | _, [], _, _, _, hx => by simp at hx

/-! ## Distinct heads -/

/-- Running heads only return to the start if some record produces it. -/
theorem heads_succ_ne (hstart : ∀ x ∈ xs, next x ≠ h) (k : Nat) : (heads next h xs)[k + 1]? ≠ some h := by
  rw [heads_succ]
  intro hk
  obtain ⟨x, hx, he⟩ := Option.map_eq_some_iff.mp hk
  exact hstart x (mem_of_getElem? hx) he

/-- Equal running heads sit at equal positions: both steps back to the start together. -/
theorem heads_index_inj (hl : Linked prev next h xs) (hinj : ∀ x ∈ xs, ∀ y ∈ xs, next x = next y → prev x = prev y)
    (hstart : ∀ x ∈ xs, next x ≠ h) :
    ∀ {i j : Nat} {a : η}, (heads next h xs)[i]? = some a → (heads next h xs)[j]? = some a → i = j
  | 0, 0, _, _, _ => rfl
  | 0, j + 1, a, hi, hj => by
    rw [heads_zero, Option.some.injEq] at hi
    subst hi
    exact absurd hj (heads_succ_ne hstart j)
  | i + 1, 0, a, hi, hj => by
    rw [heads_zero, Option.some.injEq] at hj
    subst hj
    exact absurd hi (heads_succ_ne hstart i)
  | i + 1, j + 1, a, hi, hj => by
    rw [heads_succ] at hi hj
    obtain ⟨x, hx, hxa⟩ := Option.map_eq_some_iff.mp hi
    obtain ⟨y, hy, hya⟩ := Option.map_eq_some_iff.mp hj
    have hp := hinj x (mem_of_getElem? hx) y (mem_of_getElem? hy) (hxa.trans hya.symm)
    have hix := heads_prev hl hx
    have hjy := heads_prev hl hy
    rw [← hp] at hjy
    rw [heads_index_inj hl hinj hstart hix hjy]

/-- **No cycle.** If no record leads back to the start, the running heads are pairwise distinct. -/
theorem heads_nodup (hl : Linked prev next h xs) (hinj : ∀ x ∈ xs, ∀ y ∈ xs, next x = next y → prev x = prev y)
    (hstart : ∀ x ∈ xs, next x ≠ h) : (heads next h xs).Nodup := by
  rw [nodup_iff_getElem?_ne_getElem?]
  intro i j hij hj he
  obtain ⟨a, ha⟩ : ∃ a, (heads next h xs)[j]? = some a := ⟨_, List.getElem?_eq_getElem hj⟩
  have := heads_index_inj hl hinj hstart (he.trans ha) ha
  omega

/-! ## Chains drawn from another chain -/

/-- A chain from running head `k` whose records all occur in `xs` continues `xs` from position `k`. -/
theorem prefix_drop_of_subset (hl : Linked prev next h xs) (hnd : (heads next h xs).Nodup) :
    ∀ {ys : List ρ} {k : Nat} {a : η}, (heads next h xs)[k]? = some a → Linked prev next a ys →
      (∀ y ∈ ys, y ∈ xs) → ys <+: xs.drop k
  | [], _, _, _, _, _ => nil_prefix
  | y :: ys, k, a, hk, hy, hsub => by
    obtain ⟨i, hi, hiy⟩ := mem_iff_getElem.mp (hsub y mem_cons_self)
    have hix : xs[i]? = some y := by rw [List.getElem?_eq_getElem hi, hiy]
    -- the head `y` extends occurs once, so `y` is the record at position `k`
    have hik : i = k := by
      have hpi := heads_prev hl hix
      rw [hy.1] at hpi
      have hkl : k < (heads next h xs).length := (List.getElem?_eq_some_iff.mp hk).1
      have hil : i < (heads next h xs).length := (List.getElem?_eq_some_iff.mp hpi).1
      exact (List.Nodup.getElem_inj_iff hnd).mp
        ((List.getElem?_eq_some_iff.mp hpi).2.trans (List.getElem?_eq_some_iff.mp hk).2.symm)
    subst hik
    have hnext : (heads next h xs)[i + 1]? = some (next y) := by rw [heads_succ, hix]; rfl
    have ih := prefix_drop_of_subset hl hnd hnext hy.2 (fun z hz => hsub z (mem_cons_of_mem _ hz))
    rw [drop_eq_getElem_cons hi, hiy]
    exact cons_prefix_cons.mpr ⟨rfl, ih⟩

/-- **Only truncation.** A chain from the same start that only uses records of `xs` is a prefix of `xs`. -/
theorem prefix_of_subset {ys : List ρ} (hl : Linked prev next h xs)
    (hinj : ∀ x ∈ xs, ∀ y ∈ xs, next x = next y → prev x = prev y) (hstart : ∀ x ∈ xs, next x ≠ h)
    (hy : Linked prev next h ys) (hsub : ∀ y ∈ ys, y ∈ xs) : ys <+: xs := by
  simpa using prefix_drop_of_subset hl (heads_nodup hl hinj hstart) (heads_zero h xs) hy hsub

/-! ## Two chains that meet -/

/-- **Agreement below a common head.** If two chains have the same head at position `k`, their records below `k`
are pairwise related by whatever equal `next` implies. -/
theorem agree_below {R : ρ → ρ → Prop} {h' : η} {ys : List ρ} (hx : Linked prev next h xs) (hy : Linked prev next h' ys)
    (hinj : ∀ x ∈ xs, ∀ y ∈ ys, next x = next y → prev x = prev y ∧ R x y) :
    ∀ {k : Nat} {a : η}, (heads next h xs)[k]? = some a → (heads next h' ys)[k]? = some a →
      ∀ i < k, ∃ x y, xs[i]? = some x ∧ ys[i]? = some y ∧ R x y
  | 0, _, _, _, _, hi => absurd hi (Nat.not_lt_zero _)
  | k + 1, a, hxa, hya, i, hi => by
    rw [heads_succ] at hxa hya
    obtain ⟨x, hxk, hxn⟩ := Option.map_eq_some_iff.mp hxa
    obtain ⟨y, hyk, hyn⟩ := Option.map_eq_some_iff.mp hya
    obtain ⟨hp, hr⟩ := hinj x (mem_of_getElem? hxk) y (mem_of_getElem? hyk) (hxn.trans hyn.symm)
    rcases Nat.lt_succ_iff_lt_or_eq.mp hi with hlt | heq
    · have hxp := heads_prev hx hxk
      have hyp := heads_prev hy hyk
      rw [← hp] at hyp
      exact agree_below hx hy hinj hxp hyp i hlt
    · subst heq
      exact ⟨x, y, hxk, hyk, hr⟩

end HashChain
