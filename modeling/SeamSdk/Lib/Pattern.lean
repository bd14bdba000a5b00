import Mathlib.Data.List.Basic

/-!
# Patterns of characters

Texts as the numbers of their characters, matched as a whole: a class repeated within bounds (`repeated`), and a
sequence of classes with one character each (`sequenceOf`). What matches classes of ASCII characters is ASCII
(`ascii_of_repeated`, `ascii_of_sequenceOf`).
-/

namespace Pattern

abbrev CharClass := Nat → Bool

def range (lo hi : Char) : CharClass := fun n => lo.toNat ≤ n && n ≤ hi.toNat

def char (c : Char) : CharClass := fun n => n == c.toNat

def oneOf (ps : List CharClass) : CharClass := fun n => ps.any fun p => p n

/-- A class with at least `min` characters, and at most `max` if that is given. -/
def repeated (p : CharClass) (min : Nat) (max : Option Nat) (s : List Nat) : Bool :=
  decide (min ≤ s.length) && max.all (fun m => s.length ≤ m) && s.all p

def sequenceOf : List CharClass → List Nat → Bool
  | [], [] => true
  | p :: ps, n :: s => p n && sequenceOf ps s
  | _, _ => false

/-! ## ASCII -/

def Ascii (p : CharClass) : Prop := ∀ n, p n = true → n < 128

theorem ascii_range {lo hi : Char} (h : hi.toNat < 128) : Ascii (range lo hi) := by
  intro n hn
  simp only [range, Bool.and_eq_true, decide_eq_true_eq] at hn
  omega

theorem ascii_char {c : Char} (h : c.toNat < 128) : Ascii (char c) := by
  intro n hn
  simp only [char, beq_iff_eq] at hn
  omega

theorem ascii_oneOf {ps : List CharClass} (h : ∀ p ∈ ps, Ascii p) : Ascii (oneOf ps) := by
  intro n hn
  obtain ⟨p, hp, hpn⟩ := List.any_eq_true.mp hn
  exact h p hp n hpn

theorem ascii_of_repeated {p : CharClass} {min : Nat} {max : Option Nat} {s : List Nat} (hp : Ascii p)
    (h : repeated p min max s = true) : ∀ n ∈ s, n < 128 := by
  simp only [repeated, Bool.and_eq_true] at h
  exact fun n hn => hp n (List.all_eq_true.mp h.2 n hn)

/-- What each class has, each character has. -/
theorem forall_of_sequenceOf {P : Nat → Prop} : ∀ {ps : List CharClass} {s : List Nat},
    (∀ p ∈ ps, ∀ n, p n = true → P n) → sequenceOf ps s = true → ∀ n ∈ s, P n
  | [], [], _, _ => by simp
  | [], _ :: _, _, h => by cases h
  | _ :: _, [], _, h => by cases h
  | p :: ps, m :: s, hps, h => by
    simp only [sequenceOf, Bool.and_eq_true] at h
    rw [List.forall_mem_cons] at hps ⊢
    exact ⟨hps.1 m h.1, forall_of_sequenceOf hps.2 h.2⟩

theorem ascii_of_sequenceOf {ps : List CharClass} {s : List Nat} (hps : ∀ p ∈ ps, Ascii p)
    (h : sequenceOf ps s = true) : ∀ n ∈ s, n < 128 :=
  forall_of_sequenceOf hps h

/-- The character in each place is of the class in that place. -/
theorem class_of_sequenceOf : ∀ {ps : List CharClass} {s : List Nat}, sequenceOf ps s = true →
    ∀ {i : Nat} {p : CharClass}, ps[i]? = some p → ∃ n, s[i]? = some n ∧ p n = true
  | [], _, _, _, _, hp => by simp at hp
  | _ :: _, [], h, _, _, _ => by cases h
  | q :: ps, m :: s, h, 0, p, hp => by
    simp only [sequenceOf, Bool.and_eq_true] at h
    simp only [List.getElem?_cons_zero, Option.some.injEq] at hp
    exact ⟨m, rfl, hp ▸ h.1⟩
  | q :: ps, m :: s, h, i + 1, p, hp => by
    simp only [sequenceOf, Bool.and_eq_true] at h
    rw [List.getElem?_cons_succ] at hp ⊢
    exact class_of_sequenceOf h.2 hp

/-! ## Sequences that match -/

theorem sequenceOf_append : ∀ {ps qs : List CharClass} {s t : List Nat}, sequenceOf ps s = true →
    sequenceOf qs t = true → sequenceOf (ps ++ qs) (s ++ t) = true
  | [], _, [], _, _, ht => ht
  | [], _, _ :: _, _, h, _ => by cases h
  | _ :: _, _, [], _, h, _ => by cases h
  | p :: ps, qs, n :: s, t, h, ht => by
    rw [sequenceOf, Bool.and_eq_true] at h
    rw [List.cons_append, List.cons_append, sequenceOf, h.1, sequenceOf_append h.2 ht]
    rfl

theorem sequenceOf_chars (cs : List Char) : sequenceOf (cs.map char) (cs.map Char.toNat) = true := by
  induction cs with
  | nil => rfl
  | cons c cs ih =>
    rw [List.map_cons, List.map_cons, sequenceOf, ih, Bool.and_true, char]
    exact beq_self_eq_true c.toNat

theorem sequenceOf_replicate {p : CharClass} : ∀ {s : List Nat}, (∀ n ∈ s, p n = true) →
    sequenceOf (List.replicate s.length p) s = true
  | [], _ => rfl
  | n :: s, h => by
    rw [List.forall_mem_cons] at h
    rw [List.length_cons, List.replicate_succ, sequenceOf, h.1, sequenceOf_replicate h.2]
    rfl

end Pattern
