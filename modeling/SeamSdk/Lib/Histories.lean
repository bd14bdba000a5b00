import SeamSdk.Lib.Threads
import Mathlib.Data.List.Basic

/-!
# What a program has done

The operations a program has done, with their answers, lead it to what is left of it (`Prog.Goes`). What is left is
over, or about to do its next operation (`Prog.next`). A program quits with a result if it only tidies up before it ends
so (`Prog.Quits`).

- `goes_call`: a program is where it was, or has done its first operation;
- `Goes.snoc`: and then it does the next one;
- `Quits.of_goes`: a program that quits does not change its mind;
- `Guarded.of_goes`: what holds of every operation after what was done before it.
-/

namespace Threads

variable {Op : Type} {Res : Op → Type} {α : Type}

/-- An operation with its answer. -/
abbrev Done (Res : Op → Type) := (o : Op) × Res o

namespace Prog

inductive Goes : Prog Res α → List (Done Res) → Prog Res α → Prop
  | refl (p : Prog Res α) : Goes p [] p
  | call {o : Op} {k : Res o → Prog Res α} {r : Res o} {h : List (Done Res)} {p : Prog Res α} (hrest : Goes (k r) h p) :
      Goes (.call o k) (⟨o, r⟩ :: h) p

def next : Prog Res α → Option Op
  | ret _ => none
  | call o _ => some o

variable {p p' q : Prog Res α} {h h' : List (Done Res)} {o : Op} {k : Res o → Prog Res α} {a : α}

theorem goes_ret : Goes (ret a : Prog Res α) h p ↔ h = [] ∧ p = ret a := by
  constructor
  · intro hgoes
    cases hgoes with
    | refl => exact ⟨rfl, rfl⟩
  · rintro ⟨rfl, rfl⟩
    exact .refl _

theorem goes_call : Goes (call o k) h p ↔ (h = [] ∧ p = call o k) ∨ ∃ r h', h = ⟨o, r⟩ :: h' ∧ Goes (k r) h' p := by
  constructor
  · intro hgoes
    cases hgoes with
    | refl => exact .inl ⟨rfl, rfl⟩
    | call hrest => exact .inr ⟨_, _, rfl, hrest⟩
  · rintro (⟨rfl, rfl⟩ | ⟨r, h', rfl, hrest⟩)
    · exact .refl _
    · exact .call hrest

theorem Goes.snoc (hgoes : Goes p h (.call o k)) (r : Res o) : Goes p (h ++ [⟨o, r⟩]) (k r) := by
  generalize hq : (.call o k : Prog Res α) = q at hgoes
  induction hgoes with
  | refl =>
    subst hq
    exact .call (.refl _)
  | call hrest ih => exact .call (ih hq)

/-- The operations the program still comes to are those given, and it ends with `a`. -/
def Quits (ok : Op → Prop) (a : α) : Prog Res α → Prop
  | ret b => b = a
  | call o k => ok o ∧ ∀ r, (k r).Quits ok a

theorem Quits.of_goes {ok : Op → Prop} (hp : p.Quits ok a) (hgoes : Goes p h p') : p'.Quits ok a := by
  induction hgoes with
  | refl p => exact hp
  | call hrest ih => exact ih (hp.2 _)

/-- Every operation the program comes to, and what it goes on with, is as `P` says after what was done before. -/
def Guarded (P : List (Done Res) → (o : Op) → (Res o → Prog Res α) → Prop) : List (Done Res) → Prog Res α → Prop
  | _, ret _ => True
  | h, call o k => P h o k ∧ ∀ r, Guarded P (h ++ [⟨o, r⟩]) (k r)

theorem Guarded.of_goes {P : List (Done Res) → (o : Op) → (Res o → Prog Res α) → Prop} (hp : Guarded P h' p)
    (hgoes : Goes p h q) : Guarded P (h' ++ h) q := by
  induction hgoes generalizing h' with
  | refl p => simpa using hp
  | @call o k r h p hrest ih => simpa using ih (hp.2 r)

end Prog

end Threads
