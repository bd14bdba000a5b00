import SeamSdk.Lib.Threads

/-!
# A family of shared states

A system that has a shared state of its own for every key, and one more state beside them. An operation is one on the
state of a key, or one on the state beside. What was proved of threads that share one state holds of threads that share
the states of a family, as the operations on the other states leave it alone (`Triple.on`).
-/

namespace Threads

/-- An operation on the state of a key, or on the state beside. -/
inductive Keyed (K Op Ext : Type)
  | on (key : K) (o : Op)
  | beside (e : Ext)

variable {K Op Ext : Type} {Res : Op → Type} {ExtRes : Ext → Type} {W X α : Type}

@[reducible] def Keyed.Ans (Res : Op → Type) (ExtRes : Ext → Type) : Keyed K Op Ext → Type
  | .on _ o => Res o
  | .beside e => ExtRes e

/-- The program on the state of a key. -/
def Prog.on (key : K) (p : Prog Res α) : Prog (Keyed.Ans (K := K) Res ExtRes) α :=
  p.interp fun o => Prog.perform (Keyed.on key o)

theorem Prog.all_on (key : K) (p : Prog Res α) :
    (p.on key : Prog (Keyed.Ans (K := K) Res ExtRes) α).All fun o => ∃ o', o = .on key o' := by
  induction p with
  | ret a => exact trivial
  | call o k ih => exact ⟨⟨o, rfl⟩, ih⟩

variable [DecidableEq K]

def System.family (S : System Res W) (T : System ExtRes X) : System (Keyed.Ans (K := K) Res ExtRes) ((K → W) × X) where
  step i
    | .on key o, r, w => (S.step i o r (w.1 key)).map fun v => (Function.update w.1 key v, w.2)
    | .beside e, r, w => (T.step i e r w.2).map fun x => (w.1, x)

variable {S : System Res W} {T : System ExtRes X} {i : Nat} {w w' : (K → W) × X}

theorem step_on {key : K} {o : Op} {r : Res o} : (S.family T).step i (.on key o) r w = some w' ↔
      ∃ v, S.step i o r (w.1 key) = some v ∧ w' = (Function.update w.1 key v, w.2) := by
  unfold System.family
  rw [Option.map_eq_some_iff]
  simp only [eq_comm]

theorem step_beside {e : Ext} {r : ExtRes e} :
    (S.family (K := K) T).step i (.beside e) r w = some w' ↔ ∃ x, T.step i e r w.2 = some x ∧ w' = (w.1, x) := by
  unfold System.family
  rw [Option.map_eq_some_iff]
  simp only [eq_comm]

namespace Discipline

/-- A discipline of the family that asks of the operations on a state what the discipline `D` asks, at the keys a thread
may use. -/
structure Extends (E : Discipline (S.family (K := K) T)) (D : Discipline S) (uses : Nat → K → Prop) : Prop where
  inv : ∀ {w key}, E.inv w → D.inv (w.1 key)
  pre : ∀ {i key o w}, E.pre i (.on key o) w ↔ D.pre i o (w.1 key) ∧ uses i key

variable {E : Discipline (S.family (K := K) T)} {D : Discipline S} {uses : Nat → K → Prop}

/-- What the others do is on the state of the key, or leaves it alone. -/
theorem Extends.rely (hE : Extends E D uses) {key : K} (h : E.Rely i w w') : D.Rely i (w.1 key) (w'.1 key) := by
  induction h with
  | refl => exact .refl
  | tail _ hstep ih =>
    obtain ⟨hinv, j, hne, o, r, hpre, hstep⟩ := hstep
    refine ih.trans ?_
    cases o with
    | on key' o =>
      obtain ⟨v, hv, rfl⟩ := step_on.mp hstep
      by_cases hkey : key = key'
      · subst hkey
        simp only [Function.update_self]
        exact .single ⟨hE.inv hinv, j, hne, o, r, (hE.pre.mp hpre).1, hv⟩
      · simp only [Function.update_of_ne hkey]
        exact .refl
    | beside e =>
      obtain ⟨x, -, rfl⟩ := step_beside.mp hstep
      exact .refl

/-- **A program on the state of a key.** -/
theorem Triple.on (hE : Extends E D uses) {key : K} (hkey : uses i key) {P : W → Prop} {p : Prog Res α}
    {Q : α → W → Prop} (hp : D.Triple i P p Q) :
    E.Triple i (fun w => P (w.1 key)) (p.on key) fun a w => Q a (w.1 key) := by
  have hwp : ∀ w, D.wp i p Q (w.1 key) → E.wp i (p.on key) (fun a w => Q a (w.1 key)) w := by
    clear hp
    induction p with
    | ret a => exact fun w h => h
    | call o k ih =>
      intro w h
      refine ⟨hE.pre.mpr ⟨h.1, hkey⟩, ?_⟩
      intro r w' hstep w'' hrely
      obtain ⟨v, hv, rfl⟩ := step_on.mp hstep
      refine ih r w'' (h.2 r v hv (w''.1 key) ?_)
      simpa only [Function.update_self] using (hE.rely hrely : D.Rely i (Function.update w.1 key v key) (w''.1 key))
  exact fun w hw hP => hwp w (hp (w.1 key) (hE.inv hw) hP)

end Discipline

end Threads
