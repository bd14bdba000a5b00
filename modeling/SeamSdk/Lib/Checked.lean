import Mathlib.Data.List.Forall2

/-!
# Checks that stop at the first refusal

Fallible code is an `Except` computation: `refuse` leaves with an error when its condition holds, `refuseSome` when its
option is filled, `demand` when it is empty. The `_ok` lemmas say exactly when a sequence of such checks succeeds;
callers rewrite with them and never unfold the monad.

A loop is a `foldlM`. When a step succeeds on a condition about its item alone, the loop succeeds when every item
meets it, with the accumulators of the plain fold (`foldlM_ok_iff`). When the condition looks at the state, an
abstraction of what has been read so far takes its place (`foldlM_tracks`).
-/

namespace Checked

open List

variable {ε α β σ : Type}

/-- Leave with `m` when `c` holds. -/
def refuse (c : Prop) [Decidable c] (m : ε) : Except ε Unit := if c then .error m else .ok ()

/-- The value of an option, or leave with `m`. -/
def demand (o : Option α) (m : ε) : Except ε α :=
  match o with
  | some a => .ok a
  | none => .error m

/-- Leave with the message of the value an option holds. -/
def refuseSome (o : Option α) (m : α → ε) : Except ε Unit :=
  match o with
  | some a => .error (m a)
  | none => .ok ()

theorem refuse_ok {c : Prop} [Decidable c] {m : ε} {u : Unit} : refuse c m = .ok u ↔ ¬c := by
  unfold refuse
  split <;> simp [*]

theorem refuse_of {c : Prop} [Decidable c] (h : c) (m : ε) : refuse c m = .error m := if_pos h

theorem refuse_of_not {c : Prop} [Decidable c] (h : ¬c) (m : ε) : refuse c m = .ok () := if_neg h

theorem refuse_congr {c d : Prop} [Decidable c] [Decidable d] (h : c ↔ d) (m : ε) : refuse c m = refuse d m := by
  unfold refuse
  simp only [h]

/-- Two checks in a row with one message. -/
theorem refuse_or {c d : Prop} [Decidable c] [Decidable d] (m : ε) (k : Except ε β) :
    (refuse c m >>= fun _ => refuse d m >>= fun _ => k) = (refuse (c ∨ d) m >>= fun _ => k) := by
  by_cases hc : c
  · rw [refuse_of hc, refuse_of (Or.inl hc)]
    rfl
  · rw [refuse_of_not hc, refuse_congr (or_iff_right hc)]
    rfl

variable {l : List α} {x : Except ε α} {bs : List β} {a : α} {s s' : σ} {b : β}

theorem demand_ok {o : Option α} {m : ε} : demand o m = .ok a ↔ o = some a := by
  cases o <;> simp [demand]

theorem refuseSome_ok {o : Option α} {m : α → ε} {u : Unit} : refuseSome o m = .ok u ↔ o = none := by
  cases o <;> simp [refuseSome]

theorem bind_ok {f : α → Except ε β} : x >>= f = .ok b ↔ ∃ a, x = .ok a ∧ f a = .ok b := by
  cases x <;> simp [bind, Except.bind]

theorem mapError_ok {ε' : Type} {f : ε → ε'} : x.mapError f = .ok a ↔ x = .ok a := by
  cases x <;> simp [Except.mapError]

theorem pure_ok {b : α} : (pure a : Except ε α) = .ok b ↔ a = b := Except.ok.injEq a b ▸ Iff.rfl

theorem throw_ok {e : ε} : (throw e : Except ε α) = .ok a ↔ False := by
  simp [throw, throwThe, MonadExceptOf.throw]

/-- A check made under a condition, and what comes after it. -/
theorem ite_bind_ok {c : Prop} [Decidable c] {x : Except ε Unit} {k : Except ε β} :
    (if c then x >>= fun _ => k else k) = .ok b ↔ (c → x = .ok ()) ∧ k = .ok b := by
  by_cases hc : c
  · rw [if_pos hc, bind_ok]
    exact ⟨fun ⟨(), hx, hk⟩ => ⟨fun _ => hx, hk⟩, fun ⟨hx, hk⟩ => ⟨(), hx hc, hk⟩⟩
  · rw [if_neg hc]
    exact ⟨fun hk => ⟨fun hc' => absurd hc' hc, hk⟩, And.right⟩

theorem exists_ok_of_isOk (h : x.isOk = true) : ∃ a, x = .ok a := by
  cases x with
  | error e => cases h
  | ok a => exact ⟨a, rfl⟩

theorem exists_error_iff : (∃ e, x = .error e) ↔ ∀ a, x ≠ .ok a := by
  cases x with
  | error e => simp
  | ok a => simp

/-- The result of a computation that can be evaluated, with what can be decided of it. -/
theorem exists_ok_of_any {p : α → Prop} [DecidablePred p] (h : (x.toOption.any fun a => p a) = true) :
    ∃ a, x = .ok a ∧ p a := by
  cases x with
  | error e => cases h
  | ok a => exact ⟨a, rfl, of_decide_eq_true h⟩

/-! ## Loops -/

/-- A loop that collects succeeds when every step does. -/
theorem mapM_ok {f : α → Except ε β} : ∀ {l : List α} {bs : List β},
    l.mapM f = .ok bs ↔ List.Forall₂ (fun a b => f a = .ok b) l bs
  | [], bs => by
    rw [mapM_nil, pure_ok, forall₂_nil_left_iff, eq_comm]
  | a :: l, bs => by
    rw [mapM_cons, bind_ok, forall₂_cons_left_iff]
    constructor
    · intro h
      obtain ⟨b, hb, hrest⟩ := h
      obtain ⟨cs, hcs, heq⟩ := bind_ok.mp hrest
      exact ⟨b, cs, hb, mapM_ok.mp hcs, (pure_ok.mp heq).symm⟩
    · intro h
      obtain ⟨b, cs, hb, hcs, rfl⟩ := h
      exact ⟨b, hb, bind_ok.mpr ⟨cs, mapM_ok.mpr hcs, rfl⟩⟩

/-- A step whose result is a function of its item. -/
theorem mapM_ok_map {f : α → Except ε β} {P : α → Prop} {g : α → β} (hf : ∀ {a b}, f a = .ok b ↔ P a ∧ b = g a) :
    l.mapM f = .ok bs ↔ (∀ a ∈ l, P a) ∧ bs = l.map g := by
  rw [mapM_ok]
  simp only [hf]
  induction l generalizing bs with
  | nil => simp
  | cons a l ih =>
    rw [forall₂_cons_left_iff]
    simp only [ih, forall_mem_cons, map_cons]
    constructor
    · rintro ⟨b, cs, ⟨ha, rfl⟩, ⟨hl, rfl⟩, rfl⟩
      exact ⟨⟨ha, hl⟩, rfl⟩
    · rintro ⟨⟨ha, hl⟩, rfl⟩
      exact ⟨_, _, ⟨ha, rfl⟩, ⟨hl, rfl⟩, rfl⟩

/-- Steps that all have a value. -/
theorem mapM_some_map {f : α → Option β} {g : α → β} : ∀ {l : List α}, (∀ a ∈ l, f a = some (g a)) →
    l.mapM f = some (l.map g)
  | [], _ => rfl
  | a :: l, h => by
    rw [forall_mem_cons] at h
    rw [mapM_cons, h.1, mapM_some_map h.2]
    rfl

/-- Demands in a row with one message are one demand. -/
theorem mapM_demand (f : α → Option β) (m : ε) (l : List α) :
    l.mapM (fun a => demand (f a) m) = demand (l.mapM f) m := by
  induction l with
  | nil => rfl
  | cons a l ih =>
    rw [mapM_cons, mapM_cons, ih]
    cases f a with
    | none => rfl
    | some b => cases l.mapM f <;> rfl

/-- An optional value is read back where every value is. -/
theorem option_mapM_map {f : α → β} {g : β → Except ε α} (h : ∀ a, g (f a) = .ok a) (o : Option α) :
    (o.map f).mapM g = .ok o := by
  cases o with
  | none => rfl
  | some a =>
    rw [Option.map_some, Option.mapM_some, h]
    rfl

theorem mapM_ok_mem {f : α → Except ε β} (h : l.mapM f = .ok bs) (ha : a ∈ l) : ∃ b, f a = .ok b := by
  have hall := mapM_ok.mp h
  induction hall with
  | nil => cases ha
  | cons hb hrest ih =>
    rcases mem_cons.mp ha with rfl | ha
    · exact ⟨_, hb⟩
    · exact ih (mapM_ok.mpr hrest) ha

theorem forall₂_imp_mem {R S : α → β → Prop} (h : List.Forall₂ R l bs) (himp : ∀ a ∈ l, ∀ b, R a b → S a b) :
    List.Forall₂ S l bs :=
  ((forall₂_and_left l bs).mpr ⟨himp, h⟩).imp fun _ b h => h.1 b h.2

theorem forall₂_of_map_eq {γ : Type} {f : α → γ} {g : β → γ} {l' : List β} (h : l.map f = l'.map g) :
    List.Forall₂ (fun a b => f a = g b) l l' := by
  have hall : List.Forall₂ Eq (l.map f) (l'.map g) := by rw [forall₂_eq_eq_eq, h]
  exact forall₂_map_right_iff.mp (forall₂_map_left_iff.mp hall)

theorem exists_of_forall₂ {R : α → β → Prop} (h : List.Forall₂ R l bs) (hb : b ∈ bs) : ∃ a ∈ l, R a b := by
  induction h with
  | nil => cases hb
  | cons hab hrest ih =>
    rcases mem_cons.mp hb with rfl | hb
    · exact ⟨_, mem_cons_self, hab⟩
    · obtain ⟨a, ha, hab⟩ := ih hb
      exact ⟨a, mem_cons_of_mem _ ha, hab⟩

theorem foldlM_cons_ok {f : σ → α → Except ε σ} :
    (a :: l).foldlM f s = .ok s' ↔ ∃ t, f s a = .ok t ∧ l.foldlM f t = .ok s' := by
  rw [foldlM_cons, bind_ok]

theorem foldlM_nil_ok {f : σ → α → Except ε σ} : ([] : List α).foldlM f s = .ok s' ↔ s = s' := by
  rw [foldlM_nil, pure_ok]

/-- **A loop with a condition on each item.** -/
theorem foldlM_ok_iff {f : σ → α → Except ε σ} {Q : α → Prop} {g : σ → α → σ}
    (h : ∀ s a s', f s a = .ok s' ↔ Q a ∧ g s a = s') : l.foldlM f s = .ok s' ↔ (∀ a ∈ l, Q a) ∧ l.foldl g s = s' := by
  induction l generalizing s with
  | nil => rw [foldlM_nil_ok]; simp
  | cons a l ih =>
    rw [foldlM_cons_ok, forall_mem_cons, foldl_cons]
    constructor
    · intro hx
      rcases hx with ⟨t, ht, hl⟩
      obtain ⟨hq, rfl⟩ := (h s a t).mp ht
      obtain ⟨hall, hs⟩ := ih.mp hl
      exact ⟨⟨hq, hall⟩, hs⟩
    · intro hx
      rcases hx with ⟨⟨hq, hall⟩, hs⟩
      exact ⟨g s a, (h s a _).mpr ⟨hq, rfl⟩, ih.mpr ⟨hall, hs⟩⟩

/-- A loop none of whose steps fails. -/
theorem exists_foldlM_ok {f : σ → α → Except ε σ} (h : ∀ a ∈ l, ∀ s, ∃ s', f s a = .ok s') (s : σ) :
    ∃ s', l.foldlM f s = .ok s' := by
  induction l generalizing s with
  | nil => exact ⟨s, rfl⟩
  | cons a l ih =>
    rw [forall_mem_cons] at h
    obtain ⟨t, ht⟩ := h.1 s
    rw [foldlM_cons, ht]
    exact ih h.2 t

/-- What each step keeps, the loop keeps. -/
theorem foldlM_keeps {f : σ → α → Except ε σ} {P : σ → Prop} (h : ∀ a ∈ l, ∀ s s', f s a = .ok s' → P s → P s')
    (hs : P s) (hl : l.foldlM f s = .ok s') : P s' := by
  induction l generalizing s with
  | nil =>
    cases hl
    exact hs
  | cons a l ih =>
    rw [forall_mem_cons] at h
    obtain ⟨t, ht, hl⟩ := foldlM_cons_ok.mp hl
    exact ih h.2 (h.1 s t ht hs) hl

/-- One component of the state, where each step changes it on its own. -/
theorem foldlM_component {f : σ → α → Except ε σ} {π : σ → β} {g : β → α → β}
    (h : ∀ {s a s'}, f s a = .ok s' → π s' = g (π s) a) (hl : l.foldlM f s = .ok s') : π s' = l.foldl g (π s) := by
  induction l generalizing s with
  | nil =>
    cases hl
    rfl
  | cons a l ih =>
    obtain ⟨t, ht, hl⟩ := foldlM_cons_ok.mp hl
    rw [ih hl, h ht, foldl_cons]

/-- A loop that passes over some items is one over the others. -/
theorem foldl_filterMap_of {h : α → Option β} {f : σ → α → σ} {g : σ → β → σ} (hnone : ∀ s a, h a = none → f s a = s)
    (hsome : ∀ s a b, h a = some b → f s a = g s b) (l : List α) (s : σ) : l.foldl f s = (l.filterMap h).foldl g s := by
  induction l generalizing s with
  | nil => rfl
  | cons a l ih =>
    cases ha : h a with
    | none => rw [foldl_cons, filterMap_cons_none ha, hnone s a ha, ih]
    | some b => rw [foldl_cons, filterMap_cons_some ha, hsome s a b ha, foldl_cons, ih]

/-- `Q` holds of each item, given the items before it. -/
def Along (Q : List α → α → Prop) : List α → List α → Prop
  | _, [] => True
  | pre, a :: l => Q pre a ∧ Along Q (pre ++ [a]) l

/-- **A loop whose state stands for the items read.** `P pre s` relates the state to the items before it; a step
succeeds exactly when `Q` allows the item after them. -/
theorem foldlM_tracks {f : σ → α → Except ε σ} {P : List α → σ → Prop} {Q : List α → α → Prop}
    (hstep : ∀ pre s a, P pre s → Q pre a → ∃ s', f s a = .ok s' ∧ P (pre ++ [a]) s')
    (hstop : ∀ pre s a s', P pre s → f s a = .ok s' → Q pre a) : ∀ {l pre : List α} {s : σ}, P pre s →
      (Along Q pre l → ∃ s', l.foldlM f s = .ok s' ∧ P (pre ++ l) s') ∧
      (∀ s', l.foldlM f s = .ok s' → Along Q pre l)
  | [], pre, s, hp => by
    refine ⟨fun _ => ⟨s, rfl, by simpa using hp⟩, fun _ _ => trivial⟩
  | a :: l, pre, s, hp => by
    constructor
    · intro h
      rcases h with ⟨hq, hl⟩
      obtain ⟨t, ht, hpt⟩ := hstep pre s a hp hq
      obtain ⟨s', hs', hps⟩ := (foldlM_tracks hstep hstop hpt).1 hl
      refine ⟨s', foldlM_cons_ok.mpr ⟨t, ht, hs'⟩, ?_⟩
      rwa [append_assoc, singleton_append] at hps
    · intro s' hs'
      obtain ⟨t, ht, hl⟩ := foldlM_cons_ok.mp hs'
      have hq := hstop pre s a t hp ht
      obtain ⟨t', ht', hpt⟩ := hstep pre s a hp hq
      obtain rfl : t = t' := Except.ok.inj (ht.symm.trans ht')
      exact ⟨hq, (foldlM_tracks hstep hstop hpt).2 s' hl⟩

section Growing

variable {Q : List α → α → Prop} {R : List α → Prop} (hsnoc : ∀ pre a, R (pre ++ [a]) ↔ R pre ∧ Q pre a)

include hsnoc

/-- A property that grows one item at a time holds of what came before. -/
theorem of_append {pre : List α} (h : R (pre ++ l)) : R pre := by
  induction l generalizing pre with
  | nil => simpa using h
  | cons a l ih =>
    rw [← singleton_append, ← append_assoc] at h
    exact ((hsnoc pre a).mp (ih h)).1

/-- It holds of a whole list when `Q` allows each item. -/
theorem along_iff : ∀ {l pre : List α}, R pre → (Along Q pre l ↔ R (pre ++ l))
  | [], pre, h => by simpa [Along] using h
  | a :: l, pre, h => by
    rw [← singleton_append, ← append_assoc]
    constructor
    · intro hx
      rcases hx with ⟨hq, hl⟩
      exact (along_iff ((hsnoc pre a).mpr ⟨h, hq⟩)).mp hl
    · intro hr
      have hpre := of_append hsnoc hr
      exact ⟨((hsnoc pre a).mp hpre).2, (along_iff hpre).mpr hr⟩

end Growing

/-- **A loop from its start.** It succeeds exactly on the lists with `R`, in a state that stands for them. -/
theorem foldlM_from_start {f : σ → α → Except ε σ} {P : List α → σ → Prop} {Q : List α → α → Prop} {R : List α → Prop}
    (hstep : ∀ pre s a, P pre s → Q pre a → ∃ s', f s a = .ok s' ∧ P (pre ++ [a]) s')
    (hstop : ∀ pre s a s', P pre s → f s a = .ok s' → Q pre a) (hsnoc : ∀ pre a, R (pre ++ [a]) ↔ R pre ∧ Q pre a)
    (hs : P [] s) (hnil : R []) (l : List α) :
    (R l → ∃ s', l.foldlM f s = .ok s' ∧ P l s') ∧ ∀ s', l.foldlM f s = .ok s' → R l ∧ P l s' := by
  obtain ⟨hrun, hback⟩ := foldlM_tracks (l := l) hstep hstop hs
  rw [along_iff hsnoc hnil, nil_append] at hrun
  refine ⟨hrun, fun s' hs' => ?_⟩
  have hr : R l := by
    have := (along_iff hsnoc hnil).mp (hback s' hs')
    rwa [nil_append] at this
  obtain ⟨t, ht, hp⟩ := hrun hr
  obtain rfl : s' = t := Except.ok.inj (hs'.symm.trans ht)
  exact ⟨hr, hp⟩

end Checked
