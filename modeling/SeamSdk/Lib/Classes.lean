import Mathlib.Algebra.GroupWithZero.Nat
import Mathlib.Data.List.Sort

/-!
# Lists and their classes

Elements with one key form a class, which is the list without the others. What is asked of a list element by element,
or pair by pair within a class, is asked of each class; and a stable sort does not mind which comes first, the sorting
or the selection.

- `filter_sortByKey`: sorting commutes with selection;
- `forall_iff_classes`, `pairwise_iff_classes`: what holds of a list, class by class;
- `sum_length_classes`: the classes together have all elements.
-/

namespace Classes

open List

variable {α κ : Type}

/-! ## Sorting -/

section Sorting

variable {r : α → α → Prop} [DecidableRel r] {p : α → Bool} {a : α} {l : List α}

theorem filter_orderedInsert_of_neg (h : p a = false) : (l.orderedInsert r a).filter p = l.filter p := by
  rw [orderedInsert_eq_take_drop, filter_append, filter_cons_of_neg (by simp [h]), ← filter_append,
    takeWhile_append_dropWhile]

theorem orderedInsert_of_forall (h : ∀ b ∈ l, r a b) : l.orderedInsert r a = a :: l := by
  cases l with
  | nil => rfl
  | cons b l => exact orderedInsert_cons_of_le r l (h b mem_cons_self)

/-- In a sorted list, whatever precedes the place of an element precedes it among the selected too. -/
theorem filter_orderedInsert [IsTrans α r] (hl : l.Pairwise r) (h : p a = true) :
    (l.orderedInsert r a).filter p = (l.filter p).orderedInsert r a := by
  induction l with
  | nil => simp [h]
  | cons b l ih =>
    obtain ⟨hb, hl⟩ := pairwise_cons.mp hl
    by_cases hab : r a b
    · have hall : ∀ c ∈ b :: l, r a c := by
        intro c hc
        rcases mem_cons.mp hc with rfl | hc
        · exact hab
        · exact IsTrans.trans _ _ _ hab (hb c hc)
      rw [orderedInsert_of_forall hall, orderedInsert_of_forall fun c hc => hall c (mem_of_mem_filter hc),
        filter_cons_of_pos h]
    · rw [orderedInsert_of_not_le r l hab]
      cases hpb : p b with
      | false => rw [filter_cons_of_neg (by simp [hpb]), filter_cons_of_neg (by simp [hpb]), ih hl]
      | true =>
        rw [filter_cons_of_pos hpb, filter_cons_of_pos hpb, orderedInsert_of_not_le r _ hab, ih hl]

/-- **A stable sort commutes with selection.** -/
theorem filter_insertionSort [IsTrans α r] [Std.Total r] (l : List α) :
    (l.insertionSort r).filter p = (l.filter p).insertionSort r := by
  induction l with
  | nil => rfl
  | cons a l ih =>
    rw [insertionSort_cons]
    cases h : p a with
    | false => rw [filter_orderedInsert_of_neg h, ih, filter_cons_of_neg (by simp [h])]
    | true =>
      rw [filter_orderedInsert (pairwise_insertionSort r l) h, ih, filter_cons_of_pos h,
        insertionSort_cons]

variable (key : α → UInt64)

/-- `sort_by_key`, which is stable. -/
def sortByKey (l : List α) : List α := l.insertionSort fun a b => key a ≤ key b

theorem sortByKey_perm (l : List α) : (sortByKey key l).Perm l := perm_insertionSort _ l

theorem total_key : Std.Total fun a b : α => key a ≤ key b := ⟨fun a b => UInt64.le_total (key a) (key b)⟩

theorem trans_key : IsTrans α fun a b => key a ≤ key b := ⟨fun _ _ _ => UInt64.le_trans⟩

theorem sortByKey_pairwise (l : List α) : (sortByKey key l).Pairwise fun a b => key a ≤ key b := by
  have := total_key key
  have := trans_key key
  exact pairwise_insertionSort _ l

theorem filter_sortByKey (l : List α) : (sortByKey key l).filter p = sortByKey key (l.filter p) := by
  have := total_key key
  have := trans_key key
  exact filter_insertionSort l

end Sorting

/-! ## Class by class -/

section Keys

variable [DecidableEq κ] (key : α → κ) {l : List α}

theorem forall_iff_classes {P : α → Prop} :
    (∀ a ∈ l, P a) ↔ ∀ k ∈ l.map key, ∀ a ∈ l.filter fun a => key a == k, P a := by
  constructor
  · intro h k _ a ha
    exact h a (mem_of_mem_filter ha)
  · intro h a ha
    exact h (key a) (mem_map_of_mem ha) a (mem_filter.mpr ⟨ha, by simp⟩)

/-- Elements of different classes have to be related beforehand. -/
theorem pairwise_iff_classes {R : α → α → Prop} (hR : ∀ a ∈ l, ∀ b ∈ l, key a ≠ key b → R a b) :
    l.Pairwise R ↔ ∀ k ∈ l.map key, (l.filter fun a => key a == k).Pairwise R := by
  constructor
  · intro h k _
    exact h.filter _
  · intro h
    rw [pairwise_iff_getElem]
    intro i j hi hj hij
    by_cases heq : key l[i] = key l[j]
    · have hk := pairwise_filter.mp (h (key l[i]) (mem_map_of_mem (getElem_mem hi)))
      exact pairwise_iff_getElem.mp hk i j hi hj hij (by simp) (by simp [heq])
    · exact hR _ (getElem_mem hi) _ (getElem_mem hj) heq

/-- Keys without repetition that miss no element count each element once. -/
theorem sum_length_classes {ks : List κ} (hnd : ks.Nodup) (h : ∀ a ∈ l, key a ∈ ks) :
    (ks.map fun k => (l.filter fun a => key a == k).length).sum = l.length := by
  induction ks generalizing l with
  | nil =>
    have hnil : l = [] := eq_nil_iff_forall_not_mem.mpr fun a ha => not_mem_nil (h a ha)
    rw [hnil]
    rfl
  | cons k ks ih =>
    obtain ⟨hk, hnd⟩ := nodup_cons.mp hnd
    -- without the class of the first key, the rest of the keys still misses nothing
    have hrest : ∀ a ∈ l.filter fun a => !(key a == k), key a ∈ ks := by
      intro a ha
      obtain ⟨ha, hne⟩ := mem_filter.mp ha
      exact (mem_cons.mp (h a ha)).resolve_left (by simpa using hne)
    have hsame : ∀ k' ∈ ks, ((l.filter fun a => !(key a == k)).filter fun a => key a == k') =
        l.filter fun a => key a == k' := by
      intro k' hk'
      rw [filter_filter]
      refine filter_congr fun a _ => ?_
      have hne : k' ≠ k := fun heq => hk (heq ▸ hk')
      by_cases hak : key a = k' <;> simp [hak, hne]
    have hmap : (ks.map fun k' => (l.filter fun a => key a == k').length) =
        ks.map fun k' => ((l.filter fun a => !(key a == k)).filter fun a => key a == k').length :=
      map_congr_left fun k' hk' => by rw [hsame k' hk']
    rw [map_cons, sum_cons, hmap, ih hnd hrest]
    exact (length_eq_length_filter_add _).symm

end Keys

end Classes
