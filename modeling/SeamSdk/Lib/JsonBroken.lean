import SeamSdk.Lib.JsonDecode

/-!
# JSON texts in which a value is missing

Values that are put between commas and brackets make up a text of the grammar only if all of them are values. `Broken t`
says that the reader gives up on `t`, so that `t` is no text of the grammar (`Broken.not_element`). An array is broken if
something between its commas is missing (`broken_arr`), an object if the value of a member is broken (`broken_obj`).
-/

namespace JsonGrammar

open List

variable {t : List UInt16} {u : UInt16} {D : Dialect}

/-- A container that is not read, whatever can stand behind it. -/
structure Broken (t : List UInt16) : Prop where
  head : ∃ u s, t = u :: s ∧ (u = unit '[' ∨ u = unit '{')
  fails : ∀ (fuel depth : Nat) (r : List UInt16), Ends r → t.length ≤ fuel →
    ∃ e, readValue plain fuel depth (t ++ r) = .error e

theorem Broken.not_element {d : Doc} (h : Broken t) : ¬Element d t := by
  intro helement
  have hdecode := decode_derived helement (takes_plain 0 d)
  obtain ⟨e, he⟩ := h.fails (2 * t.length + 1) 0 [] (by simp [Ends]) (by omega)
  rw [append_nil] at he
  rw [decode, he] at hdecode
  cases hdecode

/-- No value begins with what ends one. -/
theorem readValue_close (hu : u = unit ',' ∨ u = unit ']') (fuel depth : Nat) (r : List UInt16) :
    ∃ e, readValue plain fuel depth (u :: r) = .error e := by
  cases fuel with
  | zero => exact ⟨_, rfl⟩
  | succ fuel =>
    rw [← nil_append (u :: r)]
    rcases hu with rfl | rfl
    · exact ⟨_, readValue_cons blanks_nil (by decide) ..⟩
    · exact ⟨_, readValue_cons blanks_nil (by decide) ..⟩

/-- What stands between two commas and is no value. -/
def Missing (t : List UInt16) : Prop := Broken t ∨ t = []

theorem Missing.fails (h : Missing t) {fuel : Nat} (hu : u = unit ',' ∨ u = unit ']') (hfuel : t.length ≤ fuel)
    (depth : Nat) (r : List UInt16) : ∃ e, readValue plain fuel depth (t ++ u :: r) = .error e := by
  rcases h with h | rfl
  · exact h.fails fuel depth (u :: r) (ends_cons (hu.imp_right .inl) r) hfuel
  · exact readValue_close hu fuel depth r

theorem intercalate_comma (t t' : List UInt16) (ts : List (List UInt16)) : List.intercalate [unit ','] (t :: t' :: ts) =
    t ++ unit ',' :: List.intercalate [unit ','] (t' :: ts) := by
  rw [intercalate_cons_cons, append_assoc, singleton_append]

/-- **A list with something between its commas that is not read is not read.** -/
theorem intercalate_fails {α ε : Type} {f : Nat → List UInt16 → Except ε α} {good bad : List UInt16 → Prop}
    {close : UInt16} (r : List UInt16)
    (hbad : ∀ {t u fuel s}, bad t → u = unit ',' ∨ u = close → t.length ≤ fuel →
      ∃ e, f (fuel + 1) (t ++ u :: s) = .error e)
    (hgood : ∀ {t fuel s}, good t → t.length < fuel → (∃ e, f fuel s = .error e) →
      ∃ e, f (fuel + 1) (t ++ unit ',' :: s) = .error e) :
    ∀ {ts : List (List UInt16)}, (∀ t ∈ ts, good t ∨ bad t) → (∃ t ∈ ts, bad t) → ∀ fuel,
      (List.intercalate [unit ','] ts).length + 1 ≤ fuel →
      ∃ e, f fuel (List.intercalate [unit ','] ts ++ close :: r) = .error e
  | [t], _, hts, fuel + 1, hfuel => by
    obtain ⟨_, ht, hts⟩ := hts
    obtain rfl := mem_singleton.mp ht
    rw [intercalate_singleton] at hfuel ⊢
    exact hbad hts (.inr rfl) (by omega)
  | t :: t' :: ts, hall, hts, fuel + 1, hfuel => by
    rw [intercalate_comma, length_append, length_cons] at hfuel
    rw [intercalate_comma, append_assoc, cons_append]
    by_cases ht : bad t
    · exact hbad ht (.inl rfl) (by omega)
    -- the first one is read, and the rest is not
    refine hgood ((hall t mem_cons_self).resolve_right ht) (by omega) ?_
    exact intercalate_fails r hbad hgood (fun t ht => hall t (mem_cons_of_mem _ ht))
      (((exists_mem_cons_iff ..).mp hts).resolve_left ht) fuel (by omega)

/-- Elements are not read if one of them is missing. -/
theorem readElements_missing (depth : Nat) (r : List UInt16) {ts : List (List UInt16)}
    (hall : ∀ t ∈ ts, (∃ d, Value d t) ∨ Missing t) (hmissing : ∃ t ∈ ts, Missing t) (fuel : Nat)
    (hfuel : (List.intercalate [unit ','] ts).length + 1 ≤ fuel) :
    ∃ e, readElements plain fuel depth (List.intercalate [unit ','] ts ++ unit ']' :: r) = .error e := by
  refine intercalate_fails (f := fun fuel => readElements plain fuel depth) r ?_ ?_ hall hmissing fuel hfuel
  · intro t u fuel s ht hu hfuel
    obtain ⟨e, he⟩ := ht.fails hu hfuel depth s
    rw [readElements, he]
    exact ⟨e, rfl⟩
  · rintro t fuel s ⟨d, hd⟩ hfuel ⟨e, he⟩
    obtain ⟨s', hread, hskip⟩ := element_derived (element_of_value hd) (takes_plain depth d) fuel s (.inl rfl) (by omega)
    rw [readElements_of_value hread hskip, if_pos rfl, he]
    exact ⟨e, rfl⟩

/-- The list begins as its first item does. -/
theorem exists_intercalate_cons (u : UInt16) (t : List UInt16) (ts : List (List UInt16)) :
    ∃ s, List.intercalate [unit ','] ((u :: t) :: ts) = u :: s := by
  cases ts with
  | nil => exact ⟨t, intercalate_singleton⟩
  | cons t' ts => exact ⟨_, intercalate_comma ..⟩

theorem intercalate_head {ts : List (List UInt16)} (h : ∀ t ∈ ts, (∃ d, Value d t) ∨ Missing t) (hne : ts ≠ [])
    (hhole : ts ≠ [[]]) : ∃ u s, List.intercalate [unit ','] ts = u :: s ∧ isBlank u = false ∧ u ≠ unit ']' := by
  obtain ⟨t, ts, rfl⟩ := exists_cons_of_ne_nil hne
  rcases h t mem_cons_self with ⟨d, hd⟩ | hbroken | rfl
  · obtain ⟨u, s, rfl, hu⟩ := value_head hd
    obtain ⟨s', htext⟩ := exists_intercalate_cons u s ts
    exact ⟨u, s', htext, hu.1, hu.2.1⟩
  · obtain ⟨u, s, rfl, hu⟩ := hbroken.head
    obtain ⟨s', htext⟩ := exists_intercalate_cons u s ts
    exact ⟨u, s', htext, by rcases hu with rfl | rfl <;> decide⟩
  · -- nothing stands in front of the first comma
    obtain ⟨t, ts, rfl⟩ := exists_cons_of_ne_nil fun h : ts = [] => hhole (by rw [h])
    exact ⟨unit ',', _, intercalate_comma .., by decide⟩

/-- **An array with something missing between its commas is not read.** A single slot with nothing in it is no such
array: it leaves the brackets empty. -/
theorem broken_arr {ts : List (List UInt16)} (hall : ∀ t ∈ ts, (∃ d, Value d t) ∨ Missing t)
    (hmissing : ∃ t ∈ ts, Missing t) (hhole : ts ≠ [[]]) :
    Broken (unit '[' :: (List.intercalate [unit ','] ts ++ [unit ']'])) := by
  refine ⟨⟨_, _, rfl, .inl rfl⟩, fun fuel depth r _ hfuel => ?_⟩
  cases fuel with
  | zero => exact absurd hfuel (by simp)
  | succ fuel =>
    have hne : ts ≠ [] := ne_nil_of_mem hmissing.choose_spec.1
    obtain ⟨u, s, htext, hblank, hclose⟩ := intercalate_head hall hne hhole
    rw [length_cons, length_append, length_singleton] at hfuel
    obtain ⟨e, he⟩ := readElements_missing (depth + 1) r hall hmissing fuel (by omega)
    rw [cons_append, append_assoc, singleton_append, ← nil_append (unit '[' :: _), readValue_array blanks_nil rfl, he]
    · exact ⟨e, rfl⟩
    · rw [htext, cons_append, ← nil_append (u :: _), skipBlanks_close blanks_nil hblank]
      exact fun h => hclose (Option.some.inj h)

/-- A member whose value is not read. -/
def BrokenMember (t : List UInt16) : Prop :=
  ∃ k us v, t = unit '"' :: (k ++ unit '"' :: unit ':' :: v) ∧ Chars k us ∧ Broken v

theorem BrokenMember.fails (h : BrokenMember t) {fuel : Nat} (hu : u = unit ',' ∨ u = unit '}') (hfuel : t.length ≤ fuel)
    (depth : Nat) (r : List UInt16) : ∃ e, readMembers plain (fuel + 1) depth (t ++ u :: r) = .error e := by
  obtain ⟨k, us, v, rfl, hk, hv⟩ := h
  simp only [length_cons, length_append] at hfuel
  obtain ⟨e, he⟩ := hv.fails fuel depth (u :: r) (ends_cons (hu.imp_right .inr) r) (by omega)
  have hkey := readKey_derived blanks_nil hk blanks_nil (v ++ u :: r)
  simp only [nil_append] at hkey
  simp only [cons_append, append_assoc]
  refine ⟨e, ?_⟩
  rw [readMembers, hkey]
  show (readValue plain fuel depth _ >>= _) = _
  rw [he]
  rfl

/-- Members are not read if the value of one of them is not. -/
theorem readMembers_broken (depth : Nat) (r : List UInt16) {ts : List (List UInt16)}
    (hall : ∀ t ∈ ts, (∃ m, IsMember m t) ∨ BrokenMember t) (hbroken : ∃ t ∈ ts, BrokenMember t) (fuel : Nat)
    (hfuel : (List.intercalate [unit ','] ts).length + 1 ≤ fuel) :
    ∃ e, readMembers plain fuel depth (List.intercalate [unit ','] ts ++ unit '}' :: r) = .error e := by
  refine intercalate_fails (f := fun fuel => readMembers plain fuel depth) r ?_ ?_ hall hbroken fuel hfuel
  · exact fun ht hu hfuel => ht.fails hu hfuel depth _
  · rintro t fuel s ⟨m, hm⟩ hfuel ⟨e, he⟩
    obtain ⟨s', s'', hkey, hread, hskip⟩ := member_derived (member_of_isMember hm) (takes_plain depth m.2) fuel s
      (.inl rfl) (by omega)
    rw [readMembers_of_value hkey hread hskip, if_pos rfl, he]
    exact ⟨e, rfl⟩

/-- **An object with a member that is not read is not read.** -/
theorem broken_obj {ts : List (List UInt16)} (hall : ∀ t ∈ ts, (∃ m, IsMember m t) ∨ BrokenMember t)
    (hbroken : ∃ t ∈ ts, BrokenMember t) : Broken (unit '{' :: (List.intercalate [unit ','] ts ++ [unit '}'])) := by
  refine ⟨⟨_, _, rfl, .inr rfl⟩, fun fuel depth r _ hfuel => ?_⟩
  obtain ⟨s, htext⟩ : ∃ s, List.intercalate [unit ','] ts = unit '"' :: s := by
    obtain ⟨t, ts, rfl⟩ := exists_cons_of_ne_nil (ne_nil_of_mem hbroken.choose_spec.1)
    rcases hall t mem_cons_self with ⟨m, k, v, rfl, -⟩ | ⟨k, us, v, rfl, -⟩
    · exact exists_intercalate_cons ..
    · exact exists_intercalate_cons ..
  cases fuel with
  | zero => exact absurd hfuel (by simp)
  | succ fuel =>
    rw [length_cons, length_append, length_singleton] at hfuel
    obtain ⟨e, he⟩ := readMembers_broken (depth + 1) r hall hbroken fuel (by omega)
    rw [cons_append, append_assoc, singleton_append, ← nil_append (unit '{' :: _), readValue_object blanks_nil rfl, he]
    · exact ⟨e, rfl⟩
    · rw [htext, cons_append, ← nil_append (unit '"' :: _), skipBlanks_close blanks_nil (by decide)]
      exact fun h => absurd (Option.some.inj h) (by decide)

end JsonGrammar
