import SeamSdk.Sdk.JcsDerived
import SeamSdk.Sdk.JsonLoads

/-!
# Canonical JSON is a canonical form

Two values are equal (`JsonValue.Equal`) if they differ in the order of keys only and in whether a number is an integer or
a double; a double counts as the number its shortest digits write. `json.loads` reads these digits back (`RoundTrip`).

- `ofDoc_docOf`: what is loaded from the text of a value is the value in its normal form, with sorted keys and integers
  where a literal has neither a point nor an exponent;
- `text_normal`, `equal_normal`: the normal form is equal to the value and has the same text;
- `text_eq_of_equal`, `equal_of_docOf`: one text for equal values, and equal values for one document.

`jcs_canonical_form` puts these together.
-/

namespace SeamSdk

open ByteCodec Checked JsonGrammar Utf16 Python List

variable {F : Type}

/-- `float` reads back the shortest digits of a double, `float` of an integer rounds alike, integers of 21 digits are
not too long to be read, and there is no limit on the nesting. -/
structure RoundTrip (E : Floats F) (L : Python.Literals F) : Prop where
  float_shortest : ∀ x, L.float (E.shortest x).value = .finite x
  ofInt_shortest : ∀ (x : F) (n : Int), (E.shortest x).value = n → E.ofInt n = some x
  digits : ∀ n ∈ L.maxStrDigits, 21 ≤ n
  nesting : L.maxNesting = none

variable {v : JsonValue F} {q : Rat} {t : List Char} {E : Floats F}

namespace JsonValue

/-! ## Equal values -/

mutual

/-- Equal up to the order of keys, and numbers as numbers. -/
inductive Equal (E : Floats F) : JsonValue F → JsonValue F → Prop
  | null : Equal E .null .null
  | bool (b : Bool) : Equal E (.bool b) (.bool b)
  | str (s : List Char) : Equal E (.str s) (.str s)
  | num {v w : JsonValue F} {q : Rat} : v.numeric E = some q → w.numeric E = some q → Equal E v w
  | arr {vs ws : List (JsonValue F)} : EqualItems E vs ws → Equal E (.arr vs) (.arr ws)
  | obj {ms ms' ns ns' : List (List Char × JsonValue F)} : ms.Perm ms' → ns.Perm ns' → EqualMembers E ms' ns' →
      Equal E (.obj ms) (.obj ns)

inductive EqualItems (E : Floats F) : List (JsonValue F) → List (JsonValue F) → Prop
  | nil : EqualItems E [] []
  | cons {v w : JsonValue F} {vs ws : List (JsonValue F)} : Equal E v w → EqualItems E vs ws →
      EqualItems E (v :: vs) (w :: ws)

inductive EqualMembers (E : Floats F) : List (List Char × JsonValue F) → List (List Char × JsonValue F) → Prop
  | nil : EqualMembers E [] []
  | cons {k : List Char} {v w : JsonValue F} {ms ns : List (List Char × JsonValue F)} : Equal E v w →
      EqualMembers E ms ns → EqualMembers E ((k, v) :: ms) ((k, w) :: ns)

end

theorem equalItems_of_forall₂ {vs ws : List (JsonValue F)} (h : List.Forall₂ (Equal E) vs ws) : EqualItems E vs ws := by
  induction h with
  | nil => exact .nil
  | cons h _ ih => exact .cons h ih

theorem equalMembers_of_forall₂ {ms ns : List (List Char × JsonValue F)}
    (h : List.Forall₂ (fun m n => m.1 = n.1 ∧ Equal E m.2 n.2) ms ns) : EqualMembers E ms ns := by
  induction h with
  | nil => exact .nil
  | @cons m n ms ns h _ ih =>
    obtain ⟨k, v⟩ := m
    obtain ⟨k', w⟩ := n
    obtain ⟨rfl, h⟩ := h
    exact .cons h ih

/-! ## Normal forms and loaded values -/

mutual

/-- What is loaded from the text of a value: keys in order, and an integer where the literal has neither a point nor an
exponent. -/
def normal (E : Floats F) : JsonValue F → JsonValue F
  | .zero _ => .int 0
  | .float x =>
    if isIntegral ((E.shortest x).toText.map unit) then .int (E.shortest x).value.num else .float x
  | .arr vs => .arr (normalItems E vs)
  | .obj ms => .obj (sortMembers (normalMembers E ms))
  | v => v

def normalItems (E : Floats F) : List (JsonValue F) → List (JsonValue F)
  | [] => []
  | v :: vs => normal E v :: normalItems E vs

def normalMembers (E : Floats F) : List (List Char × JsonValue F) → List (List Char × JsonValue F)
  | [] => []
  | (k, v) :: ms => (k, normal E v) :: normalMembers E ms

end

mutual

/-- The value as `json.loads` gives it. -/
def toLoaded : JsonValue F → Python.Loaded F
  | .null => .none
  | .bool b => .bool b
  | .str s => .str (s.map CodePoint.ofChar)
  | .int n => .int n
  | .zero neg => .float (.zero neg)
  | .float x => .float (.finite x)
  | .arr vs => .list (loadedItems vs)
  | .obj ms => .dict (loadedMembers ms)

def loadedItems : List (JsonValue F) → List (Python.Loaded F)
  | [] => []
  | v :: vs => toLoaded v :: loadedItems vs

def loadedMembers : List (List Char × JsonValue F) → List (List CodePoint × Python.Loaded F)
  | [] => []
  | (k, v) :: ms => (k.map CodePoint.ofChar, toLoaded v) :: loadedMembers ms

end

section Images

variable (E : Floats F)

theorem normalItems_eq (vs : List (JsonValue F)) : normalItems E vs = vs.map (normal E) := by
  induction vs with
  | nil => rw [normalItems]; rfl
  | cons v vs ih => rw [normalItems, ih]; rfl

theorem normalMembers_eq (ms : List (List Char × JsonValue F)) :
    normalMembers E ms = ms.map fun m => (m.1, normal E m.2) := by
  induction ms with
  | nil => rw [normalMembers]; rfl
  | cons m ms ih => rw [normalMembers, ih]; rfl

theorem loadedItems_eq (vs : List (JsonValue F)) : loadedItems vs = vs.map toLoaded := by
  induction vs with
  | nil => rw [loadedItems]; rfl
  | cons v vs ih => rw [loadedItems, ih]; rfl

theorem loadedMembers_eq (ms : List (List Char × JsonValue F)) :
    loadedMembers ms = ms.map fun m => (m.1.map CodePoint.ofChar, toLoaded m.2) := by
  induction ms with
  | nil => rw [loadedMembers]; rfl
  | cons m ms ih => rw [loadedMembers, ih]; rfl

theorem distinctItems_iff (vs : List (JsonValue F)) : DistinctItems vs ↔ ∀ v ∈ vs, v.Distinct := by
  induction vs with
  | nil => simp [DistinctItems]
  | cons v vs ih => rw [DistinctItems, ih, forall_mem_cons]

theorem distinctMembers_iff (ms : List (List Char × JsonValue F)) : DistinctMembers ms ↔ ∀ m ∈ ms, m.2.Distinct := by
  induction ms with
  | nil => simp [DistinctMembers]
  | cons m ms ih => rw [DistinctMembers, ih, forall_mem_cons]

end Images

end JsonValue

/-! ## What is loaded -/

section Loaded

open JsonValue

variable {E : Floats F} {L : Python.Literals F}

theorem normal_obj (ms : List (List Char × JsonValue F)) :
    normal E (.obj ms) = .obj ((sortMembers ms).map fun m => (m.1, normal E m.2)) := by
  rw [normal, normalMembers_eq, sortMembers_map]

theorem nodup_sorted {α β : Type} {ms : List (List Char × α)} (h : (ms.map Prod.fst).Nodup) (f : α → β) :
    (((sortMembers ms).map fun m => (m.1, f m.2)).map Prod.fst).Nodup := by
  rw [map_map]
  exact (((sortMembers_perm ms).map Prod.fst).nodup_iff).mpr h

/-- A number is loaded as it is in the normal form. -/
theorem ofDoc_of_numeric (hx : RoundTrip E L) (hq : v.numeric E = some q) (ht : text E v = .ok t) :
    ofDoc L (docOf E v) = toLoaded (normal E v) := by
  obtain ⟨hprinted, hdoc⟩ := printed_of_text hq ht
  rw [hdoc, ofDoc, parseLiteral_number L (grammar_of_literal (literal_printed hprinted)),
    literalValue_of_literal (literal_printed hprinted)]
  cases v with
  | null | bool | str | arr | obj => cases hq
  | int n =>
    obtain rfl := Option.some.inj hq
    rw [docOf, Doc.num.injEq] at hdoc
    rw [← hdoc, if_pos (isIntegral_intText n), Rat.num_intCast, normal, toLoaded]
    all_goals intros; contradiction
  | zero neg =>
    obtain rfl := Option.some.inj hq
    rw [docOf, Doc.num.injEq] at hdoc
    rw [← hdoc, if_pos (by decide), normal, toLoaded]
    rfl
  | float x =>
    obtain rfl := Option.some.inj hq
    rw [docOf, Doc.num.injEq] at hdoc
    rw [← hdoc, normal]
    split
    · rw [toLoaded]
    · rw [if_neg (E.shortest x).value_ne_zero, hx.float_shortest, toLoaded]

/-- **What is loaded from the text of a value** is its normal form. -/
theorem ofDoc_docOf (hx : RoundTrip E L) (v : JsonValue F) : ∀ {t : List Char}, v.Distinct → text E v = .ok t →
    ofDoc L (docOf E v) = toLoaded (normal E v) := by
  induction v using JsonValue.nested with
  | null | bool => exact fun _ _ => by rw [docOf, ofDoc, normal, toLoaded] <;> intros <;> contradiction
  | str s => exact fun _ _ => by rw [docOf, ofDoc, codePoints_encode, normal, toLoaded] <;> intros <;> contradiction
  | int | zero | float => exact fun _ ht => ofDoc_of_numeric hx rfl ht
  | arr vs ih =>
    intro t hd ht
    rw [Distinct, distinctItems_iff] at hd
    rw [docOf, docItems_eq, ofDoc, ofDocs_eq, normal, normalItems_eq, toLoaded, loadedItems_eq,
      map_map, map_map]
    congr 1
    refine map_congr_left fun v hv => ?_
    obtain ⟨u, hu⟩ := exists_text_of_item ht hv
    exact ih v hv (hd v hv) hu
  | obj ms ih =>
    intro t hd ht
    rw [Distinct, distinctMembers_iff] at hd
    have hkeys : (((sortMembers ms).map fun m => (m.1.map CodePoint.ofChar, toLoaded (normal E m.2))).map
        Prod.fst).Nodup := by
      have hsorted := ((sortMembers_perm ms).map Prod.fst).nodup_iff.mpr hd.1
      have := hsorted.map map_ofChar_injective
      rwa [map_map] at this ⊢
    rw [docOf_obj, ofDoc, ofDocMembers_eq, normal_obj, toLoaded, loadedMembers_eq, map_map,
      map_map]
    refine congrArg Python.Loaded.dict (Eq.trans ?_ (dictOf_nodup hkeys))
    congr 1
    refine map_congr_left fun m hm => Prod.ext (codePoints_encode m.1) ?_
    have hm := mem_sortMembers.mp hm
    obtain ⟨u, hu⟩ := exists_text_of_member ht hm
    exact ih m hm (hd.2 m hm) hu

/-! ## The normal form -/

theorem text_int (n : Int) : text E (.int n) = jcsInt E n := by rw [text, toPython, jcsWrite]

theorem text_float (x : F) : text E (.float x) = .ok (E.shortest x).toText := by
  rw [text, toPython, jcsWrite, jcsNumber_finite]

theorem text_zero (neg : Bool) : text E (.zero neg) = .ok ['0'] := by
  rw [text, toPython, jcsWrite]
  rfl

/-- An integer that is the value of a double printed in full is accepted. -/
theorem jcsInt_shortest (hx : RoundTrip E L) {x : F} {n : Int} (hfixed : (E.shortest x).Fixed)
    (hn : (E.shortest x).value = n) : jcsInt E n = .ok (E.shortest x).toText := by
  have htext := (E.shortest x).toText_eq_intText hfixed hn
  unfold jcsInt
  dsimp only
  split_ifs with hsafe
  · rw [htext]
  · rw [hx.ofInt_shortest x n hn]
    dsimp only
    rw [jcsNumber_finite]
    simp only [bind, Except.bind]
    exact if_neg (not_not.mpr htext)

theorem sortMembers_sorted {α : Type} {ms : List (List Char × α)} (h : (ms.map Prod.fst).Nodup) :
    sortMembers (sortMembers ms) = sortMembers ms :=
  (sortMembers_eq_of_perm h (sortMembers_perm ms).symm).symm

/-- **The normal form is accepted and has the same text.** -/
theorem text_normal (hx : RoundTrip E L) (v : JsonValue F) : ∀ {t : List Char}, v.Distinct → text E v = .ok t →
    text E (normal E v) = .ok t := by
  induction v using JsonValue.nested with
  | null | bool b | str s | int n => exact fun _ ht => by rwa [normal] <;> nofun
  | zero neg =>
    intro t _ ht
    rw [text_zero] at ht
    rw [normal, text_int, ← ht]
    rfl
  | float x =>
    intro t _ ht
    rw [normal]
    split
    · rename_i hintegral
      obtain ⟨hfixed, n, hn⟩ := (isIntegral_toText_iff _).mp hintegral
      rw [text_float] at ht
      rw [hn, Rat.num_intCast, text_int, jcsInt_shortest hx hfixed hn, ht]
    · exact ht
  | arr vs ih =>
    intro t hd ht
    rw [Distinct, distinctItems_iff] at hd
    obtain ⟨ts, hts, rfl⟩ := text_arr_ok.mp ht
    rw [normal, normalItems_eq]
    refine text_arr_ok.mpr ⟨ts, forall₂_map_left_iff.mpr ?_, rfl⟩
    exact forall₂_imp_mem hts fun v hv _ h => ih v hv (hd v hv) h
  | obj ms ih =>
    intro t hd ht
    rw [Distinct, distinctMembers_iff] at hd
    obtain ⟨ts, hts, rfl⟩ := text_obj_ok.mp ht
    rw [normal_obj]
    refine text_obj_ok.mpr ⟨ts, ?_, rfl⟩
    rw [sortMembers_map, sortMembers_sorted hd.1, forall₂_map_left_iff]
    refine forall₂_imp_mem hts fun m hm t h => ?_
    obtain ⟨u, hu, rfl⟩ := h
    have hm := mem_sortMembers.mp hm
    exact ⟨u, ih m hm (hd.2 m hm) hu, rfl⟩

theorem distinct_normal (v : JsonValue F) : v.Distinct → (normal E v).Distinct := by
  induction v using JsonValue.nested with
  | null | bool b | str s | int n | zero neg => exact fun _ => by simp [normal, Distinct]
  | float x =>
    intro _
    rw [normal]
    split <;> simp [Distinct]
  | arr vs ih =>
    intro hd
    rw [Distinct, distinctItems_iff] at hd
    rw [normal, normalItems_eq, Distinct, distinctItems_iff]
    exact forall_mem_map.mpr fun v hv => ih v hv (hd v hv)
  | obj ms ih =>
    intro hd
    rw [Distinct, distinctMembers_iff] at hd
    rw [normal_obj, Distinct, distinctMembers_iff]
    exact ⟨nodup_sorted hd.1 (normal E),
      forall_mem_map.mpr fun m hm => ih m (mem_sortMembers.mp hm) (hd.2 m (mem_sortMembers.mp hm))⟩

/-- **The normal form is equal to the value.** -/
theorem equal_normal (v : JsonValue F) : Equal E v (normal E v) := by
  induction v using JsonValue.nested with
  | null => rw [normal] <;> first | exact .null | nofun
  | bool b => rw [normal] <;> first | exact .bool b | nofun
  | str s => rw [normal] <;> first | exact .str s | nofun
  | int n => rw [normal] <;> first | exact .num rfl rfl | nofun
  | zero neg =>
    rw [normal]
    exact .num rfl (congrArg some Int.cast_zero)
  | float x =>
    rw [normal]
    split
    · rename_i hintegral
      obtain ⟨-, n, hn⟩ := (isIntegral_toText_iff _).mp hintegral
      rw [hn, Rat.num_intCast]
      exact .num (congrArg some hn) rfl
    · exact .num rfl rfl
  | arr vs ih =>
    rw [normal, normalItems_eq]
    exact .arr (equalItems_of_forall₂ (forall₂_map_right_iff.mpr (forall₂_same.mpr ih)))
  | obj ms ih =>
    rw [normal_obj]
    refine .obj (sortMembers_perm ms).symm (List.Perm.refl _) (equalMembers_of_forall₂ ?_)
    refine forall₂_map_right_iff.mpr (forall₂_same.mpr fun m hm => ⟨rfl, ?_⟩)
    exact ih m (mem_sortMembers.mp hm)

end Loaded

/-! ## Equal values and texts -/

section Unique

open JsonValue

variable {E : Floats F}

theorem nodup_texts {ms : List (List Char × JsonValue F)} (h : (ms.map Prod.fst).Nodup) :
    ((texts E ms).map Prod.fst).Nodup := by
  rwa [map_fst_texts]

theorem sortMembers_texts {ms ms' : List (List Char × JsonValue F)} (h : (ms.map Prod.fst).Nodup) (hp : ms.Perm ms') :
    sortMembers (texts E ms) = sortMembers (texts E ms') :=
  sortMembers_eq_of_perm (nodup_texts h) (hp.map _)

mutual

/-- **Equal values have one text**, if they have any. -/
theorem text_eq_of_equal : ∀ {v w : JsonValue F}, Equal E v w → v.Distinct → w.Distinct → (∃ t, text E v = .ok t) →
    (∃ u, text E w = .ok u) → text E v = text E w
  | _, _, .null, _, _, _, _ => rfl
  | _, _, .bool _, _, _, _, _ => rfl
  | _, _, .str _, _, _, _, _ => rfl
  | _, _, .num hv hw, _, _, ⟨t, ht⟩, ⟨u, hu⟩ => by
    rw [ht, hu, printed_unique (printed_of_text hv ht).1 (printed_of_text hw hu).1]
  | .arr vs, .arr ws, .arr h, hd, hd', ⟨t, ht⟩, ⟨u, hu⟩ => by
    rw [Distinct, distinctItems_iff] at hd hd'
    rw [text_arr, text_arr, mapM_eq_of_equal h hd hd' (fun v hv => exists_text_of_item ht hv) fun w hw =>
      exists_text_of_item hu hw]
  | .obj ms, .obj ns, @Equal.obj _ _ _ ms' _ ns' hp hp' h, hd, hd', ⟨t, ht⟩, ⟨u, hu⟩ => by
    rw [Distinct, distinctMembers_iff] at hd hd'
    rw [text_obj, text_obj, sortMembers_texts hd.1 hp, sortMembers_texts hd'.1 hp',
      texts_eq_of_equal h (fun m hm => hd.2 m (hp.mem_iff.mpr hm)) (fun m hm => hd'.2 m (hp'.mem_iff.mpr hm))
        (fun m hm => exists_text_of_member ht (hp.mem_iff.mpr hm)) fun m hm =>
          exists_text_of_member hu (hp'.mem_iff.mpr hm)]

theorem mapM_eq_of_equal : ∀ {vs ws : List (JsonValue F)}, EqualItems E vs ws → (∀ v ∈ vs, v.Distinct) →
    (∀ w ∈ ws, w.Distinct) → (∀ v ∈ vs, ∃ t, text E v = .ok t) → (∀ w ∈ ws, ∃ u, text E w = .ok u) →
    vs.mapM (text E) = ws.mapM (text E)
  | _, _, .nil, _, _, _, _ => rfl
  | _, _, .cons h hs, hd, hd', ht, hu => by
    rw [forall_mem_cons] at hd hd' ht hu
    rw [mapM_cons, mapM_cons, text_eq_of_equal h hd.1 hd'.1 ht.1 hu.1,
      mapM_eq_of_equal hs hd.2 hd'.2 ht.2 hu.2]

theorem texts_eq_of_equal : ∀ {ms ns : List (List Char × JsonValue F)}, EqualMembers E ms ns →
    (∀ m ∈ ms, m.2.Distinct) → (∀ n ∈ ns, n.2.Distinct) → (∀ m ∈ ms, ∃ t, text E m.2 = .ok t) →
    (∀ n ∈ ns, ∃ u, text E n.2 = .ok u) → texts E ms = texts E ns
  | _, _, .nil, _, _, _, _ => rfl
  | _, _, .cons h hs, hd, hd', ht, hu => by
    rw [forall_mem_cons] at hd hd' ht hu
    have hrest := texts_eq_of_equal hs hd.2 hd'.2 ht.2 hu.2
    rw [texts, texts, map_cons, map_cons, ← texts, ← texts, hrest, text_eq_of_equal h hd.1 hd'.1 ht.1 hu.1]

end

/-- The literal in the document of a number is one for that number. -/
theorem literal_of_numeric (hq : v.numeric E = some q) : ∃ t, docOf E v = .num t ∧ literalValue t = q := by
  cases v with
  | null | bool | str | arr | obj => cases hq
  | int n =>
    obtain rfl := Option.some.inj hq
    exact ⟨_, by rw [docOf], literalValue_of_literal (Decimal.literal_intText n)⟩
  | zero neg =>
    obtain rfl := Option.some.inj hq
    exact ⟨_, by rw [docOf]; rfl, literalValue_of_literal (Decimal.literal_intText 0)⟩
  | float x =>
    obtain rfl := Option.some.inj hq
    exact ⟨_, by rw [docOf], literalValue_of_literal (E.shortest x).literal_toText⟩

theorem numeric_of_docOf {w : JsonValue F} {t : List UInt16} (h : docOf E w = .num t) : ∃ q, w.numeric E = some q := by
  cases w with
  | null | bool | str | arr | obj =>
    rw [docOf] at h
    cases h
  | int | zero | float => exact ⟨_, rfl⟩

theorem equal_of_numeric {w : JsonValue F} (hq : v.numeric E = some q) (h : docOf E v = docOf E w) : Equal E v w := by
  obtain ⟨t, hdoc, rfl⟩ := literal_of_numeric hq
  obtain ⟨q', hq'⟩ := numeric_of_docOf (h ▸ hdoc)
  obtain ⟨t', hdoc', rfl⟩ := literal_of_numeric hq'
  rw [hdoc, hdoc', Doc.num.injEq] at h
  exact .num hq (h ▸ hq')

/-- **One document, equal values.** -/
theorem equal_of_docOf (v : JsonValue F) : ∀ w, docOf E v = docOf E w → Equal E v w := by
  induction v using JsonValue.nested with
  | null =>
    intro w h
    cases w with
    | null => exact .null
    | bool | str | int | zero | float | arr | obj =>
      rw [docOf, docOf] at h
      cases h
  | bool b =>
    intro w h
    cases w with
    | bool b' =>
      rw [docOf, docOf, Doc.bool.injEq] at h
      rw [h]
      exact .bool b'
    | null | str | int | zero | float | arr | obj =>
      rw [docOf, docOf] at h
      cases h
  | str s =>
    intro w h
    cases w with
    | str s' =>
      rw [docOf, docOf, Doc.str.injEq] at h
      rw [encode_injective h]
      exact .str s'
    | null | bool | int | zero | float | arr | obj =>
      rw [docOf, docOf] at h
      cases h
  | int | zero | float => exact fun w h => equal_of_numeric rfl h
  | arr vs ih =>
    intro w h
    cases w with
    | arr ws =>
      rw [docOf, docOf, Doc.arr.injEq, docItems_eq, docItems_eq] at h
      exact .arr (equalItems_of_forall₂ (forall₂_imp_mem (forall₂_of_map_eq h) ih))
    | null | bool | str | int | zero | float | obj =>
      rw [docOf, docOf] at h
      cases h
  | obj ms ih =>
    intro w h
    cases w with
    | obj ns =>
      rw [docOf_obj, docOf_obj, Doc.obj.injEq] at h
      refine .obj (sortMembers_perm ms).symm (sortMembers_perm ns).symm (equalMembers_of_forall₂ ?_)
      refine forall₂_imp_mem (forall₂_of_map_eq h) fun m hm n hmn => ?_
      obtain ⟨hkey, hdoc⟩ := Prod.mk.inj hmn
      exact ⟨encode_injective hkey, ih m (mem_sortMembers.mp hm) n.2 hdoc⟩
    | null | bool | str | int | zero | float | arr =>
      rw [docOf, docOf] at h
      cases h

end Unique

/-! ## The canonical form -/

section Fits

open JsonValue

variable {E : Floats F} {L : Python.Literals F}

/-- An integer literal has at most 21 digits. -/
theorem digits_printed (h : Python.Printed q t) (hintegral : isIntegral (t.map unit) = true) :
    ((t.map unit).filter isDigit).length ≤ 21 := by
  rcases h with ⟨-, rfl⟩ | ⟨d, -, rfl⟩
  · decide
  obtain ⟨hfixed, n, hn⟩ := (isIntegral_toText_iff d).mp hintegral
  have hpoint := d.le_point_of_int hn
  have hplaces := d.fixed_iff.mp hfixed
  have hsign : ((Decimal.signText d.neg).map unit).filter isDigit = [] := by
    cases d.neg <;> rfl
  rw [d.toText_fixed hfixed, if_pos hpoint, map_append, filter_append, hsign, nil_append]
  refine (length_filter_le _ _).trans ?_
  rw [length_map, length_append, length_replicate]
  omega

theorem fits_printed (hx : RoundTrip E L) (h : Python.Printed q t) : (dialect L).fits (t.map unit) = true := by
  unfold dialect
  dsimp only
  cases hlimit : L.maxStrDigits with
  | none => rfl
  | some n =>
    have hn := hx.digits n hlimit
    dsimp only
    rw [Bool.or_eq_true, Bool.not_eq_true', decide_eq_true_iff]
    cases hintegral : isIntegral (t.map unit) with
    | false => exact .inl rfl
    | true => exact .inr ((digits_printed h hintegral).trans hn)

/-- **The text of a value is taken by `json.loads`.** -/
theorem takes_docOf (hx : RoundTrip E L) (v : JsonValue F) : ∀ {t : List Char} (depth : Nat), text E v = .ok t →
    Takes (dialect L) depth (docOf E v) := by
  have hnests : ∀ depth, (dialect L).nests depth = true := by
    intro depth
    simp only [dialect, hx.nesting]
  have hnumeric : ∀ {v : JsonValue F} {q : Rat} {t : List Char} (depth : Nat), v.numeric E = some q →
      text E v = .ok t → Takes (dialect L) depth (docOf E v) := by
    intro v q t depth hq ht
    obtain ⟨hprinted, hdoc⟩ := printed_of_text hq ht
    rw [hdoc, Takes]
    exact fits_printed hx hprinted
  induction v using JsonValue.nested with
  | null | bool | str =>
    intro t depth _
    simp [docOf, Takes]
  | int | zero | float => exact fun depth ht => hnumeric depth rfl ht
  | arr vs ih =>
    intro t depth ht
    rw [docOf, docItems_eq, Takes, takesItems_iff, forall_mem_map]
    refine ⟨hnests depth, fun v hv => ?_⟩
    obtain ⟨u, hu⟩ := exists_text_of_item ht hv
    exact ih v hv (depth + 1) hu
  | obj ms ih =>
    intro t depth ht
    rw [docOf_obj, Takes, takesMembers_iff, forall_mem_map]
    refine ⟨hnests depth, fun m hm => ?_⟩
    have hm := mem_sortMembers.mp hm
    obtain ⟨u, hu⟩ := exists_text_of_member ht hm
    exact ih m hm (depth + 1) hu

end Fits

theorem jcsCanonicalize_ok {raw : Bytes} : jcsCanonicalize E v.toPython = .ok raw ↔
      ∃ text, v.text E = .ok text ∧ raw = utf8 (String.ofList text) := by
  rw [jcsCanonicalize, bind_ok]
  exact exists_congr fun t => and_congr_right fun _ => pure_ok.trans eq_comm

/-- **Main result.** The bytes of a value are those of a text of the grammar. What `json.loads` gives for it is equal to
the value, is accepted again and has the same bytes. Values have the same bytes if and only if they are equal. -/
theorem jcs_canonical_form (E : Floats F) (L : Python.Literals F) (hx : RoundTrip E L) :
    (∀ (v : JsonValue F) (raw : Bytes), v.Distinct → jcsCanonicalize E v.toPython = .ok raw →
      ∃ text d w, raw = utf8 (String.ofList text) ∧ Element d (encode text) ∧
        jsonLoad L text = .ok w.toLoaded ∧ w.Distinct ∧ v.Equal E w ∧
        jcsCanonicalize E w.toPython = .ok raw) ∧
    ∀ (v w : JsonValue F) (raw raw' : Bytes), v.Distinct → w.Distinct →
      jcsCanonicalize E v.toPython = .ok raw → jcsCanonicalize E w.toPython = .ok raw' →
      (raw = raw' ↔ v.Equal E w) := by
  refine ⟨fun v raw hd hv => ?_, fun v w raw raw' hd hd' hv hw => ?_⟩
  · obtain ⟨t, ht, rfl⟩ := jcsCanonicalize_ok.mp hv
    have hderived := element_of_value (value_docOf v ht)
    have hloads := jsonLoad_derived L hderived (takes_docOf hx v 0 ht)
    rw [ofDoc_docOf hx v hd ht] at hloads
    exact ⟨t, v.docOf E, v.normal E, rfl, hderived, hloads, distinct_normal v hd, equal_normal v,
      jcsCanonicalize_ok.mpr ⟨t, text_normal hx v hd ht, rfl⟩⟩
  · obtain ⟨t, ht, rfl⟩ := jcsCanonicalize_ok.mp hv
    obtain ⟨u, hu, rfl⟩ := jcsCanonicalize_ok.mp hw
    constructor
    · intro h
      obtain rfl := String.ofList_injective (utf8_injective h)
      exact equal_of_docOf v w (element_unique (element_of_value (value_docOf v ht)) (element_of_value (value_docOf w hu)))
    · intro h
      have htext := text_eq_of_equal h hd hd' ⟨t, ht⟩ ⟨u, hu⟩
      rw [ht, hu, Except.ok.injEq] at htext
      rw [htext]

/-- One double, which is `0.5`. -/
def halfOnly : Floats Unit := ⟨fun _ => half, fun _ => none⟩

def halfLiterals : Python.Literals Unit := ⟨fun _ => .finite (), some 4300, none⟩

theorem roundTrip_half : RoundTrip halfOnly halfLiterals where
  float_shortest _ := rfl
  ofInt_shortest _ n h := by
    have hpoint := half.le_point_of_int h
    exact absurd hpoint (by decide)
  digits n h := by
    obtain rfl : 4300 = n := Option.some.inj h
    decide
  nesting := rfl

/-- A negative zero and the integer have one text, in any order of the members. -/
theorem jcs_canonical_form_swapped :
    jcsCanonicalize halfOnly (JsonValue.obj [(['b'], .zero true), (['a'], .float ())]).toPython =
      .ok (utf8 "\x7b\"a\":0.5,\"b\":0\x7d") ∧
    (JsonValue.obj [(['b'], .zero true), (['a'], .float ())]).Equal halfOnly
      (.obj [(['a'], .float ()), (['b'], .int 0)]) := by
  have hd : (JsonValue.obj [(['b'], .zero true), (['a'], .float ())] : JsonValue Unit).Distinct := by
    simp [JsonValue.Distinct, JsonValue.DistinctMembers]
  have hd' : (JsonValue.obj [(['a'], .float ()), (['b'], .int 0)] : JsonValue Unit).Distinct := by
    simp [JsonValue.Distinct, JsonValue.DistinctMembers]
  exact ⟨rfl, ((jcs_canonical_form halfOnly halfLiterals roundTrip_half).2 _ _ _ _ hd hd' rfl rfl).mp rfl⟩

end SeamSdk
