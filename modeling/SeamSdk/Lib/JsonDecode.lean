import SeamSdk.Lib.JsonGrammar

/-!
# Reading JSON texts

A reader for the texts of the grammar. A `Dialect` says in what readers differ: the words they take for numbers besides
the numbers of the grammar, the literals they cannot convert and the nesting they give up at. `decode` reads a whole text
into the document it stands for, or fails at the first place where it cannot go on.

- `readNumber_append`: a number is read up to its end, if nothing behind it could belong to it (`Ends`);
- `value_derived`, `elements_derived`, `members_derived`: what is derived is read, in front of anything;
- `decode_derived`: every text of the grammar is read as the document it is derived for, if the reader takes all that is in
  it (`Takes`). So a text is derived for one document only (`element_unique`).
-/

namespace JsonGrammar

open List

/-- Why a text is not read: it is no text of the grammar, a literal cannot be converted, or arrays and objects are nested
too deep. -/
inductive Failure
  | malformed
  | literal
  | nesting
  deriving DecidableEq

/-- The words that are taken for numbers, the literals that can be converted, and whether another array or object can be
opened inside of so many. -/
structure Dialect where
  words : List (List UInt16)
  fits : List UInt16 → Bool
  nests : Nat → Bool

/-- The grammar and nothing else. -/
def plain : Dialect := ⟨[], fun _ => true, fun _ => true⟩

/-! ## The reader -/

def skipBlanks (s : List UInt16) : List UInt16 := s.dropWhile isBlank

/-- A zero stands alone before the point. -/
def readWhole : List UInt16 → Option (List UInt16 × List UInt16)
  | [] => none
  | u :: s =>
    if u = unit '0' then some ([u], s)
    else if isDigit u then some ((u :: s).takeWhile isDigit, (u :: s).dropWhile isDigit)
    else none

/-- A point without a digit behind it does not belong to the number. -/
def readFraction : List UInt16 → List UInt16 × List UInt16
  | [] => ([], [])
  | u :: s =>
    if u = unit '.' ∧ s.takeWhile isDigit ≠ [] then (u :: s.takeWhile isDigit, s.dropWhile isDigit) else ([], u :: s)

def readSign : List UInt16 → List UInt16 × List UInt16
  | [] => ([], [])
  | u :: s => if u = unit '+' ∨ u = unit '-' then ([u], s) else ([], u :: s)

def readExponent : List UInt16 → List UInt16 × List UInt16
  | [] => ([], [])
  | u :: s =>
    let sign := readSign s
    if (u = unit 'e' ∨ u = unit 'E') ∧ sign.2.takeWhile isDigit ≠ [] then
      (u :: (sign.1 ++ sign.2.takeWhile isDigit), sign.2.dropWhile isDigit)
    else ([], u :: s)

def readMagnitude (s : List UInt16) : Option (List UInt16 × List UInt16) := do
  let (int, s) ← readWhole s
  let (frac, s) := readFraction s
  let (exp, s) := readExponent s
  return (int ++ (frac ++ exp), s)

/-- The literal of a number, and what is left. -/
def readNumber : List UInt16 → Option (List UInt16 × List UInt16)
  | [] => none
  | u :: s => if u = unit '-' then (readMagnitude s).map fun p => (u :: p.1, p.2) else readMagnitude (u :: s)

/-- The first of some words that stands in front, with what it stands for. -/
def readWord {α : Type} (words : List (List UInt16 × α)) (s : List UInt16) : Option (α × List UInt16) :=
  words.findSome? fun w => if w.1 <+: s then some (w.2, s.drop w.1.length) else none

def keywords : List (List UInt16 × Doc) :=
  [(ascii "null", .null), (ascii "true", .bool true), (ascii "false", .bool false)]

variable (D : Dialect)

def readLiteral (s : List UInt16) : Except Failure (Doc × List UInt16) :=
  match readWord keywords s with
  | some (d, s) => .ok (d, s)
  | none =>
    match readNumber s with
    | some (t, s) => if D.fits t then .ok (.num t, s) else .error .literal
    | none =>
      match readWord (D.words.map fun w => (w, Doc.num w)) s with
      | some (d, s) => .ok (d, s)
      | none => .error .malformed

/-- A key and the colon behind it. -/
def readKey (s : List UInt16) : Except Failure (List UInt16 × List UInt16) :=
  match skipBlanks s with
  | [] => .error .malformed
  | u :: s =>
    if u = unit '"' then
      match readString s with
      | none => .error .malformed
      | some (k, s) =>
        match skipBlanks s with
        | [] => .error .malformed
        | u :: s => if u = unit ':' then .ok (k, s) else .error .malformed
    else .error .malformed

/-- A value by its first unit. What stands in brackets is read by `elements` and `members`. -/
def readBehind (elements : List UInt16 → Except Failure (List Doc × List UInt16))
    (members : List UInt16 → Except Failure (List (List UInt16 × Doc) × List UInt16)) (depth : Nat) (u : UInt16)
    (s : List UInt16) : Except Failure (Doc × List UInt16) :=
  if u = unit '"' then
    match readString s with
    | none => .error .malformed
    | some (us, s) => .ok (.str us, s)
  else if u = unit '[' then
    if D.nests depth = false then .error .nesting
    else if (skipBlanks s).head? = some (unit ']') then .ok (.arr [], (skipBlanks s).tail)
    else (elements s).map fun p => (.arr p.1, p.2)
  else if u = unit '{' then
    if D.nests depth = false then .error .nesting
    else if (skipBlanks s).head? = some (unit '}') then .ok (.obj [], (skipBlanks s).tail)
    else (members s).map fun p => (.obj p.1, p.2)
  else readLiteral D (u :: s)

mutual

/-- A value with blanks in front, inside of `depth` arrays and objects. Every step takes a unit of the text or passes to
what takes one, so that twice as much fuel as the text is long is never used up. -/
def readValue : Nat → Nat → List UInt16 → Except Failure (Doc × List UInt16)
  | 0, _, _ => .error .malformed
  | fuel + 1, depth, s =>
    match skipBlanks s with
    | [] => .error .malformed
    | u :: s => readBehind D (readElements fuel (depth + 1)) (readMembers fuel (depth + 1)) depth u s

/-- One or more elements and the closing bracket. -/
def readElements : Nat → Nat → List UInt16 → Except Failure (List Doc × List UInt16)
  | 0, _, _ => .error .malformed
  | fuel + 1, depth, s => do
    let (d, s) ← readValue fuel depth s
    match skipBlanks s with
    | [] => .error .malformed
    | u :: s =>
      if u = unit ',' then do
        let (ds, s) ← readElements fuel depth s
        return (d :: ds, s)
      else if u = unit ']' then return ([d], s)
      else .error .malformed

/-- One or more members and the closing brace. -/
def readMembers : Nat → Nat → List UInt16 → Except Failure (List (List UInt16 × Doc) × List UInt16)
  | 0, _, _ => .error .malformed
  | fuel + 1, depth, s => do
    let (k, s) ← readKey s
    let (d, s) ← readValue fuel depth s
    match skipBlanks s with
    | [] => .error .malformed
    | u :: s =>
      if u = unit ',' then do
        let (ms, s) ← readMembers fuel depth s
        return ((k, d) :: ms, s)
      else if u = unit '}' then return ([(k, d)], s)
      else .error .malformed

end

/-- The document of a whole text. -/
def decode (s : List UInt16) : Except Failure Doc := do
  let (d, s) ← readValue D (2 * s.length + 1) 0 s
  if skipBlanks s = [] then .ok d else .error .malformed

/-! ## What a reader takes -/

mutual

/-- The reader takes what is in a document that stands inside of `depth` arrays and objects. -/
def Takes : Nat → Doc → Prop
  | _, .num t => D.fits t = true
  | depth, .arr ds => D.nests depth = true ∧ TakesItems (depth + 1) ds
  | depth, .obj ms => D.nests depth = true ∧ TakesMembers (depth + 1) ms
  | _, _ => True

def TakesItems : Nat → List Doc → Prop
  | _, [] => True
  | depth, d :: ds => Takes depth d ∧ TakesItems depth ds

def TakesMembers : Nat → List (List UInt16 × Doc) → Prop
  | _, [] => True
  | depth, (_, d) :: ms => Takes depth d ∧ TakesMembers depth ms

end

theorem takesItems_iff (depth : Nat) (ds : List Doc) : TakesItems D depth ds ↔ ∀ d ∈ ds, Takes D depth d := by
  induction ds with
  | nil => simp [TakesItems]
  | cons d ds ih => rw [TakesItems, ih, forall_mem_cons]

theorem takesMembers_iff (depth : Nat) (ms : List (List UInt16 × Doc)) :
    TakesMembers D depth ms ↔ ∀ m ∈ ms, Takes D depth m.2 := by
  induction ms with
  | nil => simp [TakesMembers]
  | cons m ms ih => rw [TakesMembers, ih, forall_mem_cons]

mutual

theorem takes_plain (depth : Nat) : ∀ d : Doc, Takes plain depth d
  | .null | .bool _ | .str _ => by simp [Takes]
  | .num _ => by rw [Takes]; rfl
  | .arr ds => by rw [Takes]; exact ⟨rfl, takesItems_plain (depth + 1) ds⟩
  | .obj ms => by rw [Takes]; exact ⟨rfl, takesMembers_plain (depth + 1) ms⟩

theorem takesItems_plain (depth : Nat) : ∀ ds : List Doc, TakesItems plain depth ds
  | [] => by rw [TakesItems]; trivial
  | d :: ds => by rw [TakesItems]; exact ⟨takes_plain depth d, takesItems_plain depth ds⟩

theorem takesMembers_plain (depth : Nat) : ∀ ms : List (List UInt16 × Doc), TakesMembers plain depth ms
  | [] => by rw [TakesMembers]; trivial
  | (_, d) :: ms => by rw [TakesMembers]; exact ⟨takes_plain depth d, takesMembers_plain depth ms⟩

end

variable {t r w v : List UInt16} {u : UInt16}

theorem skipBlanks_append {s : List UInt16} (hw : Blanks w) (hs : ∀ u ∈ s.head?, isBlank u = false) :
    skipBlanks (w ++ s) = s := by
  unfold skipBlanks
  rw [dropWhile_append_of_pos hw]
  cases s with
  | nil => rfl
  | cons u s => rw [dropWhile_cons_of_neg (by simp [hs u rfl])]

/-- What can stand behind a value. -/
def Ends (r : List UInt16) : Prop :=
  ∀ u ∈ r.head?, isBlank u = true ∨ u = unit ',' ∨ u = unit ']' ∨ u = unit '}'

/-- Units that may belong to a number. -/
def isNumeric (u : UInt16) : Bool :=
  isDigit u || [unit '.', unit 'e', unit 'E', unit '+', unit '-'].contains u

theorem Ends.not_numeric (h : Ends r) : ∀ u ∈ r.head?, isNumeric u = false := by
  intro u hu
  rcases h u hu with hblank | rfl | rfl | rfl
  · simp only [isBlank, Bool.or_eq_true, decide_eq_true_iff] at hblank
    rcases hblank with ((rfl | rfl) | rfl) | rfl <;> decide
  · decide
  · decide
  · decide

theorem span_digits {ds : List UInt16} (hds : ∀ u ∈ ds, isDigit u = true) (hr : ∀ u ∈ r.head?, isDigit u = false) :
    (ds ++ r).takeWhile isDigit = ds ∧ (ds ++ r).dropWhile isDigit = r := by
  rw [takeWhile_append_of_pos hds, dropWhile_append_of_pos hds]
  cases r with
  | nil => simp
  | cons u r => simp [hr u rfl]

theorem Whole.head {int : List UInt16} (h : Whole int) : ∃ u s, int = u :: s ∧ isDigit u = true := by
  rcases h with rfl | ⟨⟨hne, hds⟩, -⟩
  · exact ⟨unit '0', [], rfl, by decide⟩
  · obtain ⟨u, s, rfl⟩ := exists_cons_of_ne_nil hne
    exact ⟨u, s, rfl, hds u mem_cons_self⟩

theorem readWhole_append {int : List UInt16} (h : Whole int) (hr : ∀ u ∈ r.head?, isDigit u = false) :
    readWhole (int ++ r) = some (int, r) := by
  rcases h with rfl | ⟨⟨hne, hds⟩, hhead⟩
  · rfl
  obtain ⟨u, ds, rfl⟩ := exists_cons_of_ne_nil hne
  obtain ⟨htake, hdrop⟩ := span_digits hds hr
  rw [cons_append] at htake hdrop ⊢
  rw [readWhole, if_neg (fun h => hhead (congrArg some h)), if_pos (hds u mem_cons_self), htake, hdrop]

theorem readFraction_append (h : Fraction t) (hr : ∀ u ∈ r.head?, isDigit u = false ∧ u ≠ unit '.') :
    readFraction (t ++ r) = (t, r) := by
  rcases h with rfl | ⟨ds, ⟨hne, hds⟩, rfl⟩
  · cases r with
    | nil => rfl
    | cons u r => exact if_neg fun h => (hr u rfl).2 h.1
  · obtain ⟨htake, hdrop⟩ := span_digits hds fun u hu => (hr u hu).1
    rw [cons_append, readFraction, htake, hdrop, if_pos ⟨rfl, hne⟩]

theorem readSign_append {sign ds : List UInt16} (h : sign = [] ∨ sign = ascii "+" ∨ sign = ascii "-") (hds : Digits ds)
    (r : List UInt16) : readSign (sign ++ (ds ++ r)) = (sign, ds ++ r) := by
  obtain ⟨u, ds, rfl⟩ := exists_cons_of_ne_nil hds.1
  have hu := hds.2 u mem_cons_self
  rcases h with rfl | rfl | rfl
  · refine if_neg ?_
    rintro (rfl | rfl)
    · exact absurd hu (by decide)
    · exact absurd hu (by decide)
  · rfl
  · rfl

theorem not_digit_of_not_numeric (h : isNumeric u = false) :
    isDigit u = false ∧ u ≠ unit '.' ∧ u ≠ unit 'e' ∧ u ≠ unit 'E' := by
  rw [isNumeric, Bool.or_eq_false_iff] at h
  refine ⟨h.1, ?_, ?_, ?_⟩
  all_goals
    rintro rfl
    exact absurd h.2 (by decide)

theorem readExponent_append (h : Exponent t) (hr : ∀ u ∈ r.head?, isNumeric u = false) :
    readExponent (t ++ r) = (t, r) := by
  rcases h with rfl | ⟨e, sign, ds, he, hsign, hds, rfl⟩
  · cases r with
    | nil => rfl
    | cons u r =>
      have hu := not_digit_of_not_numeric (hr u rfl)
      refine if_neg fun h => ?_
      rcases h.1 with h | h
      · exact hu.2.2.1 h
      · exact hu.2.2.2 h
  · obtain ⟨htake, hdrop⟩ := span_digits hds.2 fun u hu => (not_digit_of_not_numeric (hr u hu)).1
    rw [cons_append, append_assoc, readExponent, readSign_append hsign hds, htake, hdrop, if_pos ⟨he, hds.1⟩]

theorem Exponent.head_append (h : Exponent t) (hr : ∀ u ∈ r.head?, isNumeric u = false) :
    ∀ u ∈ (t ++ r).head?, isDigit u = false ∧ u ≠ unit '.' := by
  intro u hu
  rcases h with rfl | ⟨e, sign, ds, he, hsign, hds, rfl⟩
  · have hnot := not_digit_of_not_numeric (hr u hu)
    exact ⟨hnot.1, hnot.2.1⟩
  · obtain rfl : e = u := Option.some.inj hu
    rcases he with rfl | rfl
    · decide
    · decide

theorem Fraction.head_append (h : Fraction t) (hr : ∀ u ∈ r.head?, isDigit u = false ∧ u ≠ unit '.') :
    ∀ u ∈ (t ++ r).head?, isDigit u = false := by
  intro u hu
  rcases h with rfl | ⟨ds, -, rfl⟩
  · exact (hr u hu).1
  · obtain rfl : unit '.' = u := Option.some.inj hu
    decide

/-- **A number is read up to its end.** -/
theorem readNumber_append (h : Number t) (hr : ∀ u ∈ r.head?, isNumeric u = false) :
    readNumber (t ++ r) = some (t, r) := by
  obtain ⟨sign, int, frac, exp, hsign, hint, hfrac, hexp, rfl⟩ := h
  have hmagnitude : readMagnitude (int ++ (frac ++ (exp ++ r))) = some (int ++ (frac ++ exp), r) := by
    rw [readMagnitude, readWhole_append hint (hfrac.head_append (hexp.head_append hr))]
    simp only [Option.bind_eq_bind, Option.bind_some, readFraction_append hfrac (hexp.head_append hr),
      readExponent_append hexp hr]
    rfl
  simp only [append_assoc]
  rcases hsign with rfl | rfl
  · obtain ⟨u, s, rfl, hu⟩ := hint.head
    have hminus : u ≠ unit '-' := by
      rintro rfl
      exact absurd hu (by decide)
    rw [nil_append, nil_append, cons_append, readNumber, if_neg hminus, ← cons_append, hmagnitude]
  · have hminus : ascii "-" = [unit '-'] := rfl
    rw [hminus, singleton_append, readNumber, if_pos rfl, hmagnitude]
    rfl

/-! ## Values -/

theorem Number.head (h : Number t) : ∃ u s, t = u :: s ∧ (isDigit u = true ∨ u = unit '-') := by
  obtain ⟨sign, int, frac, exp, rfl | rfl, hint, -, -, rfl⟩ := h
  · obtain ⟨u, s, rfl, hu⟩ := hint.head
    exact ⟨u, s ++ (frac ++ exp), rfl, .inl hu⟩
  · exact ⟨unit '-', int ++ (frac ++ exp), rfl, .inr rfl⟩

/-- A number begins with nothing that another value could begin with. -/
theorem ne_of_numeric (h : isDigit u = true ∨ u = unit '-') : isBlank u = false ∧
    ∀ v ∈ [unit '"', unit '[', unit ']', unit '{', unit '}', unit 'n', unit 't', unit 'f'], u ≠ v := by
  refine ⟨?_, fun v hv => ?_⟩
  · rw [Bool.eq_false_iff]
    intro hblank
    simp only [isBlank, Bool.or_eq_true, decide_eq_true_iff] at hblank
    rcases hblank with ((rfl | rfl) | rfl) | rfl <;> exact absurd h (by decide)
  · rintro rfl
    simp only [mem_cons, not_mem_nil, or_false] at hv
    rcases hv with rfl | rfl | rfl | rfl | rfl | rfl | rfl | rfl <;> exact absurd h (by decide)

theorem value_head {d : Doc} (h : Value d t) : ∃ u s, t = u :: s ∧ isBlank u = false ∧ u ≠ unit ']' ∧ u ≠ unit '}' := by
  cases h with
  | null | true | false => exact ⟨_, _, rfl, by decide⟩
  | num h =>
    obtain ⟨u, s, rfl, hu⟩ := h.head
    have hne := ne_of_numeric hu
    exact ⟨u, s, rfl, hne.1, hne.2 _ (by decide), hne.2 _ (by decide)⟩
  | str | emptyArr | arr | emptyObj | obj => exact ⟨_, _, rfl, by decide⟩

theorem elements_head {ds : List Doc} (h : Elements ds t) :
    ∃ w u s, t = w ++ u :: s ∧ Blanks w ∧ isBlank u = false ∧ u ≠ unit ']' := by
  cases h with
  | one h =>
    obtain ⟨hw, ht, hv⟩ := h
    obtain ⟨u, s, rfl, hu⟩ := value_head ht
    exact ⟨_, u, _, rfl, hw, hu.1, hu.2.1⟩
  | cons h _ =>
    obtain ⟨hw, ht, hv⟩ := h
    obtain ⟨u, s, rfl, hu⟩ := value_head ht
    exact ⟨_, u, _, by simp only [append_assoc, cons_append]; rfl, hw, hu.1, hu.2.1⟩

theorem members_head {ms : List (List UInt16 × Doc)} (h : Members ms t) : ∃ w s, t = w ++ unit '"' :: s ∧ Blanks w := by
  cases h with
  | one h =>
    obtain ⟨hw, -, -, -⟩ := h
    exact ⟨_, _, rfl, hw⟩
  | cons h _ =>
    obtain ⟨hw, -, -, -⟩ := h
    exact ⟨_, _, by simp only [append_assoc, cons_append]; rfl, hw⟩

theorem readWord_keywords (h : ∀ v ∈ [unit 'n', unit 't', unit 'f'], u ≠ v) (s : List UInt16) :
    readWord keywords (u :: s) = none := by
  have hn := h (unit 'n') (by decide)
  have ht := h (unit 't') (by decide)
  have hf := h (unit 'f') (by decide)
  simp [readWord, keywords, ascii, cons_prefix_cons, hn.symm, ht.symm, hf.symm]

theorem readLiteral_number (h : Number t) (hfits : D.fits t = true) (hr : Ends r) :
    readLiteral D (t ++ r) = .ok (.num t, r) := by
  have hnumber := readNumber_append h hr.not_numeric
  obtain ⟨u, s, rfl, hu⟩ := h.head
  have hne := (ne_of_numeric hu).2
  rw [cons_append] at hnumber ⊢
  rw [readLiteral, readWord_keywords fun v hv => hne v (mem_of_mem_drop (i := 5) hv)]
  dsimp only
  rw [hnumber]
  exact if_pos hfits

theorem ends_blanks (hv : Blanks v) (hr : Ends r) : Ends (v ++ r) := by
  cases v with
  | nil => exact hr
  | cons u v =>
    intro u' hu
    obtain rfl : u = u' := Option.some.inj hu
    exact .inl (hv u mem_cons_self)

theorem ends_cons (h : u = unit ',' ∨ u = unit ']' ∨ u = unit '}') (r : List UInt16) : Ends (u :: r) := by
  intro u' hu
  obtain rfl : u = u' := Option.some.inj hu
  exact .inr h

variable {D}

/-- How a value goes on behind the blanks in front of it. -/
theorem readValue_cons (hw : Blanks w) (hu : isBlank u = false) (fuel depth : Nat) (s : List UInt16) :
    readValue D (fuel + 1) depth (w ++ u :: s) =
      readBehind D (readElements D fuel (depth + 1)) (readMembers D fuel (depth + 1)) depth u s := by
  have hskip : skipBlanks (w ++ u :: s) = u :: s := by
    refine skipBlanks_append hw fun v hv => ?_
    rwa [← Option.some.inj hv]
  rw [readValue, hskip]

theorem skipBlanks_close (hv : Blanks v) (hu : isBlank u = false) (r : List UInt16) :
    skipBlanks (v ++ u :: r) = u :: r :=
  skipBlanks_append hv fun u' hu' => by rwa [← Option.some.inj hu']

theorem readKey_derived {k us : List UInt16} (hw : Blanks w) (hk : Chars k us) (hv : Blanks v) (s : List UInt16) :
    readKey (w ++ unit '"' :: (k ++ unit '"' :: (v ++ unit ':' :: s))) = .ok (us, s) := by
  rw [readKey, skipBlanks_close hw (by decide)]
  dsimp only
  rw [if_pos rfl, readString_chars hk]
  dsimp only
  rw [skipBlanks_close hv (by decide)]
  exact if_pos rfl

/-- A container that does not close at once, where the reader takes another one. -/
theorem readValue_array (hw : Blanks w) {fuel depth : Nat} {s : List UInt16} (hnests : D.nests depth = true)
    (hhead : (skipBlanks s).head? ≠ some (unit ']')) :
    readValue D (fuel + 1) depth (w ++ unit '[' :: s) =
      (readElements D fuel (depth + 1) s).map fun p => (.arr p.1, p.2) := by
  rw [readValue_cons hw (by decide), readBehind, if_neg (by decide), if_pos rfl, hnests, if_neg (by decide), if_neg hhead]

theorem readValue_object (hw : Blanks w) {fuel depth : Nat} {s : List UInt16} (hnests : D.nests depth = true)
    (hhead : (skipBlanks s).head? ≠ some (unit '}')) :
    readValue D (fuel + 1) depth (w ++ unit '{' :: s) =
      (readMembers D fuel (depth + 1) s).map fun p => (.obj p.1, p.2) := by
  rw [readValue_cons hw (by decide), readBehind, if_neg (by decide), if_neg (by decide), if_pos rfl, hnests,
    if_neg (by decide), if_neg hhead]

/-- How a list goes on behind an item that is read. -/
theorem readElements_of_value {fuel depth : Nat} {s s' : List UInt16} {d : Doc}
    (hread : readValue D fuel depth s = .ok (d, s')) (hskip : skipBlanks s' = u :: r) :
    readElements D (fuel + 1) depth s =
      if u = unit ',' then readElements D fuel depth r >>= fun p => .ok (d :: p.1, p.2)
      else if u = unit ']' then .ok ([d], r)
      else .error .malformed := by
  rw [readElements, hread]
  show (match skipBlanks s' with | [] => _ | u :: s => _) = _
  rw [hskip]
  rfl

theorem readMembers_of_value {fuel depth : Nat} {s s' k : List UInt16} {d : Doc} (hkey : readKey t = .ok (k, s))
    (hread : readValue D fuel depth s = .ok (d, s')) (hskip : skipBlanks s' = u :: r) :
    readMembers D (fuel + 1) depth t =
      if u = unit ',' then readMembers D fuel depth r >>= fun p => .ok ((k, d) :: p.1, p.2)
      else if u = unit '}' then .ok ([(k, d)], r)
      else .error .malformed := by
  rw [readMembers, hkey]
  show (readValue D fuel depth s >>= _) = _
  rw [hread]
  show (match skipBlanks s' with | [] => _ | u :: s => _) = _
  rw [hskip]
  rfl

mutual

/-- **What is derived is read**, behind blanks and in front of anything that can stand behind a value. -/
theorem value_derived : ∀ {d : Doc} {t : List UInt16}, Value d t → ∀ {depth : Nat}, Takes D depth d →
    ∀ (fuel : Nat) {w r : List UInt16}, Blanks w → Ends r → t.length ≤ fuel →
      readValue D fuel depth (w ++ (t ++ r)) = .ok (d, r)
  | _, _, h, _, _, 0, w, r, _, _, hfuel => by
    obtain ⟨u, s, rfl, -⟩ := value_head h
    exact absurd hfuel (by simp)
  | _, _, .null, _, _, fuel + 1, w, r, hw, _, _ | _, _, .true, _, _, fuel + 1, w, r, hw, _, _
  | _, _, .false, _, _, fuel + 1, w, r, hw, _, _ => readValue_cons hw (by decide) fuel _ _
  | _, _, @Value.num t h, _, htakes, fuel + 1, w, r, hw, hr, _ => by
    rw [Takes] at htakes
    have hliteral := readLiteral_number D h htakes hr
    obtain ⟨u, s, rfl, hu⟩ := h.head
    have hne := ne_of_numeric hu
    rw [cons_append] at hliteral ⊢
    rw [readValue_cons hw hne.1, readBehind, if_neg (hne.2 _ (by decide)), if_neg (hne.2 _ (by decide)),
      if_neg (hne.2 _ (by decide)), hliteral]
  | _, _, .str h, _, _, fuel + 1, w, r, hw, _, _ => by
    rw [cons_append, append_assoc, readValue_cons hw (by decide), readBehind, if_pos rfl, singleton_append,
      readString_chars h]
  | _, _, .emptyArr hv, _, htakes, fuel + 1, w, r, hw, _, _ => by
    rw [Takes] at htakes
    rw [cons_append, append_assoc, readValue_cons hw (by decide), readBehind, if_neg (by decide), if_pos rfl, htakes.1,
      if_neg (by decide), singleton_append, skipBlanks_close hv (by decide)]
    rfl
  | _, _, .emptyObj hv, _, htakes, fuel + 1, w, r, hw, _, _ => by
    rw [Takes] at htakes
    rw [cons_append, append_assoc, readValue_cons hw (by decide), readBehind, if_neg (by decide), if_neg (by decide),
      if_pos rfl, htakes.1, if_neg (by decide), singleton_append, skipBlanks_close hv (by decide)]
    rfl
  | _, _, .arr h, _, htakes, fuel + 1, w, r, hw, _, hfuel => by
    rw [Takes] at htakes
    rw [length_cons, length_append, length_singleton] at hfuel
    have hread := elements_derived h htakes.2 fuel r (by omega)
    obtain ⟨v, u, s, rfl, hv, hu, hclose⟩ := elements_head h
    rw [cons_append, append_assoc, singleton_append, readValue_array hw htakes.1, hread]
    · rfl
    · rw [append_assoc, cons_append, skipBlanks_close hv hu]
      exact fun h => hclose (Option.some.inj h)
  | _, _, .obj h, _, htakes, fuel + 1, w, r, hw, _, hfuel => by
    rw [Takes] at htakes
    rw [length_cons, length_append, length_singleton] at hfuel
    have hread := members_derived h htakes.2 fuel r (by omega)
    obtain ⟨v, s, rfl, hv⟩ := members_head h
    rw [cons_append, append_assoc, singleton_append, readValue_object hw htakes.1, hread]
    · rfl
    · rw [append_assoc, cons_append, skipBlanks_close hv (by decide)]
      exact fun h => absurd (Option.some.inj h) (by decide)

/-- An element, up to the unit behind its blanks. -/
theorem element_derived : ∀ {d : Doc} {t : List UInt16}, Element d t → ∀ {depth : Nat}, Takes D depth d →
    ∀ (fuel : Nat) {u : UInt16} (r : List UInt16), u = unit ',' ∨ u = unit ']' ∨ u = unit '}' → t.length ≤ fuel →
      ∃ s, readValue D fuel depth (t ++ u :: r) = .ok (d, s) ∧ skipBlanks s = u :: r
  | _, _, @Element.mk w v _ t hw ht hv, _, htakes, fuel, u, r, hu, hfuel => by
    rw [length_append, length_append] at hfuel
    have hread := value_derived ht htakes fuel hw (ends_blanks hv (ends_cons hu r)) (by omega)
    have hblank : isBlank u = false := by
      rcases hu with rfl | rfl | rfl <;> decide
    refine ⟨v ++ u :: r, ?_, skipBlanks_close hv hblank r⟩
    rwa [append_assoc, append_assoc]

theorem elements_derived : ∀ {ds : List Doc} {t : List UInt16}, Elements ds t → ∀ {depth : Nat},
    TakesItems D depth ds → ∀ (fuel : Nat) (r : List UInt16), t.length + 1 ≤ fuel →
      readElements D fuel depth (t ++ unit ']' :: r) = .ok (ds, r)
  | _, _, .one h, _, htakes, fuel + 1, r, hfuel => by
    rw [TakesItems] at htakes
    obtain ⟨s, hread, hskip⟩ := element_derived h htakes.1 fuel r (.inr (.inl rfl)) (by omega)
    exact readElements_of_value hread hskip
  | _, _, @Elements.cons d ds t ts h hts, depth, htakes, fuel + 1, r, hfuel => by
    rw [TakesItems] at htakes
    rw [length_append, length_cons] at hfuel
    have hrest := elements_derived hts htakes.2 fuel r (by omega)
    obtain ⟨s, hread, hskip⟩ := element_derived h htakes.1 fuel (ts ++ unit ']' :: r) (.inl rfl) (by omega)
    rw [append_assoc, cons_append, readElements_of_value hread hskip, if_pos rfl, hrest]
    rfl

theorem member_derived : ∀ {k : List UInt16} {d : Doc} {t : List UInt16}, Member k d t → ∀ {depth : Nat},
    Takes D depth d → ∀ (fuel : Nat) {u : UInt16} (r : List UInt16),
      u = unit ',' ∨ u = unit ']' ∨ u = unit '}' → t.length ≤ fuel →
      ∃ s s', readKey (t ++ u :: r) = .ok (k, s) ∧ readValue D fuel depth s = .ok (d, s') ∧ skipBlanks s' = u :: r
  | _, _, _, .mk hw hk hv h, _, htakes, fuel, u, r, hu, hfuel => by
    simp only [length_append, length_cons] at hfuel
    obtain ⟨s, hread, hskip⟩ := element_derived h htakes fuel r hu (by omega)
    refine ⟨_, s, ?_, hread, hskip⟩
    simp only [append_assoc, cons_append]
    exact readKey_derived hw hk hv _

theorem members_derived : ∀ {ms : List (List UInt16 × Doc)} {t : List UInt16}, Members ms t → ∀ {depth : Nat},
    TakesMembers D depth ms → ∀ (fuel : Nat) (r : List UInt16), t.length + 1 ≤ fuel →
      readMembers D fuel depth (t ++ unit '}' :: r) = .ok (ms, r)
  | _, _, .one h, depth, htakes, fuel + 1, r, hfuel => by
    rw [TakesMembers] at htakes
    obtain ⟨s, s', hkey, hread, hskip⟩ := member_derived h htakes.1 fuel r (.inr (.inr rfl)) (by omega)
    exact readMembers_of_value hkey hread hskip
  | _, _, @Members.cons k d ms t ts h hts, depth, htakes, fuel + 1, r, hfuel => by
    rw [TakesMembers] at htakes
    rw [length_append, length_cons] at hfuel
    have hrest := members_derived hts htakes.2 fuel r (by omega)
    obtain ⟨s, s', hkey, hread, hskip⟩ := member_derived h htakes.1 fuel (ts ++ unit '}' :: r) (.inl rfl) (by omega)
    rw [append_assoc, cons_append, readMembers_of_value hkey hread hskip, if_pos rfl, hrest]
    rfl

end

/-- **Main result.** A text of the grammar is read as the document it is derived for. -/
theorem decode_derived {d : Doc} (h : Element d t) (htakes : Takes D 0 d) : decode D t = .ok d := by
  obtain @⟨w, v, _, _, hw, ht, hv⟩ := h
  have hread := fun fuel => value_derived ht htakes fuel hw (ends_blanks hv (r := []) (by simp [Ends]))
  simp only [append_nil] at hread
  rw [decode, hread _ (by simp only [length_append]; omega)]
  have hskip := skipBlanks_append hv (s := []) (by simp)
  rw [append_nil] at hskip
  exact if_pos hskip

/-- A text stands for one document. -/
theorem element_unique {d d' : Doc} (h : Element d t) (h' : Element d' t) : d = d' :=
  Except.ok.inj ((decode_derived h (takes_plain 0 d)).symm.trans (decode_derived h' (takes_plain 0 d')))

end JsonGrammar
