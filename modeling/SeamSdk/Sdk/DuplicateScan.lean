import SeamSdk.Lib.JsonGrammar
import SeamSdk.Sdk.Issued

/-!
# The scanner for repeated keys

`jsonHasDuplicateKey` walks over a JSON text once, with a stack of open containers and a flag that says whether the next
string is a key. The text is in UTF-16 units, as a string of TypeScript is, and a key is compared as its units after
unescaping, which is `JSON.parse` on the text of one string (`ReadsKeys`).

The scanner never builds the document. But on a text of the grammar, in front of anything, it has found a repeated key or
it goes on behind the text as if it had not been there: `scan_value` for a value, `scan_elements` within an array,
`scan_members` within an object. So it finds a repeated key exactly where some object has one
(`duplicate_scan_exact`), and a token whose header or payload repeats a key is refused (`repeated_key_refused`).
-/

namespace SeamSdk

open JsonGrammar List Option

namespace TypeScript.Units

/-- `JSON.parse` of a string. -/
def jsonParseString : List UInt16 → Option (List UInt16)
  | [] => none
  | u :: s =>
    if u = unit '"' then do
      let (us, rest) ← readString s
      if rest.all isBlank then some us else none
    else none

/-- Whether a key is repeated; `none` where it throws. -/
def jsonHasDuplicateKey (text : List UInt16) : Option Bool := scan jsonParseString none [] false text

/-- A string of the grammar is read as its units. -/
def ReadsKeys (parse : List UInt16 → Option (List UInt16)) : Prop :=
  ∀ {t us : List UInt16}, Chars t us → parse (unit '"' :: (t ++ [unit '"'])) = some us

theorem readsKeys_jsonParseString : ReadsKeys jsonParseString := by
  intro t us h
  rw [jsonParseString, if_pos rfl, readString_chars h []]
  rfl

variable {parse : List UInt16 → Option (List UInt16)}

/-! ## One unit -/

/-- A unit that the scanner passes over outside strings. -/
def passed (u : UInt16) : Bool := !([unit '"', unit '{', unit '[', unit '}', unit ']', unit ',', unit ':'].contains u)

section Steps

variable {stack : List (Option (List (List UInt16)))} {expectKey : Bool} {u : UInt16} {us : List UInt16}

theorem scan_passed (h : passed u = true) :
    scan parse none stack expectKey (u :: us) = scan parse none stack expectKey us := by
  simp only [passed, Bool.not_eq_true', contains_eq_mem, decide_eq_false_iff_not, mem_cons, not_mem_nil,
    or_false, not_or] at h
  obtain ⟨hquote, hobj, harr, hendObj, hendArr, hcomma, hcolon⟩ := h
  refine (if_neg hquote).trans ?_
  rw [if_neg hobj, if_neg harr, if_neg (not_or.mpr ⟨hendObj, hendArr⟩), if_neg hcomma, if_neg hcolon]

theorem scan_passed_all {w : List UInt16} (h : w.all passed = true) :
    scan parse none stack expectKey (w ++ us) = scan parse none stack expectKey us := by
  induction w with
  | nil => rfl
  | cons v w ih =>
    rw [all_cons, Bool.and_eq_true] at h
    rw [cons_append, scan_passed h.1, ih h.2]

theorem scan_quote :
    scan parse none stack expectKey (unit '"' :: us) = scan parse (some ([unit '"'], false)) stack expectKey us :=
  if_pos rfl

theorem scan_openObj : scan parse none stack expectKey (unit '{' :: us) = scan parse none (some [] :: stack) true us := rfl

theorem scan_openArr : scan parse none stack expectKey (unit '[' :: us) = scan parse none (none :: stack) false us := rfl

theorem scan_comma :
    scan parse none stack expectKey (unit ',' :: us) = scan parse none stack (stack.head?.join.isSome) us := rfl

theorem scan_colon : scan parse none stack expectKey (unit ':' :: us) = scan parse none stack false us := rfl

theorem scan_skip (h : u ≠ unit '"') (lit : List UInt16) : scan parse (some (lit, false)) stack expectKey (u :: us) =
    scan parse (some (u :: lit, u == unit '\\')) stack expectKey us := if_neg h

end Steps

/-! ## Blanks, literals and numbers -/

variable {u : UInt16} {t : List UInt16}

theorem passed_of_blank (h : isBlank u = true) : passed u = true := by
  simp only [isBlank, Bool.or_eq_true, decide_eq_true_eq] at h
  rcases h with ((rfl | rfl) | rfl) | rfl <;> rfl

theorem passed_of_blanks {w : List UInt16} (h : Blanks w) : w.all passed = true :=
  all_eq_true.mpr fun u hu => passed_of_blank (h u hu)

theorem passed_of_digit (h : isDigit u = true) : passed u = true := by
  simp only [passed, Bool.not_eq_true', contains_eq_mem, decide_eq_false_iff_not, mem_cons, not_mem_nil,
    or_false]
  rintro (rfl | rfl | rfl | rfl | rfl | rfl | rfl) <;> cases h

theorem passed_of_number (h : Number t) : t.all passed = true :=
  all_number (fun _ => passed_of_digit) (by decide) h

/-! ## Strings -/

/-- A unit that does not end a string and does not escape. -/
theorem ne_of_hexValue {n : Nat} (h : hexValue u = some n) : u ≠ unit '"' ∧ u ≠ unit '\\' := by
  constructor
  · rintro rfl
    cases h
  · rintro rfl
    cases h

theorem ne_of_hex4 {a b c d : UInt16} (h : hex4 a b c d = some u) :
    ∀ v ∈ [a, b, c, d], v ≠ unit '"' ∧ v ≠ unit '\\' := by
  obtain ⟨na, ha, h⟩ := bind_eq_some_iff.mp h
  obtain ⟨nb, hb, h⟩ := bind_eq_some_iff.mp h
  obtain ⟨nc, hc, h⟩ := bind_eq_some_iff.mp h
  obtain ⟨nd, hd, -⟩ := bind_eq_some_iff.mp h
  simp only [forall_mem_cons, not_mem_nil, false_implies, implies_true, and_true]
  exact ⟨ne_of_hexValue ha, ne_of_hexValue hb, ne_of_hexValue hc, ne_of_hexValue hd⟩

section Strings

variable {stack : List (Option (List (List UInt16)))} {expectKey : Bool}

theorem scan_inside (h : u ≠ unit '"' ∧ u ≠ unit '\\') (lit us : List UInt16) :
    scan parse (some (lit, false)) stack expectKey (u :: us) = scan parse (some (u :: lit, false)) stack expectKey us := by
  rw [scan_skip h.1, beq_eq_false_iff_ne.mpr h.2]

theorem scan_escape (u : UInt16) (lit us : List UInt16) :
    scan parse (some (lit, false)) stack expectKey (unit '\\' :: u :: us) =
      scan parse (some (u :: unit '\\' :: lit, false)) stack expectKey us := by
  rw [scan_skip (by decide), beq_self_eq_true]
  rfl

variable {us : List UInt16}

/-- **A string is skipped up to its closing quote**, whatever stands in it. -/
theorem scan_chars (h : Chars t us) (lit r : List UInt16) :
    scan parse (some (lit, false)) stack expectKey (t ++ unit '"' :: r) =
      scan parse (some (t.reverse ++ lit, false)) stack expectKey (unit '"' :: r) := by
  induction h generalizing lit with
  | nil => rfl
  | @plain u t us _ hquote hslash _ ih =>
    rw [cons_append, scan_inside ⟨hquote, hslash⟩, ih]
    simp
  | @short c u t us _ _ ih =>
    rw [cons_append, cons_append, scan_escape, ih]
    simp
  | @hex a b c d u t us hhex _ ih =>
    have hne := ne_of_hex4 hhex
    simp only [forall_mem_cons, not_mem_nil, false_implies, implies_true, and_true] at hne
    obtain ⟨ha, hb, hc, hd⟩ := hne
    simp only [cons_append]
    rw [scan_escape, scan_inside ha, scan_inside hb, scan_inside hc, scan_inside hd, ih]
    simp

/-- A string that is no key changes nothing. -/
theorem scan_string (h : Chars t us) (r : List UInt16) :
    scan parse none stack false (unit '"' :: (t ++ unit '"' :: r)) = scan parse none stack false r := by
  rw [scan_quote, scan_chars h]
  exact if_pos rfl

/-- A key is added to those of its object, unless it is there already. -/
theorem scan_key (hparse : ReadsKeys parse) (h : Chars t us) (seen : List (List UInt16)) (r : List UInt16) :
    scan parse none (some seen :: stack) true (unit '"' :: (t ++ unit '"' :: r)) =
      if us ∈ seen then some true else scan parse none (some (us :: seen) :: stack) false r := by
  have hkey : parse (unit '"' :: (t.reverse ++ [unit '"'])).reverse = some us := by
    rw [reverse_cons, reverse_append, reverse_reverse, reverse_singleton, singleton_append, cons_append, hparse h]
  rw [scan_quote, scan_chars h]
  refine (if_pos rfl).trans ?_
  simp only [hkey]

end Strings

/-! ## Documents -/

open Doc (repeats repeatsItems repeatsMembers)

/-- Once a key is repeated, nothing behind it matters. -/
theorem or_scan {a b : Bool} {r : Option Bool} :
    (if a then some true else if b then some true else r) = if a || b then some true else r := by
  cases a <;> rfl

mutual

/-- **A value is passed over**, unless some object in it repeats a key. -/
theorem scan_value (hparse : ReadsKeys parse) {stack : List (Option (List (List UInt16)))} :
    ∀ {d : Doc} {t : List UInt16}, JsonGrammar.Value d t → ∀ r : List UInt16,
      scan parse none stack false (t ++ r) = if d.repeats then some true else scan parse none stack false r
  | _, _, .null, r | _, _, .true, r | _, _, .false, r => by
    simp only [repeats]
    exact scan_passed_all rfl
  | _, _, .num h, r => by
    simp only [repeats]
    exact scan_passed_all (passed_of_number h)
  | _, _, .str h, r => by
    simp only [repeats, cons_append, append_assoc]
    exact scan_string h r
  | _, _, .emptyArr h, r => by
    rw [repeats, repeatsItems, cons_append, append_assoc, scan_openArr,
      scan_passed_all (passed_of_blanks h)]
    rfl
  | _, _, .arr h, r => by
    rw [repeats, cons_append, append_assoc, scan_openArr, scan_elements hparse h]
    rfl
  | _, _, .emptyObj h, r => by
    rw [repeats, repeatsMembers, cons_append, append_assoc, scan_openObj,
      scan_passed_all (passed_of_blanks h)]
    rfl
  | _, _, .obj h, r => by
    rw [repeats, cons_append, append_assoc, scan_openObj, scan_members hparse h]
    rfl

theorem scan_element (hparse : ReadsKeys parse) {stack : List (Option (List (List UInt16)))} :
    ∀ {d : Doc} {t : List UInt16}, Element d t → ∀ r : List UInt16,
      scan parse none stack false (t ++ r) = if d.repeats then some true else scan parse none stack false r
  | _, _, .mk hw h hv, r => by
    rw [append_assoc, append_assoc, scan_passed_all (passed_of_blanks hw), scan_value hparse h,
      scan_passed_all (passed_of_blanks hv)]

/-- In an array no string is a key. -/
theorem scan_elements (hparse : ReadsKeys parse) {stack : List (Option (List (List UInt16)))} :
    ∀ {ds : List Doc} {t : List UInt16}, Elements ds t → ∀ r : List UInt16, scan parse none (none :: stack) false (t ++ r) =
      if repeatsItems ds then some true else scan parse none (none :: stack) false r
  | _, _, .one h, r => by rw [repeatsItems, repeatsItems, Bool.or_false, scan_element hparse h]
  | _, _, .cons h hs, r => by
    rw [repeatsItems, append_assoc, scan_element hparse h, cons_append, scan_comma, List.head?_cons,
      join_some, isSome_none, scan_elements hparse hs, or_scan]

/-- A member leaves its key behind. -/
theorem scan_member (hparse : ReadsKeys parse) {stack : List (Option (List (List UInt16)))} (seen : List (List UInt16)) :
    ∀ {k : List UInt16} {d : Doc} {t : List UInt16}, Member k d t → ∀ r : List UInt16,
      scan parse none (some seen :: stack) true (t ++ r) =
        if decide (k ∈ seen) || d.repeats then some true else scan parse none (some (k :: seen) :: stack) false r
  | _, _, _, .mk hw hk hv h, r => by
    simp only [append_assoc, cons_append]
    rw [scan_passed_all (passed_of_blanks hw), scan_key hparse hk,
      scan_passed_all (passed_of_blanks hv), scan_colon, scan_element hparse h, ← or_scan]
    simp

/-- In an object every second string is a key. -/
theorem scan_members (hparse : ReadsKeys parse) {stack : List (Option (List (List UInt16)))} :
    ∀ {seen : List (List UInt16)} {ms : List (List UInt16 × Doc)} {t : List UInt16}, Members ms t → ∀ r : List UInt16,
      scan parse none (some seen :: stack) true (t ++ r) =
        if repeatsMembers seen ms then some true
        else scan parse none (some ((ms.map Prod.fst).reverse ++ seen) :: stack) false r
  | seen, _, _, .one h, r => by
    rw [repeatsMembers, repeatsMembers, Bool.or_false, scan_member hparse seen h]
    rfl
  | seen, _, _, .cons h hs, r => by
    rw [repeatsMembers, ← Bool.or_assoc, append_assoc, scan_member hparse seen h, cons_append, scan_comma,
      List.head?_cons, join_some, isSome_some, scan_members hparse hs, or_scan]
    simp

end

/-- **The scanner is exact**: on a JSON text it does not throw, and it finds what there is. -/
theorem scan_text (hparse : ReadsKeys parse) {d : Doc} {text : List UInt16} (h : Element d text) :
    scan parse none [] false text = some d.repeats := by
  have hscan : scan parse none [] false (text ++ []) = _ := scan_element hparse h []
  rw [append_nil] at hscan
  rw [hscan]
  cases d.repeats <;> rfl

theorem jsonHasDuplicateKey_eq {d : Doc} {text : List UInt16} (h : Element d text) :
    jsonHasDuplicateKey text = some d.repeats := scan_text readsKeys_jsonParseString h

mutual

/-- A document with every scalar replaced. -/
def skeleton : Doc → Doc
  | .arr ds => .arr (skeletonItems ds)
  | .obj ms => .obj (skeletonMembers ms)
  | _ => .null

def skeletonItems : List Doc → List Doc
  | [] => []
  | d :: ds => skeleton d :: skeletonItems ds

def skeletonMembers : List (List UInt16 × Doc) → List (List UInt16 × Doc)
  | [] => []
  | (k, d) :: ms => (k, skeleton d) :: skeletonMembers ms

end

mutual

/-- Scalars do not matter. -/
theorem repeats_skeleton : ∀ d : Doc, (skeleton d).repeats = d.repeats
  | .null | .bool _ | .num _ | .str _ => by simp only [skeleton, repeats]
  | .arr ds => by rw [skeleton, repeats, repeats, repeatsItems_skeleton ds]
  | .obj ms => by rw [skeleton, repeats, repeats, repeatsMembers_skeleton [] ms]

theorem repeatsItems_skeleton : ∀ ds : List Doc, repeatsItems (skeletonItems ds) = repeatsItems ds
  | [] => by rw [skeletonItems]
  | d :: ds => by rw [skeletonItems, repeatsItems, repeatsItems, repeats_skeleton d, repeatsItems_skeleton ds]

theorem repeatsMembers_skeleton (seen : List (List UInt16)) : ∀ ms : List (List UInt16 × Doc),
    repeatsMembers seen (skeletonMembers ms) = repeatsMembers seen ms
  | [] => by rw [skeletonMembers]
  | (k, d) :: ms => by
    rw [skeletonMembers, repeatsMembers, repeatsMembers, repeats_skeleton d, repeatsMembers_skeleton (k :: seen) ms]

end

/-- **The scanner finds a repeated key exactly where some object has one**, and nothing but keys counts. -/
theorem duplicate_scan_exact :
    (∀ (d : Doc) (text : List UInt16), Element d text →
      ∃ found, jsonHasDuplicateKey text = some found ∧ (found = true ↔ d.Repeats)) ∧
    ∀ (d d' : Doc) (text text' : List UInt16), Element d text → Element d' text' → skeleton d = skeleton d' →
      jsonHasDuplicateKey text = jsonHasDuplicateKey text' := by
  constructor
  · intro d text h
    exact ⟨d.repeats, jsonHasDuplicateKey_eq h, Doc.repeats_iff d⟩
  · intro d d' text text' h h' hskeleton
    rw [jsonHasDuplicateKey_eq h, jsonHasDuplicateKey_eq h', ← repeats_skeleton d, hskeleton, repeats_skeleton d']

/-- A key written in two ways. -/
def sampleText : List UInt16 := JsonGrammar.ascii "\x7b\"a\":null, \"\\u0061\":\"\x7d\"\x7d"

theorem element_sample : Element (.obj [(JsonGrammar.ascii "a", .null),
    (JsonGrammar.ascii "a", .str (JsonGrammar.ascii "\x7d"))]) sampleText := by
  have hblank : Blanks [] := forall_mem_nil _
  have hspace : Blanks (JsonGrammar.ascii " ") := fun u hu => by
    obtain rfl := mem_singleton.mp hu
    rfl
  have hplain : Chars (JsonGrammar.ascii "a") (JsonGrammar.ascii "a") := .plain (by decide) (by decide) (by decide) .nil
  have hescaped : Chars (JsonGrammar.ascii "\\u0061") (JsonGrammar.ascii "a") := .hex rfl .nil
  have hbrace : Chars (JsonGrammar.ascii "\x7d") (JsonGrammar.ascii "\x7d") :=
    .plain (by decide) (by decide) (by decide) .nil
  exact .mk hblank (.obj (.cons (.mk hblank hplain hblank (.mk hblank .null hblank))
    (.one (.mk hspace hescaped hblank (.mk hblank (.str hbrace) hblank))))) hblank

theorem duplicate_scan_sample : ∃ found, jsonHasDuplicateKey sampleText = some found ∧ (found = true ↔
    Doc.Repeats (.obj [(JsonGrammar.ascii "a", .null), (JsonGrammar.ascii "a", .str (JsonGrammar.ascii "\x7d"))])) :=
  duplicate_scan_exact.1 _ _ element_sample

/-! ## Tokens -/

/-- **No token with a repeated key is accepted**, be it in the header or in the payload, at any depth, and however the
key is written. -/
theorem repeated_key_refused {x : TypeScript} (hx : ReadsKeys x.jsonParseString) {token h p s : String}
    (htoken : jwsSegments token = some (h, p, s)) {segment : String} (hsegment : segment ∈ [h, p]) {d : Doc}
    (htext : Element d (Utf16.encode (x.bufferToString (x.bufferFrom segment)).toList)) (hrepeats : d.Repeats)
    (aid : String) (c : SdkCommitment) (now : Option Rat) : verifyTct x aid token c now = false := by
  have hfound : TypeScript.jsonHasDuplicateKey x (x.bufferToString (x.bufferFrom segment)) = some true := by
    rw [TypeScript.jsonHasDuplicateKey, scan_text hx htext, (Doc.repeats_iff d).mpr hrepeats]
  have hparse : parseJsonNoDuplicates x (x.bufferToString (x.bufferFrom segment)) = none := by
    simp [parseJsonNoDuplicates, hfound]
  have hread : readToken x aid token = none := by
    rcases mem_pair.mp hsegment with rfl | rfl <;> simp [readToken, htoken, hparse]
  rw [verifyTct, hread, accepts]

/-- Every segment is `sampleText`. -/
def repeating : TypeScript :=
  { Issued.typescript ⟨.null, .null, [], []⟩ with
    bufferToString := fun _ => "\x7b\"a\":null, \"\\u0061\":\"\x7d\"\x7d"
    jsonParseString := jsonParseString }

theorem repeated_key_refused_sample : jwsSegments "h.p.s" = some ("h", "p", "s") ∧
    verifyTct repeating "" "h.p.s" ⟨"", "", "", none, "", "", "", none, none⟩ none = false := by
  have htoken : jwsSegments "h.p.s" = some ("h", "p", "s") := by decide
  exact ⟨htoken, repeated_key_refused readsKeys_jsonParseString htoken mem_cons_self element_sample
    (by rw [← Doc.repeats_iff]; decide) _ _ _⟩

end TypeScript.Units

end SeamSdk
