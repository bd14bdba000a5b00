import SeamSdk.Lib.Checked
import SeamSdk.Lib.Pattern
import SeamSdk.Lib.Utf16
import Mathlib.Algebra.GroupWithZero.Nat
import Mathlib.Data.List.TakeWhile

/-!
# Session and decision ids

A decision id is `dec:{tenant}:{session}`. The functions that check, build and parse ids are the same in Python and
TypeScript, up to what a text is (`Script`): Python has code points, TypeScript has UTF-16 units. Each language finds the
first colon in its own way, and the length of a text in UTF-8.

- `Script.parseDecisionId_iff`: an id is parsed to a pair exactly when it is built from that pair;
- `Script.parsesUniquely`: what follows for ids, with what a session in the shape of a UUID must be;
- `decision_ids_alike`: the two languages give one answer on one string.
-/

namespace SeamSdk

open Checked Pattern Utf16 CodePoint
open List hiding range

/-! ## Patterns -/

def decisionIdPrefix : String := "dec:"

def sessionIdMaxBytes : Nat := 128

def sessionIdTokenMinLen : Nat := 22

def tokenChar : CharClass := oneOf [range 'A' 'Z', range 'a' 'z', range '0' '9', char '_', char '-']

def hexChar : CharClass := oneOf [range '0' '9', range 'A' 'F', range 'a' 'f']

def lowerHexChar : CharClass := oneOf [range '0' '9', range 'a' 'f']

def versionChar : CharClass := oneOf [char '4', char '7']

def token : List Nat → Bool := repeated tokenChar 1 none

def tenantPattern : List Nat → Bool := repeated tokenChar 1 (some 128)

/-- Groups of 8, 4, 4, 4 and 12 characters, the third of which has its own first character. -/
def uuidClasses (digit version : CharClass) : List CharClass :=
  List.replicate 8 digit ++ [char '-'] ++ List.replicate 4 digit ++ [char '-'] ++ version :: List.replicate 3 digit ++
    [char '-'] ++ List.replicate 4 digit ++ [char '-'] ++ List.replicate 12 digit

def uuidShape : List Nat → Bool := sequenceOf (uuidClasses hexChar hexChar)

def canonicalUuidV4V7 : List Nat → Bool := sequenceOf (uuidClasses lowerHexChar versionChar)

/-! ## Functions -/

/-- What a function is given: a string, or a value of another type. -/
inductive Given (α : Type)
  | str (s : List α)
  | other (typeName : String)

/-- The string, where there is one. -/
def Given.text {α : Type} : Given α → List α
  | .str s => s
  | .other _ => []

inductive IdError
  | session (reason : String)
  | decision (reason : String)
  deriving DecidableEq, Repr

def IdError.message : IdError → String
  | .session reason => s!"invalid session id: {reason}"
  | .decision reason => s!"invalid decision id: {reason}"

structure DecisionId (α : Type) where
  tenant : List α
  sessionId : List α
  deriving DecidableEq

/-- The rule for session ids, on the length of a text in UTF-8, the patterns it matches, and its length. -/
def ruleRefusal (bytes : Option Nat) (uuid canonical isToken : Bool) (length : Nat) : Option String :=
  match bytes with
  | none => some "is not valid UTF-8"
  | some n =>
    if sessionIdMaxBytes < n then some s!"is over the {sessionIdMaxBytes}-byte cap"
    else if uuid then
      if canonical then none else some "a UUID-form id must be a canonical lowercase UUID of version 4 or 7"
    else if !isToken then some "uses characters outside [A-Za-z0-9_-]"
    else if length < sessionIdTokenMinLen then
      some s!"a token id must be at least {sessionIdTokenMinLen} characters"
    else none

/-- What a language makes of text. -/
structure Script (α : Type) [DecidableEq α] where
  /-- The number of a character in a pattern. -/
  code : α → Nat
  ofChar : Char → α
  /-- How a value that is no string is refused. -/
  notString : String → String
  /-- The length in UTF-8, if the text has one. -/
  utf8Length : List α → Option Nat
  /-- What is before the first colon and what is after it. -/
  splitColon : List α → Option (List α × List α)
  code_colon : code (ofChar ':') = ':'.toNat
  splitColon_eq_some : ∀ {s t u}, splitColon s = some (t, u) ↔ s = t ++ ofChar ':' :: u ∧ ofChar ':' ∉ t

namespace Script

variable {α : Type} [DecidableEq α] (S : Script α)

/-- A text in the source. -/
def lit (s : String) : List α := s.toList.map S.ofChar

/-- Why a session id is refused, if it is. -/
def sessionRefusal : Given α → Option String
  | .other typeName => some (S.notString typeName)
  | .str s =>
    ruleRefusal (S.utf8Length s) (uuidShape (s.map S.code)) (canonicalUuidV4V7 (s.map S.code)) (token (s.map S.code))
      s.length

def validateSessionId (sessionId : Given α) : Except IdError (Given α) := do
  refuseSome (S.sessionRefusal sessionId) IdError.session
  return sessionId

def isValidSessionId (sessionId : Given α) : Bool := (S.sessionRefusal sessionId).isNone

def checkTenant : Given α → Except IdError (List α)
  | .str t =>
    if tenantPattern (t.map S.code) then .ok t
    else .error (.decision "tenant must match ^[A-Za-z0-9_-]\x7b1,128\x7d$")
  | .other _ => .error (.decision "tenant must match ^[A-Za-z0-9_-]\x7b1,128\x7d$")

/-- The refusal of a session that is half of a decision id. -/
def checkSessionHalf (sessionId : Given α) : Except IdError Unit :=
  refuseSome (S.sessionRefusal sessionId) fun reason => .decision s!"session half: {reason}"

def decisionIdForSession (tenant sessionId : Given α) : Except IdError (List α) := do
  let t ← S.checkTenant tenant
  S.checkSessionHalf sessionId
  return S.lit decisionIdPrefix ++ t ++ S.ofChar ':' :: sessionId.text

def parseDecisionId : Given α → Except IdError (DecisionId α)
  | .other _ => .error (.decision "must start with 'dec:'")
  | .str id => do
    refuse (¬S.lit decisionIdPrefix <+: id) (.decision "must start with 'dec:'")
    let (tenant, sessionId) ← demand (S.splitColon (id.drop (S.lit decisionIdPrefix).length))
      (.decision "must be dec:\x7btenant\x7d:\x7bsession\x7d")
    let _ ← S.checkTenant (.str tenant)
    S.checkSessionHalf (.str sessionId)
    return ⟨tenant, sessionId⟩

end Script

namespace Python

/-- `str.partition`. -/
def partitionPoints (sep : CodePoint) (s : List CodePoint) : List CodePoint × List CodePoint × List CodePoint :=
  match s.dropWhile (· ≠ sep) with
  | [] => (s, [], [])
  | c :: rest => (s.takeWhile (· ≠ sep), [c], rest)

/-- A surrogate cannot be encoded. -/
def encodedSize (p : CodePoint) : Option Nat :=
  if p.isSurrogate then none else some (Char.ofNat p.val).utf8Size

/-- `len(s.encode("utf-8"))`. -/
def utf8Length (s : List CodePoint) : Option Nat := (s.mapM encodedSize).map List.sum

def splitColon (s : List CodePoint) : Option (List CodePoint × List CodePoint) :=
  match partitionPoints (.ofChar ':') s with
  | (tenant, sep, sessionId) => if sep = [] then none else some (tenant, sessionId)

end Python

namespace TypeScript

/-- `Buffer.byteLength`, where no surrogate stands alone. -/
def utf8Length (s : List UInt16) : Option Nat :=
  if hasLone s then none else some ((decodeLossy s).map Char.utf8Size).sum

/-- `indexOf`, then a `slice` on each side. -/
def splitColon (s : List UInt16) : Option (List UInt16 × List UInt16) :=
  (s.findIdx? (· == UInt16.ofNat ':'.toNat)).map fun sep => (s.take sep, s.drop (sep + 1))

end TypeScript

/-! ## The first colon -/

section Colon

variable {α : Type} [DecidableEq α] {c : α}

theorem eq_some_iff_first {f : List α → Option (List α × List α)}
    (hfirst : ∀ t u, c ∉ t → f (t ++ c :: u) = some (t, u)) (hnone : ∀ s, c ∉ s → f s = none) {s t u : List α} :
    f s = some (t, u) ↔ s = t ++ c :: u ∧ c ∉ t := by
  constructor
  · intro h
    by_cases hc : c ∈ s
    · obtain ⟨t', u', rfl, ht'⟩ := eq_append_cons_of_mem hc
      rw [hfirst t' u' ht', Option.some.injEq, Prod.mk.injEq] at h
      obtain ⟨rfl, rfl⟩ := h
      exact ⟨rfl, ht'⟩
    · rw [hnone s hc] at h
      cases h
  · rintro ⟨rfl, ht⟩
    exact hfirst t u ht

theorem Python.splitColon_eq_some {s t u : List CodePoint} :
    splitColon s = some (t, u) ↔ s = t ++ ofChar ':' :: u ∧ ofChar ':' ∉ t := by
  apply eq_some_iff_first
  · intro t u ht
    have hpos : ∀ d ∈ t, decide (d ≠ ofChar ':') = true := fun d hd => decide_eq_true fun h => ht (h ▸ hd)
    rw [splitColon, partitionPoints, takeWhile_append_of_pos hpos, dropWhile_append_of_pos hpos]
    simp
  · intro s hs
    have hnil : s.dropWhile (· ≠ ofChar ':') = [] := by
      rw [dropWhile_eq_nil_iff]
      exact fun d hd => decide_eq_true fun h => hs (h ▸ hd)
    rw [splitColon, partitionPoints, hnil]
    rfl

theorem TypeScript.splitColon_eq_some {s t u : List UInt16} :
    splitColon s = some (t, u) ↔ s = t ++ UInt16.ofNat ':'.toNat :: u ∧ UInt16.ofNat ':'.toNat ∉ t := by
  have hnone {s : List UInt16} (hs : UInt16.ofNat ':'.toNat ∉ s) :
      s.findIdx? (· == UInt16.ofNat ':'.toNat) = none := by
    rw [List.findIdx?_eq_none_iff]
    exact fun d hd => beq_eq_false_iff_ne.mpr fun h => hs (h ▸ hd)
  apply eq_some_iff_first
  · intro t u ht
    rw [splitColon, List.findIdx?_append, hnone ht, List.findIdx?_cons, if_pos (beq_self_eq_true _)]
    simp
  · intro s hs
    rw [splitColon, hnone hs]
    rfl

end Colon

/-! ## The two languages -/

namespace Python

def script : Script CodePoint where
  code := Fin.val
  ofChar := .ofChar
  notString typeName := s!"must be a str, not {typeName}"
  utf8Length := utf8Length
  splitColon := splitColon
  code_colon := rfl
  splitColon_eq_some := splitColon_eq_some

def sessionRefusal (sessionId : Given CodePoint) : Option String := script.sessionRefusal sessionId

def decisionIdForSession (tenant sessionId : Given CodePoint) : Except IdError (List CodePoint) :=
  script.decisionIdForSession tenant sessionId

def parseDecisionId (decisionId : Given CodePoint) : Except IdError (DecisionId CodePoint) :=
  script.parseDecisionId decisionId

end Python

namespace TypeScript

def script : Script UInt16 where
  code := UInt16.toNat
  ofChar c := UInt16.ofNat c.toNat
  notString typeName := s!"must be a string, not {typeName}"
  utf8Length := utf8Length
  splitColon := splitColon
  code_colon := rfl
  splitColon_eq_some := splitColon_eq_some

def sessionRefusal (sessionId : Given UInt16) : Option String := script.sessionRefusal sessionId

def decisionIdForSession (tenant sessionId : Given UInt16) : Except IdError (List UInt16) :=
  script.decisionIdForSession tenant sessionId

def parseDecisionId (decisionId : Given UInt16) : Except IdError (DecisionId UInt16) :=
  script.parseDecisionId decisionId

end TypeScript

/-! ## One reading -/

namespace Script

variable {α : Type} [DecidableEq α] {S : Script α}

/-- Both halves are in order. -/
def Halves (S : Script α) (d : DecisionId α) : Prop :=
  tenantPattern (d.tenant.map S.code) = true ∧ S.sessionRefusal (.str d.sessionId) = none

/-- The id of two halves. -/
def idOf (S : Script α) (d : DecisionId α) : List α :=
  S.lit decisionIdPrefix ++ d.tenant ++ S.ofChar ':' :: d.sessionId

theorem checkTenant_ok {g : Given α} {t : List α} :
    S.checkTenant g = .ok t ↔ g = .str t ∧ tenantPattern (t.map S.code) = true := by
  cases g with
  | other typeName => simp [checkTenant]
  | str s =>
    rw [checkTenant]
    split
    · rename_i h
      constructor
      · intro hs
        cases hs
        exact ⟨rfl, h⟩
      · rintro ⟨hs, -⟩
        cases hs
        rfl
    · rename_i h
      constructor
      · intro hs
        cases hs
      · rintro ⟨hs, ht⟩
        cases hs
        exact absurd ht h

/-- A tenant has no colon. -/
theorem colon_not_mem {t : List α} (h : tenantPattern (t.map S.code) = true) : S.ofChar ':' ∉ t := by
  intro hmem
  simp only [tenantPattern, repeated, Bool.and_eq_true, all_eq_true] at h
  have hcolon := h.2 _ (mem_map_of_mem hmem)
  rw [S.code_colon] at hcolon
  revert hcolon
  decide

theorem decisionIdForSession_ok {tenant sessionId : Given α} {id : List α} :
    S.decisionIdForSession tenant sessionId = .ok id ↔
      ∃ d, tenant = .str d.tenant ∧ sessionId = .str d.sessionId ∧ S.Halves d ∧ id = S.idOf d := by
  simp only [decisionIdForSession, checkSessionHalf, bind_ok, checkTenant_ok, refuseSome_ok, exists_const, pure_ok]
  constructor
  · rintro ⟨t, ⟨rfl, ht⟩, hs, rfl⟩
    cases sessionId with
    | other typeName => cases hs
    | str s => exact ⟨⟨t, s⟩, rfl, rfl, ⟨ht, hs⟩, rfl⟩
  · rintro ⟨d, rfl, rfl, hd, rfl⟩
    exact ⟨d.tenant, ⟨rfl, hd.1⟩, hd.2, rfl⟩

theorem parseDecisionId_ok {id : List α} {d : DecisionId α} :
    S.parseDecisionId (.str id) = .ok d ↔ S.Halves d ∧ id = S.idOf d := by
  simp only [parseDecisionId, checkSessionHalf, bind_ok, checkTenant_ok, refuse_ok, not_not, demand_ok, refuseSome_ok,
    exists_const, pure_ok, Prod.exists, S.splitColon_eq_some]
  constructor
  · rintro ⟨⟨rest, rfl⟩, t, s, ⟨hrest, -⟩, _, ⟨hstr, ht⟩, hs, rfl⟩
    cases hstr
    rw [drop_left] at hrest
    exact ⟨⟨ht, hs⟩, by rw [hrest, idOf, append_assoc]⟩
  · rintro ⟨hd, rfl⟩
    have hid : S.idOf d = S.lit decisionIdPrefix ++ (d.tenant ++ S.ofChar ':' :: d.sessionId) := append_assoc _ _ _
    refine ⟨⟨_, hid.symm⟩, d.tenant, d.sessionId, ⟨?_, colon_not_mem hd.1⟩, d.tenant, ⟨rfl, hd.1⟩, hd.2, rfl⟩
    rw [hid, drop_left]

/-- **An id is parsed to a pair exactly when it is built from that pair.** -/
theorem parseDecisionId_iff {id : List α} {d : DecisionId α} : S.parseDecisionId (.str id) = .ok d ↔
      S.decisionIdForSession (.str d.tenant) (.str d.sessionId) = .ok id := by
  rw [parseDecisionId_ok, decisionIdForSession_ok]
  constructor
  · intro h
    exact ⟨d, rfl, rfl, h⟩
  · rintro ⟨⟨t, s⟩, ht, hs, hd⟩
    obtain rfl : d = ⟨t, s⟩ := by
      cases d
      cases ht
      cases hs
      rfl
    exact hd

/-! ## Sessions in the shape of a UUID -/

/-- Lowercase, with the version digit 4 or 7. -/
def LowercaseV4V7 (codes : List Nat) : Prop :=
  (∀ n ∈ codes, ¬('A'.toNat ≤ n ∧ n ≤ 'Z'.toNat)) ∧ (codes[14]? = some '4'.toNat ∨ codes[14]? = some '7'.toNat)

theorem lowercaseV4V7_of_canonical {codes : List Nat} (h : canonicalUuidV4V7 codes = true) : LowercaseV4V7 codes := by
  have hlower : ∀ p ∈ uuidClasses lowerHexChar versionChar, ∀ n, p n = true → ¬('A'.toNat ≤ n ∧ n ≤ 'Z'.toNat) := by
    intro p hp n hn hupper
    have hclass : p = lowerHexChar ∨ p = versionChar ∨ p = char '-' := by
      simp only [uuidClasses, mem_append, mem_cons, mem_replicate, not_mem_nil] at hp
      tauto
    simp only [show 'A'.toNat = 65 from rfl, show 'Z'.toNat = 90 from rfl] at hupper
    rcases hclass with rfl | rfl | rfl
    · simp [lowerHexChar, oneOf, range] at hn
      omega
    · simp [versionChar, oneOf, char] at hn
      omega
    · simp [char] at hn
      omega
  refine ⟨forall_of_sequenceOf hlower h, ?_⟩
  obtain ⟨n, hn, hversion⟩ := class_of_sequenceOf h (show (uuidClasses lowerHexChar versionChar)[14]? = some _ from rfl)
  rw [hn]
  simpa [versionChar, oneOf, char] using hversion

theorem lowercaseV4V7_of_uuidShape {s : List α} (hshape : uuidShape (s.map S.code) = true)
    (h : S.sessionRefusal (.str s) = none) : LowercaseV4V7 (s.map S.code) := by
  apply lowercaseV4V7_of_canonical
  rw [sessionRefusal, hshape] at h
  unfold ruleRefusal at h
  split at h
  · cases h
  · split at h
    · cases h
    · rw [if_pos rfl] at h
      split at h
      · assumption
      · cases h

/-- Ids have one reading: what is built is parsed to the same pair, what is parsed was built, and a session in the shape
of a UUID is a canonical one. -/
structure ParsesUniquely (build : Given α → Given α → Except IdError (List α))
    (parse : Given α → Except IdError (DecisionId α)) (refusal : Given α → Option String) (code : α → Nat) : Prop where
  built : ∀ {tenant sessionId : List α} {id}, build (.str tenant) (.str sessionId) = .ok id →
    parse (.str id) = .ok ⟨tenant, sessionId⟩
  parsed : ∀ {id d}, parse (.str id) = .ok d → build (.str d.tenant) (.str d.sessionId) = .ok id
  onePair : ∀ {tenant sessionId tenant' sessionId' : List α} {id}, build (.str tenant) (.str sessionId) = .ok id →
    build (.str tenant') (.str sessionId') = .ok id → tenant = tenant' ∧ sessionId = sessionId'
  uuid : ∀ {s : List α}, uuidShape (s.map code) = true → refusal (.str s) = none → LowercaseV4V7 (s.map code)

theorem parsesUniquely (S : Script α) :
    ParsesUniquely S.decisionIdForSession S.parseDecisionId S.sessionRefusal S.code where
  built h := parseDecisionId_iff.mpr h
  parsed h := parseDecisionId_iff.mp h
  onePair {tenant sessionId tenant' sessionId' id} h h' := by
    have hparse : S.parseDecisionId (.str id) = .ok ⟨tenant, sessionId⟩ := parseDecisionId_iff.mpr h
    have hparse' : S.parseDecisionId (.str id) = .ok ⟨tenant', sessionId'⟩ := parseDecisionId_iff.mpr h'
    rw [hparse, Except.ok.injEq, DecisionId.mk.injEq] at hparse'
    exact hparse'
  uuid := lowercaseV4V7_of_uuidShape

end Script

/-! ## One answer -/

def DecisionId.map {α β : Type} (f : List α → List β) (d : DecisionId α) : DecisionId β := ⟨f d.tenant, f d.sessionId⟩

theorem ascii_tokenChar : Ascii tokenChar := ascii_oneOf (by simp (disch := decide) [ascii_range, ascii_char])

theorem ascii_hexChar : Ascii hexChar := ascii_oneOf (by simp (disch := decide) [ascii_range])

theorem ascii_lowerHexChar : Ascii lowerHexChar := ascii_oneOf (by simp (disch := decide) [ascii_range])

theorem ascii_versionChar : Ascii versionChar := ascii_oneOf (by simp (disch := decide) [ascii_char])

theorem ascii_uuidClasses {digit version : CharClass} (hdigit : Ascii digit) (hversion : Ascii version) :
    ∀ p ∈ uuidClasses digit version, Ascii p := by
  intro p hp
  have hclass : p = digit ∨ p = version ∨ p = char '-' := by
    simp only [uuidClasses, mem_append, mem_cons, mem_replicate, not_mem_nil] at hp
    tauto
  rcases hclass with rfl | rfl | rfl
  · exact hdigit
  · exact hversion
  · exact ascii_char (by decide)

/-- A text with a surrogate has no length in UTF-8, and any other has that of its characters. -/
theorem Python.utf8Length_eq (s : List CodePoint) : utf8Length s =
    if s.any isSurrogate then none else some (s.map fun p => (Char.ofNat p.val).utf8Size).sum := by
  induction s with
  | nil => rfl
  | cons p s ih =>
    have hcons : utf8Length (p :: s) = (encodedSize p).bind fun n => (utf8Length s).map (n + ·) := by
      rw [utf8Length, utf8Length, mapM_cons]
      cases encodedSize p with
      | none => rfl
      | some n => cases s.mapM encodedSize <;> rfl
    rw [hcons, ih, encodedSize, any_cons]
    cases p.isSurrogate with
    | true => rfl
    | false =>
      rw [Bool.false_or, if_neg Bool.false_ne_true, Option.bind_some]
      split
      · rfl
      · simp

theorem utf8Length_codePoints (us : List UInt16) : Python.utf8Length (codePoints us) = TypeScript.utf8Length us := by
  rw [TypeScript.utf8Length, Python.utf8Length_eq, any_isSurrogate_codePoints]
  split
  · rfl
  · rename_i hlone
    obtain ⟨s, rfl⟩ := exists_encode (Bool.not_eq_true _ ▸ hlone)
    simp [codePoints_encode, decodeLossy_encode, Function.comp_def, ofChar]

/-- **Sessions are refused alike.** -/
theorem sessionRefusal_codePoints (us : List UInt16) :
    Python.sessionRefusal (.str (codePoints us)) = TypeScript.sessionRefusal (.str us) := by
  have huuid : uuidShape ((codePoints us).map Fin.val) = uuidShape (us.map UInt16.toNat) :=
    test_codePoints (fun l => ascii_of_sequenceOf (ascii_uuidClasses ascii_hexChar ascii_hexChar)) us
  have hcanonical : canonicalUuidV4V7 ((codePoints us).map Fin.val) = canonicalUuidV4V7 (us.map UInt16.toNat) :=
    test_codePoints (fun l => ascii_of_sequenceOf (ascii_uuidClasses ascii_lowerHexChar ascii_versionChar)) us
  have htoken : token ((codePoints us).map Fin.val) = token (us.map UInt16.toNat) :=
    test_codePoints (fun l => ascii_of_repeated ascii_tokenChar) us
  have hlength : token (us.map UInt16.toNat) = true → (codePoints us).length = us.length := by
    intro h
    have hascii : ∀ u ∈ us, u.toNat < 128 :=
      fun u hu => ascii_of_repeated ascii_tokenChar h _ (mem_map_of_mem hu)
    simpa using congrArg List.length (map_val_codePoints_of_ascii hascii)
  have hparts : Python.sessionRefusal (.str (codePoints us)) =
      ruleRefusal (Python.utf8Length (codePoints us)) (uuidShape ((codePoints us).map Fin.val))
        (canonicalUuidV4V7 ((codePoints us).map Fin.val)) (token ((codePoints us).map Fin.val))
        (codePoints us).length := rfl
  rw [hparts, utf8Length_codePoints, huuid, hcanonical, htoken]
  change _ = ruleRefusal (TypeScript.utf8Length us) (uuidShape (us.map UInt16.toNat))
    (canonicalUuidV4V7 (us.map UInt16.toNat)) (token (us.map UInt16.toNat)) us.length
  -- the length is looked at only for tokens
  cases htest : token (us.map UInt16.toNat) with
  | true => rw [hlength htest]
  | false => rfl

/-- An ASCII text of the source at the front. -/
theorem codePoints_lit {s : List Char} (hs : ∀ c ∈ s, c.toNat < 128) (us : List UInt16) :
    codePoints (s.map (fun c => UInt16.ofNat c.toNat) ++ us) = s.map ofChar ++ codePoints us := by
  induction s with
  | nil => rfl
  | cons c s ih =>
    rw [forall_mem_cons] at hs
    have hunit : (UInt16.ofNat c.toNat).toNat = c.toNat := toNat_unit (by omega)
    rw [map_cons, cons_append, codePoints_cons (by omega), ih hs.2]
    exact congrArg (· :: _) (Fin.ext hunit)

theorem codePoints_colon {t s : List UInt16} :
    codePoints (t ++ UInt16.ofNat ':'.toNat :: s) = codePoints t ++ ofChar ':' :: codePoints s := by
  have hcolon : (UInt16.ofNat ':'.toNat :: s).head?.any Utf16.isTrail = false := rfl
  rw [codePoints_append hcolon]
  exact congrArg (codePoints t ++ ·) (codePoints_lit (s := [':']) (by simp) s)

theorem colon_mem_codePoints {us : List UInt16} : ofChar ':' ∈ codePoints us ↔ UInt16.ofNat ':'.toNat ∈ us := by
  constructor
  · intro h
    obtain ⟨p, hp, hcode⟩ := mem_map.mp h
    have hcolon : p.code = ':'.toNat := congrArg Fin.val hcode
    have hunits := units_of_code_lt (p := p) (by rw [hcolon]; decide)
    rw [← flatMap_points us, mem_flatMap]
    exact ⟨p, hp, by rw [hunits, hcolon]; exact mem_singleton_self _⟩
  · intro h
    obtain ⟨t, s, rfl⟩ := append_of_mem h
    rw [codePoints_colon]
    simp

theorem splitColon_codePoints (us : List UInt16) :
    Python.splitColon (codePoints us) = (TypeScript.splitColon us).map (Prod.map codePoints codePoints) := by
  cases hsplit : TypeScript.splitColon us with
  | some r =>
    obtain ⟨rfl, ht⟩ := TypeScript.splitColon_eq_some.mp hsplit
    rw [Option.map_some, Prod.map, Python.splitColon_eq_some, colon_mem_codePoints]
    exact ⟨codePoints_colon, ht⟩
  | none =>
    cases hpython : Python.splitColon (codePoints us) with
    | none => rfl
    | some r =>
      have hmem : ofChar ':' ∈ codePoints us := by
        rw [(Python.splitColon_eq_some.mp hpython).1]
        simp
      obtain ⟨t, s, rfl, ht⟩ := eq_append_cons_of_mem (colon_mem_codePoints.mp hmem)
      rw [TypeScript.splitColon_eq_some.mpr ⟨rfl, ht⟩] at hsplit
      cases hsplit

theorem checkTenant_codePoints (us : List UInt16) : Python.script.checkTenant (.str (codePoints us)) =
    (TypeScript.script.checkTenant (.str us)).map codePoints := by
  have htenant : tenantPattern ((codePoints us).map Python.script.code) =
      tenantPattern (us.map TypeScript.script.code) :=
    test_codePoints (fun l => ascii_of_repeated ascii_tokenChar) us
  rw [Script.checkTenant, Script.checkTenant, htenant]
  by_cases hmatch : tenantPattern (us.map TypeScript.script.code) = true
  · rw [if_pos hmatch, if_pos hmatch]
    rfl
  · rw [if_neg hmatch, if_neg hmatch]
    rfl

theorem checkSessionHalf_codePoints (us : List UInt16) : Python.script.checkSessionHalf (.str (codePoints us)) =
    TypeScript.script.checkSessionHalf (.str us) := by
  have hrefusal := sessionRefusal_codePoints us
  rw [Python.sessionRefusal, TypeScript.sessionRefusal] at hrefusal
  rw [Script.checkSessionHalf, Script.checkSessionHalf, hrefusal]

theorem ascii_decisionIdPrefix : ∀ c ∈ decisionIdPrefix.toList, c.toNat < 128 := by
  have hall : (decisionIdPrefix.toList.all fun c => c.toNat < 128) = true := by decide
  simpa only [all_eq_true, decide_eq_true_eq] using hall

/-- The front of an id is the same text in both languages. -/
theorem lit_isPrefix_codePoints {us : List UInt16} :
    Python.script.lit decisionIdPrefix <+: codePoints us ↔ TypeScript.script.lit decisionIdPrefix <+: us := by
  constructor
  · rintro ⟨ps, hps⟩
    obtain ⟨vs, rfl⟩ := exists_of_codePoints_eq_append hps.symm fun p hp => by
      obtain ⟨c, hc, rfl⟩ := mem_map.mp hp
      exact ascii_decisionIdPrefix c hc
    refine ⟨vs, ?_⟩
    rw [Script.lit, Script.lit, map_map]
    rfl
  · rintro ⟨rest, rfl⟩
    exact ⟨codePoints rest, (codePoints_lit ascii_decisionIdPrefix rest).symm⟩

/-- **Ids are parsed alike**, and refused with the same words. -/
theorem parseDecisionId_codePoints (us : List UInt16) : Python.parseDecisionId (.str (codePoints us)) =
    (TypeScript.parseDecisionId (.str us)).map (DecisionId.map codePoints) := by
  rw [Python.parseDecisionId, TypeScript.parseDecisionId, Script.parseDecisionId, Script.parseDecisionId]
  by_cases hfront : TypeScript.script.lit decisionIdPrefix <+: us
  · rw [refuse_of_not (not_not.mpr hfront), refuse_of_not (not_not.mpr (lit_isPrefix_codePoints.mpr hfront))]
    obtain ⟨rest, rfl⟩ := hfront
    have hfront : codePoints (TypeScript.script.lit decisionIdPrefix ++ rest) =
        Python.script.lit decisionIdPrefix ++ codePoints rest :=
      codePoints_lit ascii_decisionIdPrefix rest
    have hsplit : Python.script.splitColon (codePoints rest) =
        (TypeScript.script.splitColon rest).map (Prod.map codePoints codePoints) := splitColon_codePoints rest
    rw [hfront, drop_left, drop_left, hsplit]
    cases TypeScript.script.splitColon rest with
    | none => rfl
    | some r =>
      simp only [demand, Option.map_some, Prod.map, bind, Except.bind, checkTenant_codePoints,
        checkSessionHalf_codePoints]
      cases TypeScript.script.checkTenant (.str r.1) with
      | error e => rfl
      | ok t => cases TypeScript.script.checkSessionHalf (.str r.2) <;> rfl
  · rw [refuse_of hfront, refuse_of (mt lit_isPrefix_codePoints.mp hfront)]
    rfl

/-- **Ids are built alike.** -/
theorem decisionIdForSession_codePoints (tenant sessionId : List UInt16) :
    Python.decisionIdForSession (.str (codePoints tenant)) (.str (codePoints sessionId)) =
      (TypeScript.decisionIdForSession (.str tenant) (.str sessionId)).map codePoints := by
  rw [Python.decisionIdForSession, TypeScript.decisionIdForSession, Script.decisionIdForSession,
    Script.decisionIdForSession, checkTenant_codePoints, checkSessionHalf_codePoints]
  cases htenant : TypeScript.script.checkTenant (.str tenant) with
  | error e => rfl
  | ok t =>
    cases TypeScript.script.checkSessionHalf (.str sessionId) with
    | error e => rfl
    | ok u =>
      have hid : codePoints (TypeScript.script.lit decisionIdPrefix ++ t ++ UInt16.ofNat ':'.toNat :: sessionId) =
          Python.script.lit decisionIdPrefix ++ codePoints t ++ ofChar ':' :: codePoints sessionId := by
        rw [codePoints_colon]
        exact congrArg (· ++ _) (codePoints_lit ascii_decisionIdPrefix t)
      exact congrArg Except.ok hid.symm

/-- A session that is accepted has a length in UTF-8. -/
theorem Python.not_surrogate_of_sessionRefusal {s : List CodePoint} (h : script.sessionRefusal (.str s) = none) :
    s.any isSurrogate = false := by
  have hlength : script.utf8Length s ≠ none := by
    intro hnone
    rw [Script.sessionRefusal, hnone] at h
    cases h
  rw [show script.utf8Length s = _ from utf8Length_eq s] at hlength
  cases hany : s.any isSurrogate with
  | false => rfl
  | true =>
    rw [hany] at hlength
    exact absurd rfl hlength

/-- **What Python accepts is a text of TypeScript.** -/
theorem exists_codePoints_of_parseDecisionId {ps : List CodePoint} {d : DecisionId CodePoint}
    (h : Python.parseDecisionId (.str ps) = .ok d) : ∃ us, codePoints us = ps := by
  obtain ⟨⟨htenant, hsession⟩, rfl⟩ := Script.parseDecisionId_ok.mp h
  have hnone : (Python.script.idOf d).any isSurrogate = false := by
    have ht : d.tenant.any isSurrogate = false := by
      rw [any_eq_false]
      intro p hp hsurrogate
      have hlt : p.val < 128 := ascii_of_repeated ascii_tokenChar htenant _ (mem_map_of_mem hp)
      have := isSurrogate_iff.mp hsurrogate
      omega
    rw [Script.idOf, any_append, any_append, any_cons, ht,
      Python.not_surrogate_of_sessionRefusal hsession]
    decide
  obtain ⟨s, hs⟩ := exists_chars hnone
  exact ⟨encode s, (codePoints_encode s).trans hs.symm⟩

/-- **Decision ids parse uniquely, and alike in both languages.** A string of TypeScript is that of its code points in
Python; Python has further strings, and accepts none of them. -/
theorem decision_ids_alike :
    Script.ParsesUniquely Python.decisionIdForSession Python.parseDecisionId Python.sessionRefusal Fin.val ∧
    Script.ParsesUniquely TypeScript.decisionIdForSession TypeScript.parseDecisionId TypeScript.sessionRefusal
      UInt16.toNat ∧
    (∀ us, Python.sessionRefusal (.str (codePoints us)) = TypeScript.sessionRefusal (.str us)) ∧
    (∀ tenant sessionId, Python.decisionIdForSession (.str (codePoints tenant)) (.str (codePoints sessionId)) =
      (TypeScript.decisionIdForSession (.str tenant) (.str sessionId)).map codePoints) ∧
    (∀ us, Python.parseDecisionId (.str (codePoints us)) =
      (TypeScript.parseDecisionId (.str us)).map (DecisionId.map codePoints)) ∧
    ∀ ps d, Python.parseDecisionId (.str ps) = .ok d → ∃ us, codePoints us = ps :=
  ⟨Python.script.parsesUniquely, TypeScript.script.parsesUniquely, sessionRefusal_codePoints,
    decisionIdForSession_codePoints, parseDecisionId_codePoints, fun _ _ => exists_codePoints_of_parseDecisionId⟩

end SeamSdk
