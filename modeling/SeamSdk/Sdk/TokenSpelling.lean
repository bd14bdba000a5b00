import SeamSdk.Sdk.ExpRule
import SeamSdk.Lib.Binascii

/-!
# Spellings of a token

Which strings are accepted for one and the same token. The segments of a token lie between its dots, so a verifier that
asks for three of them asks for two dots (`two_dots_of_accepts`). Java's splitter drops empty pieces at the end, so
dots after a token make no difference there (`Java.verifyTct_append_dots`); Kotlin runs on the same platform with a
splitter that keeps them. Python's decoder skips what is outside its alphabets, so a signature has many spellings
(`Python.verifyTct_respelled`); those that a strict decoder reads are one (`Python.eq_of_strict`).

- `Java.verifyTct_two_dots_iff`: where Java asks for two dots;
- `Python.one_spelling_iff`: where Python has one spelling for a token.
-/

namespace SeamSdk

open ByteCodec Checked RustText List

/-! ## Segments -/

variable {token h p s : String}

theorem jwsSegments_eq_some : jwsSegments token = some (h, p, s) ↔ split '.' token = [h, p, s] := by
  unfold jwsSegments
  split
  · rename_i h' p' s' hl
    rw [hl]
    simp
  · rename_i hl
    constructor
    · intro h
      cases h
    · intro h
      exact absurd h (hl _ _ _)

theorem two_dots_of_jwsSegments {segments : String × String × String} (h : jwsSegments token = some segments) :
    token.toList.count '.' = 2 := by
  have hlength := length_split '.' token
  rw [jwsSegments_eq_some.mp h] at hlength
  exact (Nat.succ_inj.mp hlength).symm

theorem not_mem_of_jwsSegments (hseg : jwsSegments token = some (h, p, s)) :
    '.' ∉ h.toList ∧ '.' ∉ p.toList ∧ '.' ∉ s.toList := by
  have hpiece : ∀ piece ∈ [h, p, s], '.' ∉ piece.toList := by
    rw [← jwsSegments_eq_some.mp hseg]
    exact fun piece => not_mem_of_mem_split
  exact ⟨hpiece h (by simp), hpiece p (by simp), hpiece s (by simp)⟩

/-- Three segments with dots between them. -/
def joinSegments (h p s : String) : String := h ++ "." ++ p ++ ("." ++ s)

theorem jwsSegments_joinSegments (hh : '.' ∉ h.toList) (hp : '.' ∉ p.toList) (hs : '.' ∉ s.toList) :
    jwsSegments (joinSegments h p s) = some (h, p, s) := by
  have htext : (joinSegments h p s).toList = h.toList ++ '.' :: (p.toList ++ '.' :: s.toList) := by
    simp [joinSegments]
  rw [jwsSegments_eq_some, split, htext, splitGo_piece hh, splitGo_piece hp,
    splitGo_last hs]
  simp

/-- **What is read from three segments has two dots.** -/
theorem two_dots_of_accepts {issued : Json → Bool} {expOk : Option Json → Bool} {digest : Except String String}
    {read : String × String × String → Option (Json × Json)}
    (h : accepts issued expOk digest (jwsSegments token >>= read) = true) : token.toList.count '.' = 2 := by
  cases hseg : jwsSegments token with
  | none =>
    rw [hseg] at h
    cases h
  | some segments => exact two_dots_of_jwsSegments hseg

section TwoDots

variable {issuerAid token : String} {c : SdkCommitment}

theorem Python.two_dots {x : Python} {now : Option Int} (h : x.verifyTct issuerAid token c now = true) :
    token.toList.count '.' = 2 :=
  two_dots_of_accepts h

theorem TypeScript.two_dots {x : TypeScript} {now : Option Rat} (h : x.verifyTct issuerAid token c now = true) :
    token.toList.count '.' = 2 :=
  two_dots_of_accepts h

theorem Go.two_dots {x : Go} {now : Int} (h : x.verifyTCT issuerAid token c now = true) :
    token.toList.count '.' = 2 :=
  two_dots_of_accepts h

end TwoDots

/-! ## Kotlin -/

/-- Dots alone. -/
def dots (n : Nat) : String := String.ofList (List.replicate n '.')

/-- A token without the dots at its end. -/
def trimDots (token : String) : String := String.ofList (token.toList.reverse.dropWhile (· == '.')).reverse

namespace Kotlin

variable (x : Java)

def commitmentExplanationDigest (c : SdkCommitment) : Except String Bytes :=
  x.boundExplanation (Java.entryTexts x) c.explanationDigest c.explanation

def seamCommitmentDigest (c : SdkCommitment) : Except String String :=
  x.commitmentHex c (commitmentExplanationDigest x c)

/-- `split(".")` keeps every piece here. -/
def readToken (issuerAid tctJws : String) : Option (Json × Json) :=
  jwsSegments tctJws >>= x.readSegments issuerAid

def verifyTct (issuerAid tctJws : String) (c : SdkCommitment) (nowS : Int) : Bool :=
  accepts (selfIssued issuerAid) (x.expOk nowS) (seamCommitmentDigest x c) (readToken x issuerAid tctJws)

theorem two_dots {x : Java} {issuerAid : String} {c : SdkCommitment} {now : Int}
    (h : verifyTct x issuerAid token c now = true) : token.toList.count '.' = 2 :=
  two_dots_of_accepts h

end Kotlin

/-! ## Java -/

/-- The text is what is left of it, and the dots. -/
theorem exists_trimDots (token : String) : ∃ n, token = trimDots token ++ dots n := by
  have hdots : ∀ c ∈ token.toList.reverse.takeWhile (· == '.'), c = '.' := by
    intro c hc
    exact beq_iff_eq.mp (all_eq_true.mp all_takeWhile c hc)
  have hreverse : token.toList = (token.toList.reverse.dropWhile (· == '.')).reverse ++
      (token.toList.reverse.takeWhile (· == '.')).reverse := by
    rw [← reverse_append, takeWhile_append_dropWhile, reverse_reverse]
  refine ⟨(token.toList.reverse.takeWhile (· == '.')).length, String.toList_inj.mp ?_⟩
  rw [trimDots, dots, String.toList_append, String.toList_ofList, String.toList_ofList, ← reverse_replicate,
    ← eq_replicate_of_mem hdots]
  exact hreverse

theorem getLast_trimDots (token : String) : (trimDots token).toList.getLast? ≠ some '.' := by
  rw [trimDots, String.toList_ofList, List.getLast?_reverse]
  intro h
  have hhead := List.head?_dropWhile_not (· == '.') token.toList.reverse
  rw [h] at hhead
  simp at hhead

theorem trimDots_eq_self (h : token.toList.getLast? ≠ some '.') : trimDots token = token := by
  obtain ⟨n, hn⟩ := exists_trimDots token
  cases n with
  | zero => exact (hn.trans (by simp [dots])).symm
  | succ n =>
    refine absurd ?_ h
    rw [hn]
    simp [dots, replicate_succ', ← append_assoc]

theorem trimDots_append_dots (token : String) (n : Nat) : trimDots (token ++ dots n) = trimDots token := by
  have hdrop : ∀ l : List Char, (List.replicate n '.' ++ l).dropWhile (· == '.') = l.dropWhile (· == '.') := by
    intro l
    rw [dropWhile_append_of_pos]
    intro c hc
    rw [eq_of_mem_replicate hc]
    rfl
  rw [trimDots, trimDots, String.toList_append, dots, String.toList_ofList, reverse_append, reverse_replicate,
    hdrop]

theorem count_append_dots (token : String) (n : Nat) :
    (token ++ dots n).toList.count '.' = token.toList.count '.' + n := by
  simp [dots]

namespace Java

/-- What is left without the empty pieces at the end. -/
def keptPieces (pieces : List String) : List String := (pieces.reverse.dropWhile (· == "")).reverse

/-- Three pieces are found when three are left. -/
theorem splitDots_eq_three : splitDots token = [h, p, s] ↔ keptPieces (split '.' token) = [h, p, s] := by
  unfold splitDots
  split
  · rename_i piece hl
    rw [hl]
    by_cases hpiece : piece = "" <;> simp [keptPieces, hpiece]
  · rfl

theorem keptPieces_append_empty (pieces : List String) (n : Nat) :
    keptPieces (pieces ++ List.replicate n "") = keptPieces pieces := by
  rw [keptPieces, keptPieces, reverse_append, reverse_replicate, dropWhile_append_of_pos]
  intro s hs
  rw [eq_of_mem_replicate hs]
  rfl

/-- Nothing is dropped when the last piece is not empty. -/
theorem keptPieces_eq_self {pieces : List String} (h : pieces.getLast? ≠ some "") : keptPieces pieces = pieces := by
  rw [keptPieces]
  cases hrev : pieces.reverse with
  | nil => rw [reverse_eq_nil_iff.mp hrev]; rfl
  | cons s rest =>
    have hlast : pieces.getLast? = some s := by
      rw [← List.head?_reverse, hrev]
      rfl
    rw [dropWhile_cons_of_neg, ← hrev, reverse_reverse]
    rw [hlast] at h
    simpa using h

/-- **Java's three pieces are the segments of the token without the dots at its end.** -/
theorem splitDots_eq_three_iff : splitDots token = [h, p, s] ↔ jwsSegments (trimDots token) = some (h, p, s) := by
  obtain ⟨n, hn⟩ := exists_trimDots token
  have hsplit : split '.' token = split '.' (trimDots token) ++ List.replicate n "" := by
    conv => lhs; rw [hn]
    rw [split, String.toList_append, dots, String.toList_ofList, splitGo_append_replicate]
    simp [split]
  rw [splitDots_eq_three, hsplit, keptPieces_append_empty, jwsSegments_eq_some]
  by_cases hempty : trimDots token = ""
  · rw [hempty]
    simp [split, splitGo, keptPieces]
  · rw [keptPieces_eq_self]
    intro hlast
    rw [split, List.getLast?_map] at hlast
    obtain ⟨l, hl, hnil⟩ := Option.map_eq_some_iff.mp hlast
    rw [String.ofList_eq_empty_iff.mp hnil] at hl
    refine getLast_splitGo '.' ?_ ?_ hl
    · rintro c hc rfl
      rw [reverse_nil, nil_append] at hc
      exact getLast_trimDots token hc
    · simpa using hempty

variable (x : Java) (issuerAid : String)

theorem readToken_eq (token : String) :
    x.readToken issuerAid token = jwsSegments (trimDots token) >>= x.readSegments issuerAid := by
  unfold readToken
  split
  · rename_i h p s hl
    rw [splitDots_eq_three_iff.mp hl]
    rfl
  · rename_i hl
    cases hseg : jwsSegments (trimDots token) with
    | none => rfl
    | some segments => exact absurd (splitDots_eq_three_iff.mpr hseg) (hl _ _ _)

variable (c : SdkCommitment) (now : Int)

/-- **Dots after a token make no difference.** -/
theorem verifyTct_append_dots (token : String) (n : Nat) :
    x.verifyTct issuerAid (token ++ dots n) c now = x.verifyTct issuerAid token c now := by
  rw [verifyTct, verifyTct, readToken_eq, readToken_eq, trimDots_append_dots]

theorem two_dots_trimDots (h : x.verifyTct issuerAid token c now = true) : (trimDots token).toList.count '.' = 2 := by
  rw [verifyTct, readToken_eq] at h
  exact two_dots_of_accepts h

/-- **Where Java asks for two dots.** An accepted token has two of them exactly when it does not end in one, and no
accepted token is refused for dots that are appended. -/
theorem verifyTct_two_dots_iff (haccept : x.verifyTct issuerAid token c now = true) :
    (token.toList.count '.' = 2 ↔ token.toList.getLast? ≠ some '.') ∧
      ∀ n, x.verifyTct issuerAid (token ++ dots n) c now = true := by
  have hcount := two_dots_trimDots x issuerAid c now haccept
  refine ⟨⟨fun htwo hlast => ?_, fun hlast => ?_⟩, fun n => by rw [verifyTct_append_dots, haccept]⟩
  · -- a dot at the end is one more than the two of the trimmed token
    obtain ⟨n, hn⟩ := exists_trimDots token
    rw [hn, count_append_dots, hcount] at htwo
    obtain rfl : n = 0 := by omega
    refine getLast_trimDots token ?_
    rwa [show trimDots token = token from (hn.trans (by simp [dots])).symm]
  · rwa [trimDots_eq_self hlast] at hcount

end Java

theorem Java.verifyTct_sample :
    let t := Issued.sample 1000
    t.java.verifyTct (aidFromPubkey t.key) t.compact sampleCommitment 0 = true := by
  intro t
  have hread : t.Readable := readable_sample (by decide +kernel) (by decide +kernel)
  obtain ⟨-, -, -, hjv⟩ := checksOut_sample hread
  rw [Java.verifyTct_checksOut hjv]
  decide

/-- The token as it is issued has two dots, and may be followed by more. -/
theorem Java.verifyTct_two_dots_sample :
    let t := Issued.sample 1000
    t.compact.toList.getLast? ≠ some '.' ∧
      ∀ n, t.java.verifyTct (aidFromPubkey t.key) (t.compact ++ dots n) sampleCommitment 0 = true := by
  intro t
  obtain ⟨htwo, hdots⟩ := Java.verifyTct_two_dots_iff _ _ _ _ Java.verifyTct_sample
  exact ⟨htwo.mp (two_dots_of_jwsSegments t.jwsSegments_compact), hdots⟩

/-- A token with a third dot, which Java alone accepts. -/
theorem Java.third_dot_accepted :
    let t := Issued.sample 1000
    let aid := aidFromPubkey t.key
    let token := t.compact ++ "."
    t.java.verifyTct aid token sampleCommitment 0 = true ∧ token.toList.count '.' = 3 ∧
      t.java.verifyTct aid t.compact sampleCommitment 0 = true ∧
      Kotlin.verifyTct t.java aid token sampleCommitment 0 = false ∧
      t.python.verifyTct aid token sampleCommitment (some 0) = false ∧
      t.typescript.verifyTct aid token sampleCommitment (some 0) = false ∧
      t.go.verifyTCT aid token sampleCommitment 0 = false := by
  intro t aid token
  have haccept : t.java.verifyTct aid t.compact sampleCommitment 0 = true := Java.verifyTct_sample
  have hdots : token = t.compact ++ dots 1 := congrArg (t.compact ++ ·) (by decide)
  have hcount : token.toList.count '.' = 3 := by
    rw [hdots, count_append_dots, two_dots_of_jwsSegments t.jwsSegments_compact]
  have hrefused : ∀ {b : Bool}, (b = true → token.toList.count '.' = 2) → b = false := by
    intro b hb
    rw [Bool.eq_false_iff]
    intro htrue
    have := hb htrue
    omega
  refine ⟨?_, hcount, haccept, hrefused Kotlin.two_dots, hrefused Python.two_dots, hrefused TypeScript.two_dots,
    hrefused Go.two_dots⟩
  rw [hdots, Java.verifyTct_append_dots]
  exact haccept

/-! ## Python -/

namespace Python

/-- The platform with the decoder of the standard library. -/
def documented (x : Python) : Python := { x with urlsafeB64decode := Base64.urlsafeB64decode }

/-- The same header and payload, with signatures that decode to the same bytes. -/
def SameSigned (x : Python) (token token' : String) : Prop :=
  ∃ h p s s' sig, jwsSegments token = some (h, p, s) ∧ jwsSegments token' = some (h, p, s') ∧
    x.b64urlDecode s = some sig ∧ x.b64urlDecode s' = some sig

/-- Of the strings for one signed token at most one is accepted. -/
def OneSpelling (x : Python) (issuerAid : String) (c : SdkCommitment) (now : Option Int) : Prop :=
  ∀ token token', x.verifyTct issuerAid token c now = true → x.verifyTct issuerAid token' c now = true →
    x.SameSigned token token' → token = token'

/-- The signature of an accepted token is spelled in the alphabet. -/
def PlainSignatures (x : Python) (issuerAid : String) (c : SdkCommitment) (now : Option Int) : Prop :=
  ∀ token h p s, x.verifyTct issuerAid token c now = true → jwsSegments token = some (h, p, s) →
    ∀ ch ∈ s.toList, (Base64.urlSafe.value ch).isSome = true

variable (x : Python)

/-- Four characters outside the alphabet keep the length modulo four, and are skipped. -/
theorem b64urlDecode_respelled (s : String) : x.documented.b64urlDecode ("!!!!" ++ s) = x.documented.b64urlDecode s := by
  have hpad : Base64.padding ("!!!!" ++ s).length = Base64.padding s.length := by
    rw [String.length_append]
    simp only [Base64.padding, show "!!!!".length = 4 from rfl]
    omega
  have hskip : ∀ cs, Base64.a2b 0 0 0 (("!!!!".toList ++ cs).map Base64.translate) =
      Base64.a2b 0 0 0 (cs.map Base64.translate) := by
    intro cs
    have hone : ∀ cs, Base64.a2b 0 0 0 ('!' :: cs) = Base64.a2b 0 0 0 cs :=
      fun cs => Base64.a2b_skip (by decide) (by decide) 0 0 0 cs
    rw [map_append, show "!!!!".toList.map Base64.translate = ['!', '!', '!', '!'] by decide]
    simp [hone]
  simp only [b64urlDecode, documented, hpad, Base64.urlsafeB64decode, String.append_assoc, String.toList_append]
  rw [← String.toList_append, ← String.toList_append, String.toList_append, all_append, hskip,
    show ("!!!!".toList.all fun c => decide (c.toNat < 128)) = true by decide, Bool.true_and]

variable {x} {issuerAid token token' : String} {c : SdkCommitment} {now : Option Int}

/-- The segments of an accepted token, with its signature. -/
theorem exists_segments_of_verifyTct (hverify : x.verifyTct issuerAid token c now = true) :
    ∃ h p s sig, jwsSegments token = some (h, p, s) ∧ x.b64urlDecode s = some sig := by
  cases hread : x.readToken issuerAid token with
  | none =>
    rw [verifyTct, hread] at hverify
    cases hverify
  | some r =>
    obtain ⟨⟨h, p, s⟩, hseg, hrest⟩ := Option.bind_eq_some_iff.mp hread
    obtain ⟨key, -, hrest⟩ := Option.bind_eq_some_iff.mp hrest
    obtain ⟨sig, hsig, -⟩ := Option.bind_eq_some_iff.mp hrest
    exact ⟨h, p, s, sig, hseg, hsig⟩

/-- Of the signature only its bytes count. -/
theorem verifyTct_congr {s' : String} (hseg : jwsSegments token = some (h, p, s))
    (hseg' : jwsSegments token' = some (h, p, s')) (hsig : x.b64urlDecode s' = x.b64urlDecode s) :
    x.verifyTct issuerAid token' c now = x.verifyTct issuerAid token c now := by
  simp [verifyTct, readToken, hseg, hseg', hsig]

/-- **An accepted token has a second spelling**, with characters outside the alphabet. -/
theorem verifyTct_respelled (hseg : jwsSegments token = some (h, p, s)) : let token' := joinSegments h p ("!!!!" ++ s)
    jwsSegments token' = some (h, p, "!!!!" ++ s) ∧
      x.documented.verifyTct issuerAid token' c now = x.documented.verifyTct issuerAid token c now := by
  intro token'
  obtain ⟨hh, hp, hs⟩ := not_mem_of_jwsSegments hseg
  have hseg' : jwsSegments token' = some (h, p, "!!!!" ++ s) := by
    apply jwsSegments_joinSegments hh hp
    rw [String.toList_append, mem_append, not_or]
    exact ⟨by decide, hs⟩
  exact ⟨hseg', verifyTct_congr hseg hseg' (b64urlDecode_respelled x s)⟩

theorem respelled_ne (hseg : jwsSegments token = some (h, p, s)) : token ≠ joinSegments h p ("!!!!" ++ s) := by
  intro heq
  have hlength := congrArg String.length (heq.symm.trans (eq_of_jwsSegments hseg))
  simp only [joinSegments, String.length_append] at hlength
  simp at hlength

/-- A strict decoder does not read it. -/
theorem decodeUnpadded_respelled (s : String) : Base64.decodeUnpadded Base64.urlSafe ("!!!!" ++ s) = none := by
  cases hsome : Base64.decodeUnpadded Base64.urlSafe ("!!!!" ++ s) with
  | none => rfl
  | some b =>
    have hvalue : (Base64.urlSafe.value '!').isSome = true := Base64.value_of_mem_decodeChars hsome (by simp)
    exact absurd hvalue (by decide)

/-- **Strict spellings are one.** -/
theorem eq_of_strict {s' : String} (hseg : jwsSegments token = some (h, p, s))
    (hseg' : jwsSegments token' = some (h, p, s')) (hs : (Base64.decodeUnpadded Base64.urlSafe s).isSome = true)
    (hs' : (Base64.decodeUnpadded Base64.urlSafe s').isSome = true)
    (hsig : x.documented.b64urlDecode s = x.documented.b64urlDecode s') : token = token' := by
  obtain ⟨b, hb⟩ := Option.isSome_iff_exists.mp hs
  obtain ⟨b', hb'⟩ := Option.isSome_iff_exists.mp hs'
  have hdec : x.documented.b64urlDecode s = some b := Base64.urlsafeB64decode_padded hb
  have hdec' : x.documented.b64urlDecode s' = some b' := Base64.urlsafeB64decode_padded hb'
  obtain rfl : b = b' := by
    rw [hdec, hdec'] at hsig
    exact Option.some.inj hsig
  have hspell : s = s' :=
    (Base64.encodeUnpadded_of_decodeUnpadded hb).symm.trans (Base64.encodeUnpadded_of_decodeUnpadded hb')
  rw [eq_of_jwsSegments hseg, eq_of_jwsSegments hseg', hspell]

variable (x issuerAid c now)

/-- **Where Python has one spelling for a token**: where it accepts none at all. The same holds of signatures spelled in
the alphabet. Among tokens whose signature a strict decoder reads there is one spelling. -/
theorem one_spelling_iff :
    (x.documented.OneSpelling issuerAid c now ↔ ∀ token, x.documented.verifyTct issuerAid token c now = false) ∧
    (x.documented.PlainSignatures issuerAid c now ↔ ∀ token, x.documented.verifyTct issuerAid token c now = false) ∧
    ∀ token token' h p s s', jwsSegments token = some (h, p, s) → jwsSegments token' = some (h, p, s') →
      (Base64.decodeUnpadded Base64.urlSafe s).isSome = true → (Base64.decodeUnpadded Base64.urlSafe s').isSome = true →
      x.documented.b64urlDecode s = x.documented.b64urlDecode s' → token = token' := by
  refine ⟨⟨?_, ?_⟩, ⟨?_, ?_⟩, fun _ _ _ _ _ _ => eq_of_strict⟩
  · intro hone token
    rw [Bool.eq_false_iff]
    intro hverify
    obtain ⟨h, p, s, sig, hseg, hsig⟩ := exists_segments_of_verifyTct hverify
    obtain ⟨hseg', hverify'⟩ := verifyTct_respelled (x := x) (c := c) hseg
    exact respelled_ne hseg (hone _ _ hverify (hverify'.trans hverify)
      ⟨h, p, s, _, sig, hseg, hseg', hsig, (b64urlDecode_respelled x s).trans hsig⟩)
  · intro hnone token token' hverify
    rw [hnone token] at hverify
    cases hverify
  · intro hplain token
    rw [Bool.eq_false_iff]
    intro hverify
    obtain ⟨h, p, s, sig, hseg, -⟩ := exists_segments_of_verifyTct hverify
    obtain ⟨hseg', hverify'⟩ := verifyTct_respelled (x := x) (c := c) hseg
    exact absurd (hplain _ _ _ _ (hverify'.trans hverify) hseg' '!' (by simp)) (by decide)
  · intro hnone token h p s hverify
    rw [hnone token] at hverify
    cases hverify

end Python

theorem Issued.Readable.documented {t : Issued} (h : t.Readable) :
    (∀ b, t.python.documented.b64urlDecode (b64urlNoPad b) = some b) ∧
      t.python.documented.readToken (aidFromPubkey t.key) t.compact = some (t.header, t.payload) := by
  have hdec : ∀ b, t.python.documented.urlsafeB64decode (Base64.encodePadded Base64.urlSafe b) = some b := by
    intro b
    rw [← padded_b64urlNoPad]
    exact Base64.urlsafeB64decode_padded (Issued.decodeUnpadded_b64urlNoPad b)
  exact ⟨Python.b64urlDecode_b64urlNoPad hdec, Python.readToken_issued hdec h.bytes.1 h.bytes.2 h.headerKeys
    h.payloadKeys (beq_self_eq_true _)⟩

/-- Two spellings of one token, which Python accepts both. A strict decoder reads one of the signatures. -/
theorem Python.second_spelling_accepted :
    let t := Issued.sample 1000
    let aid := aidFromPubkey t.key
    let x := t.python.documented
    let token' := joinSegments t.headerSegment t.payloadSegment ("!!!!" ++ b64urlNoPad t.sig)
    x.verifyTct aid t.compact sampleCommitment (some 0) = true ∧
      x.verifyTct aid token' sampleCommitment (some 0) = true ∧ x.SameSigned t.compact token' ∧ t.compact ≠ token' ∧
      Base64.decodeUnpadded Base64.urlSafe (b64urlNoPad t.sig) = some t.sig ∧
      Base64.decodeUnpadded Base64.urlSafe ("!!!!" ++ b64urlNoPad t.sig) = none := by
  intro t aid x token'
  have hread : t.Readable := readable_sample (by decide +kernel) (by decide +kernel)
  obtain ⟨hdec, htoken⟩ := hread.documented
  have hchecks : x.ChecksOut aid t.compact sampleCommitment (1000 : Nat) :=
    checksOut_samplePayload htoken (samplePayload_ok aid sampleDigest 1000).1
      (Python.seamCommitmentDigest_ok_iff.mpr (boundHex_sampleDigest _))
  have hverify : x.verifyTct aid t.compact sampleCommitment (some 0) = true := by
    rw [Python.verifyTct_checksOut hchecks]
    decide
  obtain ⟨hseg', hverify'⟩ := Python.verifyTct_respelled (x := t.python) (c := sampleCommitment) t.jwsSegments_compact
  refine ⟨hverify, hverify'.trans hverify, ⟨_, _, _, _, t.sig, t.jwsSegments_compact, hseg', hdec t.sig, ?_⟩,
    Python.respelled_ne t.jwsSegments_compact, Issued.decodeUnpadded_b64urlNoPad _,
    Python.decodeUnpadded_respelled _⟩
  exact (Python.b64urlDecode_respelled t.python _).trans (hdec t.sig)

end SeamSdk
