import SeamSdk.Sdk.Issued
import Mathlib.Data.Rat.Cast.Order

/-!
# One expiry rule in four SDKs

The rule is that `exp` lies in the range of a 64-bit signed integer and after the clock (`expRule`). Python keeps an
integer exact and applies the rule to it. TypeScript and Go apply it to the nearest double, TypeScript to a clock that
is a double as well. Java compares the clock with the double after a conversion that saturates, so that nothing is past
its range. With `r` for the rounding, on the integer `n`:

- Python computes `expRule now n` and Go `expRule now (r n)`, while TypeScript has a clock `r now`;
- `readAlike_iff`: the four agree with the rule exactly when `ReadAlike now n`;
- `readAlike_of_small`: up to `2 ^ 53` they do;
- `exp_rule_iff`: the same for whole tokens that are in order otherwise.
-/

namespace SeamSdk

open ByteCodec Checked Binary64 Json

/-! ## The rule -/

/-- In force: in the range of a 64-bit signed integer, and after the clock. -/
def expRule (now n : Int) : Bool := decide (-2 ^ 63 ≤ n ∧ n < 2 ^ 63 ∧ now < n)

/-- A double clamped to the 64-bit signed integers. -/
def clamp (n : Int) : Int := max (-2 ^ 63) (min (2 ^ 63 - 1) n)

theorem Python.expOk_int (x : Python) (now : Int) (neg : Bool) (k : Nat) :
    x.expOk now (some (.num (.int neg k))) = expRule now (JsonNumber.signed neg k) := by
  simp only [Python.expOk, expRule, ← Bool.decide_and, and_assoc]

/-- The double of an integer, bounded. -/
theorem boundedSeconds_intCast (n : Int) :
    boundedSeconds (.finite n) = if -2 ^ 63 ≤ n ∧ n < 2 ^ 63 then some n else none := by
  have hbound : (2 ^ 63 ≤ (n : Rat) ∨ (n : Rat) < -2 ^ 63) ↔ ¬(-2 ^ 63 ≤ n ∧ n < 2 ^ 63) := by
    have hge : (2 ^ 63 : Rat) ≤ n ↔ 2 ^ 63 ≤ n := by exact_mod_cast Iff.rfl
    have hlt : (n : Rat) < -2 ^ 63 ↔ n < -2 ^ 63 := by exact_mod_cast Iff.rfl
    rw [hge, hlt]
    omega
  rw [boundedSeconds, trunc_intCast]
  split
  · rename_i h
    rw [if_neg (hbound.mp h)]
  · rename_i h
    rw [if_pos (not_not.mp (mt hbound.mpr h))]

theorem Go.expOk_int (x : Go) (now : Int) (neg : Bool) (k : Nat) :
    x.expOk now (some (.num (.int neg k))) = expRule now (roundInt (JsonNumber.signed neg k)) := by
  simp only [Go.expOk, Sdk.number, boundedSeconds_intCast, expRule]
  split <;> simp_all

theorem TypeScript.expOk_int (x : TypeScript) (now : Int) (neg : Bool) (k : Nat) :
    x.expOk now (some (.num (.int neg k))) = expRule now (roundInt (JsonNumber.signed neg k)) := by
  simp only [TypeScript.expOk, Sdk.number, boundedSeconds_intCast, expRule]
  split <;> simp_all

theorem Java.expOk_int (x : Java) (now : Int) (neg : Bool) (k : Nat) :
    x.expOk now (some (.num (.int neg k))) = decide (now < clamp (roundInt (JsonNumber.signed neg k))) := by
  rw [Java.expOk, Sdk.number, Value.toInt64, trunc_intCast, clamp]

/-! ## Agreement -/

/-- Where the readings of `n` by the four SDKs give the rule: at the last second and before the first nothing is in
force; else `n` rounds to a double in the range, and rounding does not carry it across the clock. -/
def ReadAlike (now n : Int) : Prop :=
  now = 2 ^ 63 - 1 ∨ n < -2 ^ 63 ∨
    (roundInt n < 2 ^ 63 ∧ ((now < n ∧ roundInt now < roundInt n) ∨ (n ≤ now ∧ roundInt n ≤ now)))

instance (now n : Int) : Decidable (ReadAlike now n) := inferInstanceAs (Decidable (_ ∨ _ ∨ _))

/-- What rounding does to the bounds of the range. -/
theorem roundInt_bounds (n : Int) : (2 ^ 63 ≤ n → 2 ^ 63 ≤ roundInt n) ∧ (n ≤ -2 ^ 63 → roundInt n ≤ -2 ^ 63) ∧
    (-2 ^ 63 ≤ n → -2 ^ 63 ≤ roundInt n) := by
  have htop : roundInt (2 ^ 63) = 2 ^ 63 := by decide
  have hbottom : roundInt (-2 ^ 63) = -2 ^ 63 := by decide
  refine ⟨fun h => ?_, fun h => ?_, fun h => ?_⟩
  · rw [← htop]
    exact roundInt_mono h
  · rw [← hbottom]
    exact roundInt_mono h
  · rw [← hbottom]
    exact roundInt_mono h

/-- **Where the four readings follow the rule.** -/
theorem readAlike_iff {now n : Int} (hnow : -2 ^ 63 ≤ now ∧ now < 2 ^ 63) :
    (expRule (roundInt now) (roundInt n) = expRule now n ∧ expRule now (roundInt n) = expRule now n ∧
      decide (now < clamp (roundInt n)) = expRule now n) ↔ ReadAlike now n := by
  obtain ⟨htop, hbottom, hlow⟩ := roundInt_bounds n
  obtain ⟨-, -, hnowLow⟩ := roundInt_bounds now
  have hclock : roundInt now < roundInt n → now < roundInt n := lt_roundInt_of_roundInt_lt
  have hmono : n ≤ now → roundInt n ≤ roundInt now := roundInt_mono
  simp only [expRule, clamp, ReadAlike, decide_eq_decide, lt_max_iff, lt_min_iff]
  generalize roundInt n = r at *
  generalize roundInt now = c at *
  omega

/-- **Clocks and expiries of up to 53 bits are read alike.** -/
theorem readAlike_of_small {now n : Int} (hnow : now.natAbs ≤ 2 ^ 53) (hn : n.natAbs ≤ 2 ^ 53) : ReadAlike now n := by
  right
  right
  rw [roundInt_of_natAbs_le hnow, roundInt_of_natAbs_le hn]
  omega

/-! ## Tokens -/

section Tokens

variable {issuerAid tctJws : String} {c : SdkCommitment} {n now : Int}

/-- For an SDK, the token is in order but for its expiry `n`. -/
def Python.ChecksOut (x : Python) (issuerAid tctJws : String) (c : SdkCommitment) (n : Int) : Prop :=
  SeamSdk.ChecksOut (selfIssued issuerAid) (x.seamCommitmentDigest c) (x.readToken issuerAid tctJws) n

@[inherit_doc Python.ChecksOut]
def TypeScript.ChecksOut (x : TypeScript) (issuerAid tctJws : String) (c : SdkCommitment) (n : Int) : Prop :=
  SeamSdk.ChecksOut (selfIssued issuerAid) (x.seamCommitmentDigest c) (x.readToken issuerAid tctJws) n

@[inherit_doc Python.ChecksOut]
def Go.ChecksOut (x : Go) (issuerAid tctJws : String) (c : SdkCommitment) (n : Int) : Prop :=
  SeamSdk.ChecksOut (Go.selfIssued issuerAid) (x.seamCommitmentDigest c) (x.readToken issuerAid tctJws) n

@[inherit_doc Python.ChecksOut]
def Java.ChecksOut (x : Java) (issuerAid tctJws : String) (c : SdkCommitment) (n : Int) : Prop :=
  SeamSdk.ChecksOut (selfIssued issuerAid) (x.seamCommitmentDigest c) (x.readToken issuerAid tctJws) n

theorem Python.verifyTct_checksOut {x : Python} (h : x.ChecksOut issuerAid tctJws c n) (now : Int) :
    x.verifyTct issuerAid tctJws c (some now) = expRule now n := by
  apply accepts_of_checksOut h
  rintro neg k rfl
  exact Python.expOk_int x now neg k

theorem TypeScript.verifyTct_checksOut {x : TypeScript} (h : x.ChecksOut issuerAid tctJws c n) (now : Int) :
    x.verifyTct issuerAid tctJws c (some now) = expRule now (roundInt n) := by
  apply accepts_of_checksOut h
  rintro neg k rfl
  exact TypeScript.expOk_int x now neg k

theorem Go.verifyTCT_checksOut {x : Go} (h : x.ChecksOut issuerAid tctJws c n) (now : Int) :
    x.verifyTCT issuerAid tctJws c now = expRule now (roundInt n) := by
  apply accepts_of_checksOut h
  rintro neg k rfl
  exact Go.expOk_int x now neg k

theorem Java.verifyTct_checksOut {x : Java} (h : x.ChecksOut issuerAid tctJws c n) (now : Int) :
    x.verifyTct issuerAid tctJws c now = decide (now < clamp (roundInt n)) := by
  apply accepts_of_checksOut h
  rintro neg k rfl
  exact Java.expOk_int x now neg k

/-- The four SDKs give the answer of the rule at the clock `now`, which TypeScript has as the nearest double. -/
def FollowRule (py : Python) (ts : TypeScript) (go : Go) (jv : Java) (issuerAid tctJws : String) (c : SdkCommitment)
    (now n : Int) : Prop :=
  py.verifyTct issuerAid tctJws c (some now) = expRule now n ∧
    ts.verifyTct issuerAid tctJws c (some (roundInt now)) = expRule now n ∧
    go.verifyTCT issuerAid tctJws c now = expRule now n ∧ jv.verifyTct issuerAid tctJws c now = expRule now n

/-- **Where the SDKs agree on a token.** -/
theorem exp_rule_iff {py : Python} {ts : TypeScript} {go : Go} {jv : Java} (hnow : -2 ^ 63 ≤ now ∧ now < 2 ^ 63)
    (hpy : py.ChecksOut issuerAid tctJws c n) (hts : ts.ChecksOut issuerAid tctJws c n)
    (hgo : go.ChecksOut issuerAid tctJws c n) (hjv : jv.ChecksOut issuerAid tctJws c n) :
    FollowRule py ts go jv issuerAid tctJws c now n ↔ ReadAlike now n := by
  rw [FollowRule, Python.verifyTct_checksOut hpy, TypeScript.verifyTct_checksOut hts, Go.verifyTCT_checksOut hgo,
    Java.verifyTct_checksOut hjv, ← readAlike_iff hnow]
  exact and_iff_right rfl

end Tokens

/-! ## A sample -/

def sampleHeader : Json := .obj [("alg", .str "EdDSA"), ("typ", .str "aitp-tct+jwt")]

/-- A commitment self-attestation of the issuer. -/
def samplePayload (issuerAid digest : String) (exp : Nat) : Json :=
  .obj [("iss", .str issuerAid), ("sub", .str issuerAid), ("aud", .str issuerAid), ("exp", .num (.int false exp)),
    ("grants", .arr [.str attestationGrant]),
    ("ext", .obj [(extNamespace, .obj [("type", .str extType), ("commitment_digest", .str digest)])])]

def sampleCommitment : SdkCommitment := ⟨"c1", "approve", "board", none, "aitp", "pinned", "", none, none⟩

def sampleDigest : String :=
  let sha256 := (Externs.sample []).sha256
  RustText.hex (sha256 (layout (sampleCommitment.parts (sha256 (layout (explanationParts []))))))

/-- The token of an issuer, valid until `exp`. -/
def Issued.sample (exp : Nat) : Issued :=
  let key := List.replicate 32 0
  ⟨sampleHeader, samplePayload (aidFromPubkey key) sampleDigest exp, List.replicate 64 0, key⟩

/-- The payload is self-issued, grants the attestation and binds the digest until `exp`. -/
theorem samplePayload_ok (issuerAid digest : String) (exp : Nat) : let p := samplePayload issuerAid digest exp
    selfIssued issuerAid p = true ∧ grantsOk p = true ∧ boundDigest p = some digest ∧
      p.get? "exp" = some (.num (.int false exp)) := by
  refine ⟨?_, ?_, ?_, ?_⟩
  · simp [samplePayload, selfIssued, claim, get?, asStr?]
  · simp [samplePayload, grantsOk, get?, strList?, asStr?]
  · simp [samplePayload, boundDigest, claim, get?, asStr?, isObj, size, lastOfEach, guard,
      Option.filter_some]
  · simp [samplePayload, get?]

theorem distinctKeys_samplePayload (issuerAid digest : String) (exp : Nat) :
    (samplePayload issuerAid digest exp).distinctKeys = true := by
  simp [samplePayload, distinctKeys, distinctKeysMembers, distinctKeysItems]

/-- The two texts differ in their third character. -/
theorem Issued.text_ne_sample (exp : Nat) : (Issued.sample exp).header.text ≠ (Issued.sample exp).payload.text := by
  intro h
  have hthird := congrArg (fun s : String => s.toList.take 3) h
  simp only [text, String.toList_ofList] at hthird
  revert hthird
  simp [Issued.sample, sampleHeader, samplePayload, render, renderMembers, quote, escapeChar]

theorem boundHex_sampleDigest (signed : Bytes) :
    BoundHex (Sdk.sample signed).sha256 sampleCommitment sampleCommitment.explanationDigest sampleDigest :=
  ⟨(Externs.sample []).sha256 (layout (explanationParts [])), rfl, by rw [sampleDigest, Sdk.sample]⟩

theorem wellPublished_sampleCommitment : sampleCommitment.WellPublished := fun _ h => nomatch h

theorem headerOk_sampleHeader : headerOk sampleHeader = true := by
  simp [sampleHeader, headerOk, claim, get?, asStr?]

/-- A token with the payload of the sample is in order but for its expiry. -/
theorem checksOut_samplePayload {issuerAid : String} {exp : Nat} {issued : Json → Bool}
    {digest : Except String String} {token : Option (Json × Json)}
    (htoken : token = some (sampleHeader, samplePayload issuerAid sampleDigest exp))
    (hissued : issued (samplePayload issuerAid sampleDigest exp) = true) (hdigest : digest = .ok sampleDigest) :
    ChecksOut issued digest token exp := by
  obtain ⟨-, hgrants, hbound, hexp⟩ := samplePayload_ok issuerAid sampleDigest exp
  exact ⟨_, _, _, false, exp, htoken, headerOk_sampleHeader, hissued, hgrants, hdigest, hbound, hexp, rfl⟩

/-- Every SDK finds the token in order, but for its expiry. -/
theorem checksOut_sample {exp : Nat} (h : (Issued.sample exp).Readable) : let t := Issued.sample exp
    let aid := aidFromPubkey t.key
    t.python.ChecksOut aid t.compact sampleCommitment exp ∧ t.typescript.ChecksOut aid t.compact sampleCommitment exp ∧
      t.go.ChecksOut aid t.compact sampleCommitment exp ∧ t.java.ChecksOut aid t.compact sampleCommitment exp := by
  intro t aid
  have hissued := (samplePayload_ok aid sampleDigest exp).1
  have haid : aid ≠ "" := aidFromPubkey_ne_empty _
  refine ⟨?_, ?_, ?_, ?_⟩
  · exact checksOut_samplePayload h.python hissued (Python.seamCommitmentDigest_ok_iff.mpr (boundHex_sampleDigest _))
  · exact checksOut_samplePayload h.typescript hissued
      (TypeScript.seamCommitmentDigest_ok_iff.mpr (boundHex_sampleDigest _))
  · exact checksOut_samplePayload h.go ((Go.selfIssued_iff haid).trans hissued)
      (Go.seamCommitmentDigest_ok_iff.mpr ⟨wellPublished_sampleCommitment, boundHex_sampleDigest _⟩)
  · exact checksOut_samplePayload h.java hissued
      (Java.seamCommitmentDigest_ok_iff.mpr ⟨wellPublished_sampleCommitment, boundHex_sampleDigest _⟩)

theorem readable_sample {exp : Nat} (hheader : TypeScript.scan (Issued.sample exp).typescript.jsonParseString none []
      false (Utf16.encode sampleHeader.render) = some false)
    (hpayload : TypeScript.scan (Issued.sample exp).typescript.jsonParseString none [] false
      (Utf16.encode (Issued.sample exp).payload.render) = some false) : (Issued.sample exp).Readable where
  apart := Issued.text_ne_sample exp
  objects := ⟨rfl, rfl⟩
  headerKeys := by
    simp [Issued.sample, sampleHeader, distinctKeys, distinctKeysMembers]
  payloadKeys := distinctKeys_samplePayload _ _ _
  headerScan := by
    rw [TypeScript.jsonHasDuplicateKey, text, String.toList_ofList]
    exact hheader
  payloadScan := by
    rw [TypeScript.jsonHasDuplicateKey, text, String.toList_ofList]
    exact hpayload
  key := List.length_replicate
  sig := List.cons_ne_nil _ _

/-- An expiry of `2 ^ 63` is past the range. Java alone takes the token. -/
theorem exp_past_int64 :
    let t := Issued.sample (2 ^ 63)
    let aid := aidFromPubkey t.key
    let n : Int := (2 ^ 63 : Nat)
    (t.python.ChecksOut aid t.compact sampleCommitment n ∧ t.typescript.ChecksOut aid t.compact sampleCommitment n ∧
      t.go.ChecksOut aid t.compact sampleCommitment n ∧ t.java.ChecksOut aid t.compact sampleCommitment n) ∧
    t.python.verifyTct aid t.compact sampleCommitment (some 0) = false ∧
    t.typescript.verifyTct aid t.compact sampleCommitment (some 0) = false ∧
    t.go.verifyTCT aid t.compact sampleCommitment 0 = false ∧
    t.java.verifyTct aid t.compact sampleCommitment 0 = true ∧ expRule 0 n = false := by
  intro t aid n
  have hread : t.Readable := readable_sample (by decide +kernel) (by decide +kernel)
  obtain ⟨hpy, hts, hgo, hjv⟩ := checksOut_sample hread
  refine ⟨⟨hpy, hts, hgo, hjv⟩, ?_, ?_, ?_, ?_, by decide⟩
  · rw [Python.verifyTct_checksOut hpy]
    decide
  · rw [← Rat.intCast_zero, TypeScript.verifyTct_checksOut hts]
    decide
  · rw [Go.verifyTCT_checksOut hgo]
    decide
  · rw [Java.verifyTct_checksOut hjv]
    decide

/-- A token valid until 1000, at the clock 0. -/
theorem exp_rule_iff_thousand :
    let t := Issued.sample 1000
    FollowRule t.python t.typescript t.go t.java (aidFromPubkey t.key) t.compact sampleCommitment 0 1000 ∧
      expRule 0 1000 = true := by
  intro t
  have hread : t.Readable := readable_sample (by decide +kernel) (by decide +kernel)
  obtain ⟨hpy, hts, hgo, hjv⟩ := checksOut_sample hread
  exact ⟨(exp_rule_iff (by decide) hpy hts hgo hjv).mpr (readAlike_of_small (by decide) (by decide)), by decide⟩

end SeamSdk
