import SeamSdk.Lib.Base64
import SeamSdk.Lib.Checked
import SeamSdk.Lib.Text

/-!
# What the verifier takes from elsewhere

The hash, the signature scheme and the texts other crates print are fields of `Externs`; every definition of the
verifier takes one. Of the hash only its width is known here. Statements that need more say so: no collision among the
inputs concerned is `CollisionFree`.

An issuer is named by an AID, the base64url text of its key (`aidToKey`, `verifyingKey`).
-/

namespace SeamSdk

open ByteCodec Checked

structure Externs where
  sha256 : Bytes → Bytes
  length_sha256 : ∀ b, (sha256 b).length = 32
  /-- `VerifyingKey::from_bytes`: why 32 bytes are not a key, if they are not. -/
  keyError : Bytes → Option String
  /-- `VerifyingKey::verify` on key, message and signature. -/
  ed25519Verify : Bytes → Bytes → Bytes → Bool
  /-- What `base64::DecodeError` displays for an input that does not decode. -/
  base64Error : String → String
  /-- A string under the format `{:?}`. -/
  debugStr : String → String

/-- A stand-in to evaluate the verifier with: a 256-bit polynomial checksum for the hash, and an issuer that has
signed the messages given. -/
def Externs.sample (signed : List Bytes) : Externs where
  sha256 b := leBytes 32 (b.foldl (fun n c => n * 257 + c.toNat + 1) 0 % 2 ^ 256)
  length_sha256 _ := length_leBytes ..
  keyError _ := none
  ed25519Verify _ m _ := signed.contains m
  base64Error _ := ""
  debugStr s := s

theorem Externs.sample_ed25519Verify (signed : List Bytes) (key m sig : Bytes) :
    (Externs.sample signed).ed25519Verify key m sig = signed.contains m := rfl

/-- The hash has no collision among the inputs given. -/
def Externs.CollisionFree (x : Externs) (inputs : List Bytes) : Prop :=
  ∀ p ∈ inputs, ∀ q ∈ inputs, x.sha256 p = x.sha256 q → p = q

instance (x : Externs) (inputs : List Bytes) : Decidable (x.CollisionFree inputs) :=
  inferInstanceAs (Decidable (∀ p ∈ inputs, ∀ q ∈ inputs, x.sha256 p = x.sha256 q → p = q))

theorem Externs.CollisionFree.mono {x : Externs} {l m : List Bytes} (h : x.CollisionFree m) (hlm : l ⊆ m) :
    x.CollisionFree l :=
  fun p hp q hq => h p (hlm hp) q (hlm hq)

/-- `str::strip_prefix`. -/
def stripPrefix (p s : String) : Option String :=
  if s.toList.take p.length = p.toList then some (String.ofList (s.toList.drop p.length)) else none

theorem stripPrefix_append (p s : String) : stripPrefix p (p ++ s) = some s := by
  rw [stripPrefix, String.toList_append, ← String.length_toList, List.take_left, if_pos rfl, List.drop_left,
    String.ofList_toList]

variable (x : Externs)

/-- The standard alphabet with canonical padding. -/
def b64 (s : String) : Except String Bytes :=
  demand (Base64.decodePadded Base64.standard s) s!"bad base64: {x.base64Error s}"

/-- The key bytes an AID embeds. -/
def aidToKey (aid : String) : Except String Bytes := do
  let b64 ← demand ((stripPrefix "aid:pubkey:ed25519:" aid).or (stripPrefix "aid:pubkey:" aid)) s!"not an AID: {aid}"
  let raw ← demand (Base64.decodeUnpadded Base64.urlSafe b64) s!"AID does not decode: {x.base64Error b64}"
  refuse (raw.length ≠ 32) "AID does not embed a 32-byte ed25519 key"
  return raw

/-- The verifying key of an AID. -/
def verifyingKey (aid : String) : Except String Bytes := do
  let key ← aidToKey x aid
  match x.keyError key with
  | some e => throw s!"bad issuer key: {e}"
  | none => return key

/-- Every pinned AID with its key; one that is not usable refuses the whole list. -/
def pinnedKeys (pinnedAids : List String) : Except String (List (String × Bytes)) :=
  pinnedAids.mapM fun aid => do return (aid, ← verifyingKey x aid)

/-- `pinned_aids.join(", ")`. -/
def joinAids (aids : List String) : String := ", ".intercalate aids

/-! ## Pins -/

variable {x}

theorem pinnedKeys_cons_ok {aid : String} {aids : List String} {ks : List (String × Bytes)} :
    pinnedKeys x (aid :: aids) = .ok ks ↔
      ∃ k ks', verifyingKey x aid = .ok k ∧ pinnedKeys x aids = .ok ks' ∧ ks = (aid, k) :: ks' := by
  simp only [pinnedKeys, List.mapM_cons, bind_ok, pure_ok]
  constructor
  · intro h
    rcases h with ⟨_, ⟨k, hk, rfl⟩, ks', hks', rfl⟩
    exact ⟨k, ks', hk, hks', rfl⟩
  · intro h
    rcases h with ⟨k, ks', hk, hks', rfl⟩
    exact ⟨_, ⟨k, hk, rfl⟩, ks', hks', rfl⟩

/-- The pins are usable exactly when each is. -/
theorem pinnedKeys_ok_iff {aids : List String} :
    (∃ ks, pinnedKeys x aids = .ok ks) ↔ ∀ aid ∈ aids, ∃ k, verifyingKey x aid = .ok k := by
  induction aids with
  | nil => simp [pinnedKeys, pure, Except.pure]
  | cons aid aids ih =>
    simp only [List.forall_mem_cons, ← ih, pinnedKeys_cons_ok]
    constructor
    · intro h
      rcases h with ⟨_, k, ks, hk, hks, -⟩
      exact ⟨⟨k, hk⟩, ks, hks⟩
    · intro h
      rcases h with ⟨⟨k, hk⟩, ks, hks⟩
      exact ⟨_, k, ks, hk, hks, rfl⟩

/-- Looking an AID up among the pins gives its own key. -/
theorem find_pinnedKeys {aids : List String} {ks : List (String × Bytes)} (h : pinnedKeys x aids = .ok ks)
    {aid : String} {p : String × Bytes} :
    ks.find? (fun q => q.1 == aid) = some p ↔ aid ∈ aids ∧ p.1 = aid ∧ verifyingKey x aid = .ok p.2 := by
  induction aids generalizing ks with
  | nil =>
    obtain rfl : ([] : List (String × Bytes)) = ks := pure_ok.mp h
    simp
  | cons a aids ih =>
    obtain ⟨k, ks', hk, hks', rfl⟩ := pinnedKeys_cons_ok.mp h
    rw [List.find?_cons]
    by_cases ha : a = aid
    · subst ha
      simp only [beq_self_eq_true, Option.some.injEq, List.mem_cons, true_or, true_and, hk, Except.ok.injEq]
      constructor
      · rintro rfl; exact ⟨rfl, rfl⟩
      · rintro ⟨rfl, rfl⟩; rfl
    · simp [beq_eq_false_iff_ne.mpr ha, ih hks', Ne.symm ha]

end SeamSdk
