import SeamSdk.Sdk.IdentityFile

/-!
# What loading a bootstrap file can end in

The loaders return an identity or raise an `IdentityFileError`, if the bytes of the file are UTF-8 and `json.load` meets no
integer it refuses to convert and no array or object inside of too many others (`Legible`). Behind the validator nothing
raises anything else: a checked `seed_hex` is decoded to 32 bytes (`decodeSeed_of_valid`). So both loaders follow from what
the validator returns (`loadIdentityFile_eq`, `loadIdentityFacts_eq`), and accept the same contents but for the AID
(`accepted_iff`).
-/

namespace SeamSdk.Python

open ByteCodec Checked JsonGrammar Pattern Utf16

variable {F : Type}

/-! ## The vocabulary -/

/-- A computation returns or raises an `IdentityFileError`. -/
def InVocabulary {α : Type} (r : Except IdentityRaised α) : Prop := ∀ e, r = .error e → ∃ m, e = .identityFile m

section Vocabulary

variable {α β : Type}

theorem inVocabulary_ok (a : α) : InVocabulary (.ok a) := fun _ h => nomatch h

theorem inVocabulary_identityFile (m : String) : InVocabulary (.error (.identityFile m) : Except IdentityRaised α) :=
  fun _ h => ⟨m, (Except.error.inj h).symm⟩

theorem InVocabulary.bind {r : Except IdentityRaised α} (h : InVocabulary r) {f : α → Except IdentityRaised β}
    (hf : ∀ a, r = .ok a → InVocabulary (f a)) : InVocabulary (r >>= f) := by
  cases r with
  | ok a => exact hf a rfl
  | error e => exact fun e' he => h e' (congrArg Except.error (Except.error.inj he))

/-- What a first step raises, the whole computation raises. -/
theorem InVocabulary.of_bind {r : Except IdentityRaised α} {f : α → Except IdentityRaised β}
    (h : InVocabulary (r >>= f)) : InVocabulary r := by
  cases r with
  | ok a => exact inVocabulary_ok a
  | error e => exact fun e' he => h e' (congrArg Except.error (Except.error.inj he))

theorem inVocabulary_refuse (c : Prop) [Decidable c] (m : String) : InVocabulary (refuse c (.identityFile m)) := by
  unfold refuse
  split
  · exact inVocabulary_identityFile m
  · exact inVocabulary_ok ()

theorem inVocabulary_demand (o : Option α) (m : String) : InVocabulary (demand o (.identityFile m)) := by
  cases o with
  | none => exact inVocabulary_identityFile m
  | some a => exact inVocabulary_ok a

end Vocabulary

/-! ## The validator -/

variable {path : Option String} {data : Dict F}

section Validator

variable (x : Interpreter F)

/-- What the checks of the fields leave. -/
structure Valid (data : Dict F) : Prop where
  version : isOne x (data.get "version" .none) = true
  seed : ∃ s, (data.get "seed_hex" (.str [])).asStr? = some s ∧ s.length = 64 ∧ seedHexRe (s.map Fin.val) = true
  required : ∀ k ∈ requiredFields, (data.get k .none).truthy = true
  aid : data.hasKey "aid" = true → ∃ a, (data.get "aid" .none).asStr? = some a ∧ aidRe (a.map Fin.val) = true

theorem validate_ok : validate x data = .ok () ↔ Valid x data := by
  unfold validate
  simp only [bind_ok, refuse_ok, demand_ok, Option.filter_eq_some_iff, decide_eq_true_eq, exists_and_left, exists_const,
    Bool.not_eq_false, ne_eq, not_not, List.filter_eq_nil_iff, Bool.not_eq_true', not_and]
  constructor
  · rintro ⟨hversion, s, ⟨hs, hlen⟩, hhex, hrequired, haid⟩
    refine ⟨hversion, ⟨s, hs, hlen, hhex⟩, hrequired, fun hkey => ?_⟩
    exact (Option.any_eq_true _ _).mp (haid hkey)
  · rintro ⟨hversion, ⟨s, hs, hlen, hhex⟩, hrequired, haid⟩
    refine ⟨hversion, s, ⟨hs, hlen⟩, hhex, hrequired, fun hkey => ?_⟩
    exact (Option.any_eq_true _ _).mpr (haid hkey)

theorem inVocabulary_validate (data : Dict F) : InVocabulary (validate x data) := by
  refine (inVocabulary_refuse _ _).bind fun _ _ => ?_
  refine (inVocabulary_demand _ _).bind fun _ _ => ?_
  refine (inVocabulary_refuse _ _).bind fun _ _ => ?_
  refine (inVocabulary_refuse _ _).bind fun _ _ => ?_
  exact inVocabulary_refuse _ _

end Validator

/-! ## Seeds -/

theorem hexDigitValue_of_hexChar {n : Nat} (h : hexChar n = true) : (∃ v, hexDigitValue n = some v) ∧
    ¬(n = 32 ∨ 9 ≤ n ∧ n ≤ 13) := by
  have hrange : 48 ≤ n ∧ n ≤ 57 ∨ 65 ≤ n ∧ n ≤ 70 ∨ 97 ≤ n ∧ n ≤ 102 := by
    simpa [hexChar, oneOf, range, Char.toNat] using h
  refine ⟨?_, by omega⟩
  unfold hexDigitValue
  split_ifs
  · exact ⟨_, rfl⟩
  · exact ⟨_, rfl⟩
  · exact ⟨_, rfl⟩
  · omega

/-- Pairs of digits are bytes. -/
theorem fromHex_of_hexChar : ∀ (n : Nat) {s : List Nat}, s.length = 2 * n → s.all hexChar = true →
    ∃ b, fromHex s = some b ∧ b.length = n
  | 0, s, hlen, _ => ⟨[], by rw [List.length_eq_zero_iff.mp hlen, fromHex], rfl⟩
  | n + 1, [], hlen, _ => by simp at hlen
  | n + 1, [_], hlen, _ => by simp at hlen; omega
  | n + 1, a :: c :: s, hlen, h => by
    rw [List.all_cons, List.all_cons, Bool.and_eq_true, Bool.and_eq_true] at h
    obtain ⟨⟨high, hhigh⟩, hblank⟩ := hexDigitValue_of_hexChar h.1
    obtain ⟨⟨low, hlow⟩, -⟩ := hexDigitValue_of_hexChar h.2.1
    obtain ⟨b, hb, hbn⟩ := fromHex_of_hexChar n (s := s) (by simp at hlen; omega) h.2.2
    refine ⟨UInt8.ofNat (16 * high + low) :: b, ?_, by rw [List.length_cons, hbn]⟩
    rw [fromHex.eq_def]
    dsimp only
    rw [if_neg hblank, hhigh, hlow, hb]
    rfl

section Data

variable {x : Interpreter F} {data : Dict F}

theorem get_eq_get {k : String} {d d' v : Loaded F} (h : data.get k d = v) (hne : v ≠ d) : data.get k d' = v := by
  unfold Dict.get at h ⊢
  cases hfind : data.find? fun m => m.1 == codes k with
  | none =>
    rw [hfind] at h
    exact absurd h.symm hne
  | some m =>
    rw [hfind] at h
    exact h

theorem asStr?_eq_some {v : Loaded F} {s : List CodePoint} : v.asStr? = some s ↔ v = .str s := by
  cases v <;> simp [Loaded.asStr?]

/-- **A checked seed is decoded to 32 bytes.** -/
theorem decodeSeed_of_valid (h : Valid x data) : ∃ agent : Agent, decodeSeed data = .ok agent.seed := by
  obtain ⟨s, hs, hlen, hhex⟩ := h.seed
  have hvalue := asStr?_eq_some.mp hs
  have hget : data.get "seed_hex" .none = .str s := by
    refine get_eq_get hvalue fun heq => ?_
    rw [Loaded.str.injEq] at heq
    rw [heq] at hlen
    cases hlen
  simp only [seedHexRe, repeated, Bool.and_eq_true] at hhex
  obtain ⟨b, hb, hb32⟩ := fromHex_of_hexChar 32 (by rw [List.length_map, hlen]) hhex.2
  refine ⟨⟨b, hb32⟩, ?_⟩
  rw [decodeSeed, hget]
  exact demand_ok.mpr hb

end Data

/-! ## The loaders -/

/-- Ed25519 gives every seed of 32 bytes a public key of 32 bytes. -/
def Signer.Total (k : Signer) : Prop := ∀ seed : Bytes, seed.length = 32 → ∃ pub, k.publicKey seed = some pub ∧
  pub.length = 32

section Loaders

variable {x : Interpreter F} {files : String → Except OpenFailure Bytes} {env : Option String} {k : Signer}

theorem aid_of_total (hk : Signer.Total k) (agent : Agent) : ∃ pub, pub.length = 32 ∧
    agent.aid k = .ok (aidFromPubkey pub) := by
  obtain ⟨pub, hpub, hlen⟩ := hk agent.seed agent.length_seed
  refine ⟨pub, hlen, ?_⟩
  rw [Agent.aid, deriveAid, hpub]
  rfl

theorem ofSeed_seed (agent : Agent) : Agent.ofSeed agent.seed = .ok agent := dif_pos agent.length_seed

/-- The fields that both loaders return. -/
def identityOf (x : Interpreter F) (data : Dict F) (agent : Agent) : LoadedIdentity where
  agent
  agentId := strOf x (data.get "agent_id" .none)
  tenant := strOf x (data.get "tenant" .none)
  endpoint := strOf x (data.get "endpoint" .none)

theorem loadIdentityFile_eq {agent : Agent} {aid : String} (hdata : readAndValidate x files env path = .ok data)
    (hseed : decodeSeed data = .ok agent.seed) (haid : agent.aid k = .ok aid) : loadIdentityFile x files env k path =
      if data.hasKey "aid" = true ∧ (data.get "aid" .none).asStr? ≠ some (codes aid) then
        .error (.identityFile "recorded aid does not match seed_hex")
      else .ok (identityOf x data agent) := by
  rw [loadIdentityFile, hdata]
  show (decodeSeed data >>= _) = _
  rw [hseed]
  show (Agent.ofSeed agent.seed >>= _) = _
  rw [ofSeed_seed]
  show (if data.hasKey "aid" = true then _ else _) = _
  by_cases hkey : data.hasKey "aid" = true
  · rw [if_pos hkey, haid]
    show (refuse _ _ >>= _) = _
    by_cases hne : (data.get "aid" .none).asStr? ≠ some (codes aid)
    · rw [refuse_of hne, if_pos ⟨hkey, hne⟩]
      rfl
    · rw [refuse_of_not hne, if_neg fun h => hne h.2]
      rfl
  · rw [if_neg hkey, if_neg fun h => hkey h.1]
    rfl

theorem loadIdentityFacts_eq {agent : Agent} {aid : String} (hdata : readAndValidate x files env path = .ok data)
    (hseed : decodeSeed data = .ok agent.seed) (haid : agent.aid k = .ok aid) :
    loadIdentityFacts x files env k path = .ok
      { agentId := strOf x (data.get "agent_id" .none)
        tenant := strOf x (data.get "tenant" .none)
        endpoint := strOf x (data.get "endpoint" .none)
        aid := if data.hasKey "aid" then strOf x (data.get "aid" .none) else codes aid } := by
  rw [loadIdentityFacts, hdata]
  show (if data.hasKey "aid" = true then _ else _ : Except IdentityRaised IdentityFacts) = _
  by_cases hkey : data.hasKey "aid" = true
  · simp only [if_pos hkey]
    rfl
  · simp only [if_neg hkey, hseed]
    show ((agent.aid k >>= _) >>= _) = _
    rw [haid]
    rfl

end Loaders

/-! ## Legible contents -/

section Legible

variable (x : Interpreter F)

/-- The bytes are UTF-8, and `json.load` stops neither at an integer that is too long to be converted nor where arrays and
objects are nested too deep. -/
def Legible (content : Bytes) : Prop :=
  ∃ text, ofUtf8? content = some text ∧ jsonLoad x.toLiterals (universalNewlines text.toList) ≠ .error .literal ∧
    jsonLoad x.toLiterals (universalNewlines text.toList) ≠ .error .nesting

variable {x} {files : String → Except OpenFailure Bytes} {env : Option String} {k : Signer}

variable {content : Bytes}

theorem inVocabulary_readJson_iff {resolved : String} (hfile : files resolved = .ok content) :
    InVocabulary (readJson x files resolved) ↔ Legible x content := by
  rw [readJson, hfile]
  dsimp only
  cases htext : ofUtf8? content with
  | none =>
    refine ⟨fun h => ?_, fun ⟨text, ht, _⟩ => ?_⟩
    · obtain ⟨m, hm⟩ := h _ rfl
      cases hm
    · rw [htext] at ht
      cases ht
  | some text =>
    dsimp only
    have hlegible : Legible x content ↔ jsonLoad x.toLiterals (universalNewlines text.toList) ≠ .error .literal ∧
        jsonLoad x.toLiterals (universalNewlines text.toList) ≠ .error .nesting := by
      simp [Legible, htext]
    rw [hlegible]
    cases jsonLoad x.toLiterals (universalNewlines text.toList) with
    | ok data => exact ⟨fun _ => ⟨nofun, nofun⟩, fun _ => inVocabulary_ok data⟩
    | error e =>
      cases e with
      | malformed => exact ⟨fun _ => ⟨nofun, nofun⟩, fun _ => inVocabulary_identityFile _⟩
      | literal | nesting =>
        refine ⟨fun h => ?_, fun h => ?_⟩
        · obtain ⟨m, hm⟩ := h _ rfl
          cases hm
        · simp at h

theorem readAndValidate_eq (hpath : resolvedPath env path ≠ "") : readAndValidate x files env path = (do
      let data ← readJson x files (resolvedPath env path)
      match data with
      | .dict members =>
        validate x members
        return members
      | _ => .error (.identityFile s!"bootstrap file is not a JSON object: {resolvedPath env path}")) := by
  rw [readAndValidate, refuse_of_not hpath]
  rfl

/-- The validator adds nothing to the vocabulary. -/
theorem inVocabulary_readAndValidate_iff (hpath : resolvedPath env path ≠ "")
    (hfile : files (resolvedPath env path) = .ok content) :
    InVocabulary (readAndValidate x files env path) ↔ Legible x content := by
  rw [readAndValidate_eq hpath, ← inVocabulary_readJson_iff hfile]
  refine ⟨InVocabulary.of_bind, fun h => h.bind fun data _ => ?_⟩
  cases data with
  | dict members => exact (inVocabulary_validate x members).bind fun _ _ => inVocabulary_ok members
  | none | bool | int | float | str | list => exact inVocabulary_identityFile _

theorem valid_of_readAndValidate (h : readAndValidate x files env path = .ok data) : Valid x data := by
  rw [readAndValidate] at h
  obtain ⟨_, -, h⟩ := bind_ok.mp h
  obtain ⟨loaded, -, h⟩ := bind_ok.mp h
  cases loaded with
  | dict members =>
    obtain ⟨_, hvalid, h⟩ := bind_ok.mp h
    rw [← pure_ok.mp h]
    exact (validate_ok x).mp hvalid
  | none | bool | int | float | str | list => cases h

/-- Behind the validator the loaders go on without a surprise. -/
theorem agent_of_readAndValidate (hk : Signer.Total k) (h : readAndValidate x files env path = .ok data) :
    ∃ (agent : Agent) (aid : String), decodeSeed data = .ok agent.seed ∧ agent.aid k = .ok aid := by
  obtain ⟨agent, hseed⟩ := decodeSeed_of_valid (valid_of_readAndValidate h)
  obtain ⟨pub, -, haid⟩ := aid_of_total hk agent
  exact ⟨agent, _, hseed, haid⟩

theorem inVocabulary_loadIdentityFile_iff (hk : Signer.Total k) (hpath : resolvedPath env path ≠ "")
    (hfile : files (resolvedPath env path) = .ok content) :
    InVocabulary (loadIdentityFile x files env k path) ↔ Legible x content := by
  rw [← inVocabulary_readAndValidate_iff hpath hfile]
  refine ⟨InVocabulary.of_bind, fun h => h.bind fun data hdata => ?_⟩
  obtain ⟨agent, aid, hseed, haid⟩ := agent_of_readAndValidate hk hdata
  have hload := loadIdentityFile_eq hdata hseed haid
  rw [loadIdentityFile, hdata] at hload
  refine hload ▸ ?_
  split
  · exact inVocabulary_identityFile _
  · exact inVocabulary_ok _

theorem inVocabulary_loadIdentityFacts_iff (hk : Signer.Total k) (hpath : resolvedPath env path ≠ "")
    (hfile : files (resolvedPath env path) = .ok content) :
    InVocabulary (loadIdentityFacts x files env k path) ↔ Legible x content := by
  rw [← inVocabulary_readAndValidate_iff hpath hfile]
  refine ⟨InVocabulary.of_bind, fun h => h.bind fun data hdata => ?_⟩
  obtain ⟨agent, aid, hseed, haid⟩ := agent_of_readAndValidate hk hdata
  have hload := loadIdentityFacts_eq hdata hseed haid
  rw [loadIdentityFacts, hdata] at hload
  exact (congrArg InVocabulary hload).mpr (inVocabulary_ok _)

/-- The file records an AID in the right shape that is not the one of its seed. -/
def Misrecorded (k : Signer) (data : Dict F) : Prop :=
  ∃ a seed aid, data.hasKey "aid" = true ∧ (data.get "aid" .none).asStr? = some a ∧ aidRe (a.map Fin.val) = true ∧
    decodeSeed data = .ok seed ∧ deriveAid k seed = .ok aid ∧ a ≠ codes aid

/-- **The loaders accept the same files**, but for the AID. -/
theorem accepted_iff (hk : Signer.Total k) (path : Option String) :
    (∃ i, loadIdentityFile x files env k path = .ok i) ↔
      (∃ f, loadIdentityFacts x files env k path = .ok f) ∧
      ¬∃ data, readAndValidate x files env path = .ok data ∧ Misrecorded k data := by
  cases hdata : readAndValidate x files env path with
  | error e =>
    rw [loadIdentityFile, loadIdentityFacts, hdata]
    constructor
    · rintro ⟨_, h⟩
      cases h
    · rintro ⟨⟨_, h⟩, -⟩
      cases h
  | ok data =>
    obtain ⟨agent, aid, hseed, haid⟩ := agent_of_readAndValidate hk hdata
    have hvalid := valid_of_readAndValidate hdata
    rw [loadIdentityFile_eq hdata hseed haid, loadIdentityFacts_eq hdata hseed haid]
    constructor
    · rintro ⟨i, hi⟩
      refine ⟨⟨_, rfl⟩, ?_⟩
      rintro ⟨_, heq, a, seed, aid', hkey, ha, -, hseed', haid', hne⟩
      obtain rfl := Except.ok.inj heq
      rw [hseed, Except.ok.injEq] at hseed'
      subst hseed'
      rw [← Agent.aid, haid, Except.ok.injEq] at haid'
      subst haid'
      rw [if_pos ⟨hkey, by rw [ha]; simpa using hne⟩] at hi
      cases hi
    · rintro ⟨-, hnot⟩
      by_cases hwrong : data.hasKey "aid" = true ∧ (data.get "aid" .none).asStr? ≠ some (codes aid)
      · obtain ⟨a, ha, hshape⟩ := hvalid.aid hwrong.1
        refine absurd ⟨data, rfl, a, agent.seed, aid, hwrong.1, ha, hshape, hseed, haid, fun h => ?_⟩ hnot
        exact hwrong.2 (by rw [ha, h])
      · exact ⟨_, if_neg hwrong⟩

end Legible

end SeamSdk.Python
