import SeamSdk.Sdk.IdentityBody
import SeamSdk.Sdk.IdentityLoading

/-!
# A bootstrap file that was written is loaded

A body that `_identity_file_body` wrote passes the validator (`valid_bodyDict`): its seed has the digits of 32 bytes, and
the AID of a public key has the recorded shape (`aidRe_aidFromPubkey`). The loaders give back what was written, except
that a lead surrogate directly before a trail surrogate comes back as one code point (`loads_body`).
-/

namespace SeamSdk.Python

open ByteCodec Checked JsonGrammar Pattern Utf16 List

variable {F : Type}

/-! ## Members -/

theorem codes_beq (k k' : String) : (codes k == codes k') = decide (k = k') := by
  by_cases h : k = k'
  · rw [h, beq_self_eq_true, decide_eq_true rfl]
  · rw [decide_eq_false h, beq_eq_false_iff_ne]
    exact fun heq => h (codes_injective heq)

theorem Dict.get_cons (k k' : String) (v d : Loaded F) (data : Dict F) :
    Dict.get ((codes k, v) :: data) k' d = if k = k' then v else data.get k' d := by
  rw [Dict.get, List.find?_cons, codes_beq]
  by_cases h : k = k'
  · rw [decide_eq_true h, if_pos h]
    rfl
  · rw [decide_eq_false h, if_neg h]
    rfl

theorem Dict.hasKey_cons (k k' : String) (v : Loaded F) (data : Dict F) :
    Dict.hasKey ((codes k, v) :: data) k' = (decide (k = k') || data.hasKey k') := by
  rw [Dict.hasKey, any_cons, codes_beq]
  rfl

/-! ## The seed and the AID as texts -/

theorem map_val_codes (s : String) : (codes s).map Fin.val = s.toList.map Char.toNat := by
  rw [codes, map_map]
  rfl

/-- The codes of the digits of bytes. -/
theorem codes_hexText (b : Bytes) : (codes (hexText b)).map Fin.val =
    b.flatMap fun n => [(RustText.hexDigit (n.toNat / 16)).toNat, (RustText.hexDigit (n.toNat % 16)).toNat] := by
  rw [map_val_codes, hexText, RustText.hex, String.toList_ofList, map_flatMap]
  rfl

theorem length_hexText (b : Bytes) : (codes (hexText b)).length = 2 * b.length := by
  rw [← length_map (f := Fin.val), codes_hexText, length_flatMap]
  simp [Nat.mul_comm]

theorem seedHexRe_hexText {b : Bytes} (h : b.length = 32) : seedHexRe ((codes (hexText b)).map Fin.val) = true := by
  have hdigit : ∀ n < 16, hexChar (RustText.hexDigit n).toNat = true := by decide
  have hall : ((codes (hexText b)).map Fin.val).all hexChar = true := by
    rw [codes_hexText, all_flatMap, all_eq_true]
    intro n _
    have hn := n.toNat_lt
    simp only [all_cons, all_nil, Bool.and_true, Bool.and_eq_true]
    exact ⟨hdigit _ (by omega), hdigit _ (by omega)⟩
  rw [seedHexRe, repeated, hall, length_map, length_hexText, h]
  rfl

/-- **`bytes.fromhex` reads back `bytes.hex`.** -/
theorem fromHex_hexText (b : Bytes) : fromHex ((codes (hexText b)).map Fin.val) = some b := by
  have hdigit : ∀ n < 16, hexDigitValue (RustText.hexDigit n).toNat = some n ∧
      ¬((RustText.hexDigit n).toNat = 32 ∨ 9 ≤ (RustText.hexDigit n).toNat ∧ (RustText.hexDigit n).toNat ≤ 13) := by
    decide
  rw [codes_hexText]
  induction b with
  | nil => rw [flatMap_nil, fromHex]
  | cons n b ih =>
    have hn := n.toNat_lt
    obtain ⟨hhigh, hblank⟩ := hdigit (n.toNat / 16) (by omega)
    obtain ⟨hlow, -⟩ := hdigit (n.toNat % 16) (by omega)
    rw [flatMap_cons, cons_append, singleton_append, fromHex.eq_def]
    dsimp only
    rw [if_neg hblank, hhigh, hlow, ih]
    show some (UInt8.ofNat (16 * (n.toNat / 16) + n.toNat % 16) :: b) = some (n :: b)
    rw [Nat.div_add_mod, UInt8.ofNat_toNat]

theorem map_val_codes_append (s t : String) :
    (codes (s ++ t)).map Fin.val = s.toList.map Char.toNat ++ t.toList.map Char.toNat := by
  rw [map_val_codes, String.toList_append, map_append]

theorem toList_b64urlNoPad (b : Bytes) : (b64urlNoPad b).toList.map Char.toNat =
    (Base64.toSextets b).map fun n => (Base64.urlSafe.symbol n).toNat := by
  rw [b64urlNoPad, Base64.encodeUnpadded, String.toList_ofList, Base64.encodeChars, map_map]
  rfl

/-- **The AID of a public key has the recorded shape.** -/
theorem aidRe_aidFromPubkey {pub : Bytes} (h : pub.length = 32) :
    aidRe ((codes (aidFromPubkey pub)).map Fin.val) = true := by
  have hsymbol : ∀ n < 64, tokenChar (Base64.urlSafe.symbol n).toNat = true := by decide +kernel
  have hkey : ∀ m ∈ (Base64.toSextets pub).map fun n => (Base64.urlSafe.symbol n).toNat, tokenChar m = true := by
    intro m hm
    obtain ⟨n, hn, rfl⟩ := mem_map.mp hm
    exact hsymbol n (Base64.toSextets_lt hn)
  have hlength : ((Base64.toSextets pub).map fun n => (Base64.urlSafe.symbol n).toNat).length = 43 := by
    rw [length_map, Base64.length_toSextets, h]
  have hmatch := sequenceOf_replicate hkey
  rw [hlength] at hmatch
  have hall := sequenceOf_append (sequenceOf_chars "aid:pubkey:ed25519:".toList) hmatch
  rw [← toList_b64urlNoPad, ← map_val_codes_append] at hall
  exact hall

/-! ## Loading a body -/

section Body

variable {x : Interpreter F} {files : String → Except OpenFailure Bytes} {env : Option String} {k : Signer}
  {agent : Agent} {aid : String} {agentId tenant endpoint : List CodePoint}

theorem valid_bodyDict {pub : Bytes} (hpub : pub.length = 32) (hagentId : agentId ≠ []) (htenant : tenant ≠ [])
    (hendpoint : endpoint ≠ []) : Valid x (bodyDict agent (aidFromPubkey pub) agentId tenant endpoint) where
  version := by
    simp only [bodyDict, Dict.get_cons, if_pos]
    rfl
  seed := by
    refine ⟨codes (hexText agent.seed), ?_, ?_, seedHexRe_hexText agent.length_seed⟩
    · simp [bodyDict, Dict.get_cons, Loaded.asStr?]
    · rw [length_hexText, agent.length_seed]
  required := by
    simp [requiredFields, bodyDict, Dict.get_cons, Loaded.truthy, reread_ne_nil hagentId, reread_ne_nil htenant,
      reread_ne_nil hendpoint]
  aid := by
    intro _
    refine ⟨codes (aidFromPubkey pub), ?_, aidRe_aidFromPubkey hpub⟩
    simp [bodyDict, Dict.get_cons, Loaded.asStr?]

theorem decodeSeed_bodyDict : decodeSeed (bodyDict agent aid agentId tenant endpoint : Dict F) = .ok agent.seed := by
  have hget : (bodyDict agent aid agentId tenant endpoint : Dict F).get "seed_hex" .none =
      .str (codes (hexText agent.seed)) := by
    simp [bodyDict, Dict.get_cons]
  rw [decodeSeed, hget]
  exact demand_ok.mpr (fromHex_hexText agent.seed)

/-- **A body that was written is loaded**, by both loaders, with surrogates paired. -/
theorem loads_body (hx : x.toLiterals.Admissible) (hk : Signer.Total k) {path : Option String} {content : Bytes}
    (hpath : resolvedPath env path ≠ "") (hfile : files (resolvedPath env path) = .ok content)
    (hagentId : agentId ≠ []) (htenant : tenant ≠ []) (hendpoint : endpoint ≠ [])
    (hbody : identityFileBody k agent agentId tenant endpoint = .ok content) : ∃ aid, agent.aid k = .ok aid ∧
      loadIdentityFile x files env k path = .ok ⟨agent, reread agentId, reread tenant, reread endpoint⟩ ∧
      loadIdentityFacts x files env k path = .ok ⟨reread agentId, reread tenant, reread endpoint, codes aid⟩ := by
  obtain ⟨pub, hpub, haid⟩ := aid_of_total hk agent
  have hread := readJson_body agent _ agentId tenant endpoint hx haid hbody hfile
  have hdata : readAndValidate x files env path = .ok (bodyDict agent (aidFromPubkey pub) agentId tenant endpoint) := by
    rw [readAndValidate_eq hpath, hread]
    refine bind_ok.mpr ⟨_, rfl, bind_ok.mpr ⟨(), ?_, rfl⟩⟩
    exact (validate_ok x).mpr (valid_bodyDict hpub hagentId htenant hendpoint)
  refine ⟨_, haid, ?_, ?_⟩
  · rw [loadIdentityFile_eq hdata decodeSeed_bodyDict haid, if_neg]
    · simp [identityOf, bodyDict, Dict.get_cons, strOf]
    · simp [bodyDict, Dict.get_cons, Loaded.asStr?]
  · rw [loadIdentityFacts_eq hdata decodeSeed_bodyDict haid]
    simp [bodyDict, Dict.get_cons, Dict.hasKey_cons, strOf]

/-- Strings are given back exactly if none of them holds a pair. -/
theorem loaded_iff (hx : x.toLiterals.Admissible) (hk : Signer.Total k) {path : Option String} {content : Bytes}
    (hpath : resolvedPath env path ≠ "") (hfile : files (resolvedPath env path) = .ok content)
    (hagentId : agentId ≠ []) (htenant : tenant ≠ []) (hendpoint : endpoint ≠ [])
    (hbody : identityFileBody k agent agentId tenant endpoint = .ok content) : ∃ aid, agent.aid k = .ok aid ∧
      (loadIdentityFile x files env k path = .ok ⟨agent, agentId, tenant, endpoint⟩ ∧
        loadIdentityFacts x files env k path = .ok ⟨agentId, tenant, endpoint, codes aid⟩ ↔
      CodePoint.hasPair agentId = false ∧ CodePoint.hasPair tenant = false ∧ CodePoint.hasPair endpoint = false) := by
  obtain ⟨aid, haid, hloaded, hfacts⟩ := loads_body hx hk hpath hfile hagentId htenant hendpoint hbody
  refine ⟨aid, haid, ?_⟩
  rw [hloaded, hfacts, ← codePoints_ofCodePoints_iff, ← codePoints_ofCodePoints_iff, ← codePoints_ofCodePoints_iff]
  simp only [Except.ok.injEq, LoadedIdentity.mk.injEq, IdentityFacts.mk.injEq, true_and, and_true, and_self]
  rfl

end Body

/-- **Loading stays in its vocabulary for legible contents, and gives back what was written without pairs.** The loaders
accept the same contents, but for an AID in the right shape that is not the one of the seed. -/
theorem identity_loading_iff {x : Interpreter F} (hx : x.toLiterals.Admissible) {k : Signer} (hk : Signer.Total k)
    {files : String → Except OpenFailure Bytes} {env path : Option String} {content : Bytes}
    (hpath : resolvedPath env path ≠ "") (hfile : files (resolvedPath env path) = .ok content) :
    (InVocabulary (loadIdentityFile x files env k path) ∧ InVocabulary (loadIdentityFacts x files env k path) ↔
      Legible x content) ∧
    ((∃ i, loadIdentityFile x files env k path = .ok i) ↔
      (∃ f, loadIdentityFacts x files env k path = .ok f) ∧
      ¬∃ data, readAndValidate x files env path = .ok data ∧ Misrecorded k data) ∧
    ∀ agent agentId tenant endpoint, agentId ≠ [] → tenant ≠ [] → endpoint ≠ [] →
      identityFileBody k agent agentId tenant endpoint = .ok content →
      ∃ aid, agent.aid k = .ok aid ∧
        (loadIdentityFile x files env k path = .ok ⟨agent, agentId, tenant, endpoint⟩ ∧
          loadIdentityFacts x files env k path = .ok ⟨agentId, tenant, endpoint, codes aid⟩ ↔
        CodePoint.hasPair agentId = false ∧ CodePoint.hasPair tenant = false ∧ CodePoint.hasPair endpoint = false) := by
  refine ⟨?_, accepted_iff hk path, fun agent agentId tenant endpoint hagentId htenant hendpoint hbody => ?_⟩
  · rw [inVocabulary_loadIdentityFile_iff hk hpath hfile, inVocabulary_loadIdentityFacts_iff hk hpath hfile, and_self]
  · exact loaded_iff hx hk hpath hfile hagentId htenant hendpoint hbody

/-! ## An interpreter without doubles -/

def plainInterpreter : Interpreter Empty where
  shortest := nofun
  ofInt _ := none
  float _ := .nan
  maxStrDigits := some 4300
  maxNesting := some 990
  decodeMessage _ := "Expecting value: line 1 column 1 (char 0)"
  repr _ := "None"
  str _ := []

theorem admissible_plainInterpreter : plainInterpreter.toLiterals.Admissible := by
  constructor
  · rintro n ⟨⟩
    decide
  · rintro n ⟨⟩
    decide

theorem total_seedSigner : Signer.Total seedSigner := fun seed h => ⟨seed, rfl, h⟩

def zeroAgent : Agent := ⟨List.replicate 32 0, by decide⟩

/-- The body of a file for one agent is loaded by both loaders. -/
theorem identity_loading_sample : ∃ content aid,
    identityFileBody seedSigner zeroAgent (codes "a") (codes "t") (codes "e") = .ok content ∧
    loadIdentityFile plainInterpreter (fun _ => .ok content) none seedSigner (some "id.json") =
      .ok ⟨zeroAgent, codes "a", codes "t", codes "e"⟩ ∧
    loadIdentityFacts plainInterpreter (fun _ => .ok content) none seedSigner (some "id.json") =
      .ok ⟨codes "a", codes "t", codes "e", codes aid⟩ := by
  obtain ⟨content, hbody⟩ : ∃ content,
    identityFileBody seedSigner zeroAgent (codes "a") (codes "t") (codes "e") = .ok content := ⟨_, rfl⟩
  have h := @identity_loading_iff Empty plainInterpreter admissible_plainInterpreter seedSigner total_seedSigner
    (fun _ => .ok content) none (some "id.json") content (by decide) rfl
  obtain ⟨aid, -, hloaded⟩ := h.2.2 zeroAgent _ _ _ (by decide) (by decide) (by decide) hbody
  exact ⟨content, aid, hbody, hloaded.mpr (by decide)⟩

/-- A byte that no character begins with raises a `UnicodeDecodeError`, which is no `IdentityFileError`. -/
theorem invalid_byte_raises :
    loadIdentityFile plainInterpreter (fun _ => .ok [0xFF]) none seedSigner (some "id.json") =
      .error .unicodeDecodeError ∧
    loadIdentityFacts plainInterpreter (fun _ => .ok [0xFF]) none seedSigner (some "id.json") =
      .error .unicodeDecodeError :=
  ⟨rfl, rfl⟩

end SeamSdk.Python
