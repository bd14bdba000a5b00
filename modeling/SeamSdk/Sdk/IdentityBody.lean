import SeamSdk.Sdk.IdentityFile
import SeamSdk.Sdk.JcsNumber

/-!
# The body of a bootstrap file, read as JSON

`json.dumps` escapes a code point so that its units are found again (`chars_escapeAscii`): printable ASCII as it is,
anything else as one or two `\uXXXX`. The text of a file is ASCII without a carriage return, and is derived in the JSON
grammar with a line break and two blanks before each member (`element_dumped`). So it is loaded as what was written, up
to surrogates that have become pairs (`readJson_body`).
-/

namespace SeamSdk.Python

open ByteCodec Checked JsonGrammar Utf16 List

/-! ## Strings -/

theorem hexValue_hexDigit (n : Nat) : hexValue (unit (hexDigit n)) = some (n % 16) := by
  have h : ∀ m < 16, hexValue (unit (Nat.digitChar m)) = some m := by decide
  exact h (n % 16) (Nat.mod_lt n (by decide))

theorem chars_unicodeEscape {n : Nat} (h : n < 0x10000) : Chars ((unicodeEscape n).map unit) [UInt16.ofNat n] := by
  refine .hex ?_ .nil
  rw [hex4, hexValue_hexDigit, hexValue_hexDigit, hexValue_hexDigit, hexValue_hexDigit]
  have hdigits : 4096 * (n / 4096 % 16) + 256 * (n / 256 % 16) + 16 * (n / 16 % 16) + n % 16 = n := by omega
  exact congrArg (fun m => some (UInt16.ofNat m)) hdigits

/-- Printable ASCII. -/
def Printable (t : List Char) : Prop := ∀ c ∈ t, 0x20 ≤ c.toNat ∧ c.toNat < 0x7F

theorem printable_hexDigit (n : Nat) : 0x20 ≤ (hexDigit n).toNat ∧ (hexDigit n).toNat < 0x7F := by
  have h : ∀ m < 16, 0x20 ≤ (Nat.digitChar m).toNat ∧ (Nat.digitChar m).toNat < 0x7F := by decide
  exact h (n % 16) (Nat.mod_lt n (by decide))

theorem printable_unicodeEscape (n : Nat) : Printable (unicodeEscape n) := by
  simp [Printable, unicodeEscape, printable_hexDigit]

/-- **A code point is escaped to a text for its units**, in printable ASCII. -/
theorem chars_escapeAscii (p : CodePoint) :
    Chars ((escapeAscii p).map unit) (CodePoint.units p) ∧ Printable (escapeAscii p) := by
  have hp := p.isLt
  have hshort : ∀ {e : Char} {n : Nat}, escaped (unit e) = some (UInt16.ofNat n) → 0x20 ≤ e.toNat ∧ e.toNat < 0x7F →
      p.val = n → n < 128 → Chars (['\\', e].map unit) (CodePoint.units p) ∧ Printable ['\\', e] := by
    intro e n he hprint hn hlt
    rw [CodePoint.units_of_lt (by omega), hn]
    exact ⟨.short he .nil, by simp [Printable, hprint]⟩
  unfold escapeAscii
  split
  next h => exact hshort (e := 'b') rfl (by decide) h (by decide)
  next h => exact hshort (e := 't') rfl (by decide) h (by decide)
  next h => exact hshort (e := 'n') rfl (by decide) h (by decide)
  next h => exact hshort (e := 'f') rfl (by decide) h (by decide)
  next h => exact hshort (e := 'r') rfl (by decide) h (by decide)
  next h => exact hshort (e := '"') rfl (by decide) h (by decide)
  next h => exact hshort (e := '\\') rfl (by decide) h (by decide)
  next h1 h2 h3 h4 h5 hquote hslash =>
    split_ifs with hprint hplane
    · have hchar : (Char.ofNat p.val).toNat = p.val := toNat_ofNat_of_valid (.inl (by omega))
      rw [CodePoint.units_of_lt (by omega)]
      refine ⟨?_, by simp [Printable, hchar]; omega⟩
      have hunit : unit (Char.ofNat p.val) = UInt16.ofNat p.val := by rw [unit, hchar]
      rw [map_singleton, hunit]
      have hnat := CodePoint.toNat_unit (p := p) (by omega)
      refine chars_plain (forall_mem_singleton.mpr ⟨UInt16.le_iff_toNat_le.mpr ?_, ?_, ?_⟩)
      · rw [hnat]
        exact hprint.1
      · intro h
        exact hquote (hnat.symm.trans (congrArg UInt16.toNat h))
      · intro h
        exact hslash (hnat.symm.trans (congrArg UInt16.toNat h))
    · rw [CodePoint.units_of_lt hplane]
      exact ⟨chars_unicodeEscape hplane, printable_unicodeEscape _⟩
    · rw [CodePoint.units, if_neg hplane, map_append]
      refine ⟨(chars_unicodeEscape (by omega)).append (chars_unicodeEscape (by omega)), fun c hc => ?_⟩
      rcases mem_append.mp hc with hc | hc
      · exact printable_unicodeEscape _ c hc
      · exact printable_unicodeEscape _ c hc

theorem chars_dumps (s : List CodePoint) : Chars ((s.flatMap escapeAscii).map unit) (ofCodePoints s) := by
  induction s with
  | nil => exact .nil
  | cons p s ih =>
    rw [flatMap_cons, map_append]
    exact (chars_escapeAscii p).1.append ih

theorem printable_dumpsString (s : List CodePoint) : Printable (dumpsString s) := by
  intro c hc
  rw [dumpsString, cons_append, mem_cons, mem_append, mem_singleton] at hc
  rcases hc with rfl | hc | rfl
  · decide
  · obtain ⟨p, -, hp⟩ := mem_flatMap.mp hc
    exact (chars_escapeAscii p).2 c hp
  · decide

theorem value_dumpsString (s : List CodePoint) :
    JsonGrammar.Value (.str (ofCodePoints s)) ((dumpsString s).map unit) := by
  rw [dumpsString, cons_append, map_cons, map_append]
  exact .str (chars_dumps s)

/-! ## Members -/

theorem blanks_ascii {s : String} (h : (ascii s).all isBlank = true) : Blanks (ascii s) := all_eq_true.mp h

variable {m : String × List Char} {t : List Char}

/-- A member on its line, with blanks behind it. -/
theorem member_dumped {d : Doc} (hd : JsonGrammar.Value d (m.2.map unit)) {v : List UInt16} (hv : Blanks v) :
    Member (ofCodePoints (codes m.1)) d ((dumpsMember m).map unit ++ v) := by
  have h := Member.mk (blanks_ascii (s := "\n  ") (by decide)) (chars_dumps (codes m.1)) blanks_nil
    (Element.mk (blanks_ascii (s := " ") (by decide)) hd hv)
  have htext : (dumpsMember m).map unit ++ v = ascii "\n  " ++ unit '"' :: (((codes m.1).flatMap escapeAscii).map unit ++
      unit '"' :: ([] ++ unit ':' :: (ascii " " ++ (m.2.map unit ++ v)))) := by
    simp [dumpsMember, dumpsString, ascii]
  rw [htext]
  exact h

/-- The documents of members that were dumped. -/
def Dumped (m : String × List Char) (d : List UInt16 × Doc) : Prop :=
  d.1 = ofCodePoints (codes m.1) ∧ JsonGrammar.Value d.2 (m.2.map unit)

theorem members_dumped : ∀ {m : String × List Char} {d : List UInt16 × Doc} {ms : List (String × List Char)}
    {ds : List (List UInt16 × Doc)}, Dumped m d → List.Forall₂ Dumped ms ds →
    Members (d :: ds) ((List.intercalate [','] ((m :: ms).map dumpsMember)).map unit ++ ascii "\n")
  | m, (_, d), _, _, ⟨rfl, hd⟩, .nil => by
    rw [map_singleton, intercalate_singleton]
    exact .one (member_dumped hd (blanks_ascii (by decide)))
  | m, (_, d), _, _, ⟨rfl, hd⟩, .cons (a := m') (b := d') hm' hs => by
    have hfirst := member_dumped hd blanks_nil
    rw [append_nil] at hfirst
    have hrest := members_dumped hm' hs
    rw [map_cons, map_cons, intercalate_cons_cons, map_append, map_append, append_assoc,
      append_assoc]
    exact .cons hfirst hrest

/-- **The text of a file is derived in the grammar.** -/
theorem element_dumped {d : List UInt16 × Doc} {ms : List (String × List Char)} {ds : List (List UInt16 × Doc)}
    (hm : Dumped m d) (hs : List.Forall₂ Dumped ms ds) :
    Element (.obj (d :: ds)) ((dumpsIndented (m :: ms) ++ ['\n']).map unit) := by
  have h := Element.mk blanks_nil (JsonGrammar.Value.obj (members_dumped hm hs)) (blanks_ascii (s := "\n") (by decide))
  have htext : (dumpsIndented (m :: ms) ++ ['\n']).map unit = [] ++ (unit '{' ::
      (((List.intercalate [','] ((m :: ms).map dumpsMember)).map unit ++ ascii "\n") ++ [unit '}']) ++ ascii "\n") := by
    simp [dumpsIndented, ascii]
  rw [htext]
  exact h

/-! ## Lines -/

/-- Neither beyond ASCII nor a carriage return. -/
def Plain (t : List Char) : Prop := ∀ c ∈ t, c.toNat < 128 ∧ c ≠ '\r'

theorem plain_of_all (h : t.all (fun c => c.toNat < 128 && c != '\r') = true) : Plain t := by
  intro c hc
  simpa using all_eq_true.mp h c hc

theorem Printable.plain (h : Printable t) : Plain t := by
  intro c hc
  obtain ⟨hlow, hhigh⟩ := h c hc
  refine ⟨by omega, ?_⟩
  rintro rfl
  exact absurd hlow (by decide)

theorem Plain.append {u : List Char} (ht : Plain t) (hu : Plain u) : Plain (t ++ u) :=
  fun c hc => (mem_append.mp hc).elim (ht c) (hu c)

theorem Plain.intercalate {sep : List Char} (hsep : Plain sep) : ∀ {ts : List (List Char)}, (∀ t ∈ ts, Plain t) →
    Plain (List.intercalate sep ts)
  | [], _ => by simp [Plain]
  | [t], h => by
    rw [intercalate_singleton]
    exact h t mem_cons_self
  | t :: u :: ts, h => by
    rw [intercalate_cons_cons]
    exact ((h t mem_cons_self).append hsep).append
      (Plain.intercalate hsep fun v hv => h v (mem_cons_of_mem _ hv))

theorem plain_dumpsMember (h : Printable m.2) : Plain (dumpsMember m) := by
  refine Plain.append (Plain.append (Plain.append ?_ (printable_dumpsString _).plain) ?_) h.plain
  · exact plain_of_all (by decide)
  · exact plain_of_all (by decide)

theorem plain_dumped {ms : List (String × List Char)} (h : ∀ m ∈ ms, Printable m.2) :
    Plain (dumpsIndented ms ++ ['\n']) := by
  have hmembers : Plain (List.intercalate [','] (ms.map dumpsMember)) := by
    refine Plain.intercalate (plain_of_all (by decide)) fun t ht => ?_
    obtain ⟨m, hm, rfl⟩ := mem_map.mp ht
    exact plain_dumpsMember (h m hm)
  have hopen : Plain ['{'] := plain_of_all (by decide)
  have hclose : Plain ['\n', '}'] := plain_of_all (by decide)
  exact ((hopen.append hmembers).append hclose).append (plain_of_all (by decide))

/-- Without a carriage return a text is read as it is. -/
theorem universalNewlines_plain : ∀ {t : List Char}, Plain t → universalNewlines t = t
  | [], _ => rfl
  | c :: t, h => by
    have hc := (h c mem_cons_self).2
    rw [universalNewlines]
    · rw [universalNewlines_plain fun d hd => h d (mem_cons_of_mem _ hd)]
    · exact fun _ hcr => absurd hcr hc
    · exact hc

/-! ## The document of a body -/

/-- A limit on the digits of an integer is one that the interpreter lets be set, and an object can be read at all. -/
def Literals.Admissible {F : Type} (L : Literals F) : Prop :=
  (∀ n ∈ L.maxStrDigits, 640 ≤ n) ∧ ∀ n ∈ L.maxNesting, 0 < n

/-- A string is given back with its surrogates paired. -/
def reread (s : List CodePoint) : List CodePoint := codePoints (ofCodePoints s)

theorem codePoints_codes (s : String) : codePoints (ofCodePoints (codes s)) = codes s := by
  rw [codes, ofCodePoints_map_ofChar, codePoints_encode]

theorem reread_ne_nil {s : List CodePoint} (h : s ≠ []) : reread s ≠ [] :=
  fun hnil => h (ofCodePoints_eq_nil.mp (codePoints_eq_nil hnil))

section Body

variable {F : Type} (agent : Agent) (aid : String) (agentId tenant endpoint : List CodePoint)

/-- The documents of the members of a body. -/
def bodyDocs : List (List UInt16 × Doc) :=
  [(ofCodePoints (codes "version"), .num (ascii schemaVersion)),
    (ofCodePoints (codes "seed_hex"), .str (ofCodePoints (codes (hexText agent.seed)))),
    (ofCodePoints (codes "agent_id"), .str (ofCodePoints agentId)),
    (ofCodePoints (codes "tenant"), .str (ofCodePoints tenant)),
    (ofCodePoints (codes "endpoint"), .str (ofCodePoints endpoint)),
    (ofCodePoints (codes "aid"), .str (ofCodePoints (codes aid)))]

/-- What they are loaded as. -/
def bodyDict : Dict F :=
  [(codes "version", .int 1), (codes "seed_hex", .str (codes (hexText agent.seed))),
    (codes "agent_id", .str (reread agentId)), (codes "tenant", .str (reread tenant)),
    (codes "endpoint", .str (reread endpoint)), (codes "aid", .str (codes aid))]

theorem number_schemaVersion : Number (ascii schemaVersion) := by
  have hdigits : Digits (ascii schemaVersion) := ⟨by decide, all_eq_true.mp (by decide)⟩
  exact ⟨[], ascii schemaVersion, [], [], .inl rfl, .inr ⟨hdigits, by decide⟩, .inl rfl, .inl rfl, by simp⟩

theorem dumped_identityMembers : List.Forall₂ Dumped (identityMembers agent aid agentId tenant endpoint)
    (bodyDocs agent aid agentId tenant endpoint) :=
  .cons ⟨rfl, .num number_schemaVersion⟩ (.cons ⟨rfl, value_dumpsString _⟩ (.cons ⟨rfl, value_dumpsString _⟩
    (.cons ⟨rfl, value_dumpsString _⟩ (.cons ⟨rfl, value_dumpsString _⟩ (.cons ⟨rfl, value_dumpsString _⟩ .nil)))))

theorem printable_identityMembers : ∀ m ∈ identityMembers agent aid agentId tenant endpoint, Printable m.2 := by
  have hall : schemaVersion.toList.all (fun c => 0x20 ≤ c.toNat && c.toNat < 0x7F) = true := by decide
  have hversion : Printable schemaVersion.toList := fun c hc => by simpa using all_eq_true.mp hall c hc
  simp only [identityMembers, forall_mem_cons, hversion, printable_dumpsString, true_and]
  exact fun _ h => nomatch h

theorem codes_injective : Function.Injective codes :=
  fun _ _ h => String.toList_injective (map_ofChar_injective h)

/-- The version is loaded as an integer. -/
theorem parseLiteral_schemaVersion (L : Literals F) : parseLiteral L (ascii schemaVersion) = .int 1 := by
  have htext : schemaVersion.toList = Decimal.intText 1 := by decide
  have hvalue : literalValue (ascii schemaVersion) = 1 := by
    rw [ascii, htext]
    exact literalValue_of_literal (Decimal.literal_intText 1)
  rw [parseLiteral_number L number_schemaVersion, if_pos (by decide), hvalue]
  rfl

theorem fits_schemaVersion {L : Literals F} (hL : L.Admissible) : (dialect L).fits (ascii schemaVersion) = true := by
  have hdigits : ((ascii schemaVersion).filter isDigit).length = 1 := by decide
  unfold dialect
  dsimp only
  cases hmax : L.maxStrDigits with
  | none => rfl
  | some n =>
    have := hL.1 n hmax
    simp only [hdigits, Bool.or_eq_true, decide_eq_true_eq]
    exact .inr (by omega)

theorem ofDoc_bodyDocs (L : Literals F) : ofDoc L (.obj (bodyDocs agent aid agentId tenant endpoint)) =
    .dict (bodyDict agent aid agentId tenant endpoint) := by
  have hpairs : ofDocMembers L (bodyDocs agent aid agentId tenant endpoint) =
      bodyDict agent aid agentId tenant endpoint := by
    simp only [ofDocMembers_eq, bodyDocs, bodyDict, map_cons, map_nil, ofDoc, parseLiteral_schemaVersion]
    simp only [codePoints_codes, reread]
  have hnodup : ((bodyDict agent aid agentId tenant endpoint : Dict F).map Prod.fst).Nodup := by
    have hkeys : ["version", "seed_hex", "agent_id", "tenant", "endpoint", "aid"].Nodup := by decide
    exact List.Nodup.map (f := codes) codes_injective hkeys
  rw [ofDoc, hpairs, dictOf_nodup hnodup]

theorem element_identityMembers : Element (.obj (bodyDocs agent aid agentId tenant endpoint))
    ((dumpsIndented (identityMembers agent aid agentId tenant endpoint) ++ ['\n']).map unit) := by
  obtain ⟨hm, hs⟩ := forall₂_cons.mp (dumped_identityMembers agent aid agentId tenant endpoint)
  exact element_dumped hm hs

/-- A body is one object without another in it. -/
theorem takes_bodyDocs {L : Literals F} (hL : L.Admissible) :
    Takes (dialect L) 0 (.obj (bodyDocs agent aid agentId tenant endpoint)) := by
  have hnests : (dialect L).nests 0 = true := by
    unfold dialect
    dsimp only
    cases hmax : L.maxNesting with
    | none => rfl
    | some n => exact decide_eq_true (hL.2 n hmax)
  rw [Takes, takesMembers_iff]
  refine ⟨hnests, ?_⟩
  simp only [bodyDocs, forall_mem_cons, Takes, fits_schemaVersion hL, true_and]
  exact fun _ h => nomatch h

/-- The text of a body is loaded. -/
theorem jsonLoad_identityMembers {L : Literals F} (hL : L.Admissible) :
    jsonLoad L (dumpsIndented (identityMembers agent aid agentId tenant endpoint) ++ ['\n']) =
      .ok (.dict (bodyDict agent aid agentId tenant endpoint)) := by
  have hplain := plain_dumped (printable_identityMembers agent aid agentId tenant endpoint)
  have helement := element_identityMembers agent aid agentId tenant endpoint
  rw [← encode_ascii fun c hc => (hplain c hc).1] at helement
  rw [jsonLoad_derived L helement (takes_bodyDocs agent aid agentId tenant endpoint hL), ofDoc_bodyDocs]

theorem utf8_line (t : List Char) : utf8 (String.ofList t) ++ utf8 "\n" = utf8 (String.ofList (t ++ ['\n'])) := by
  rw [← utf8_append, String.ofList_append]

/-- **A body is loaded as what was written**, with surrogates paired. -/
theorem readJson_body {x : Interpreter F} (hx : x.toLiterals.Admissible) {k : Signer} {content : Bytes}
    (haid : agent.aid k = .ok aid) (hbody : identityFileBody k agent agentId tenant endpoint = .ok content)
    {files : String → Except OpenFailure Bytes} {resolved : String} (hfile : files resolved = .ok content) :
    readJson x files resolved = .ok (.dict (bodyDict agent aid agentId tenant endpoint)) := by
  obtain ⟨aid', haid', hbody⟩ := bind_ok.mp hbody
  obtain rfl := Except.ok.inj (haid.symm.trans haid')
  have hplain := plain_dumped (printable_identityMembers agent aid agentId tenant endpoint)
  have hload := jsonLoad_identityMembers agent aid agentId tenant endpoint hx
  rw [readJson, hfile]
  dsimp only
  rw [← pure_ok.mp hbody, utf8_line, ofUtf8?_utf8]
  dsimp only
  rw [String.toList_ofList, universalNewlines_plain hplain, hload]

end Body

end SeamSdk.Python
