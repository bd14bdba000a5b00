import SeamSdk.Sdk.StatusRaises

/-!
# Which details both SDKs read alike

- `fields_toOption`: TypeScript's fields of a message are those Python's generator yields, if it does not raise;
- `statusDetails_eq`: from one trailer both read the same details, TypeScript without the host of the type;
- `decodeErrorInfo_toOption`: an `ErrorInfo` is read or refused alike;
- `retry_eq_iff`: a `RetryInfo` is not, where something malformed follows a delay that can be read
  (`MalformedBehindDelay`).
-/

namespace SeamSdk

open ByteCodec List

/-! ## Exceptions as absence -/

theorem toOption_bind {ε α β : Type} (x : Except ε α) (f : α → Except ε β) :
    (x >>= f).toOption = x.toOption.bind fun a => (f a).toOption := by
  cases x <;> rfl

theorem ok_bind {ε α β : Type} (a : α) (f : α → Except ε β) : (Except.ok a >>= f) = f a := rfl

/-- Two loops whose steps have the same values, seen through `π`. -/
theorem toOption_foldlM {ε ε' α σ τ : Type} {π : σ → τ} {f : τ → α → Except ε τ} {g : σ → α → Except ε' σ}
    (h : ∀ s a, (f (π s) a).toOption = (g s a).toOption.map π) (l : List α) (s : σ) :
    (l.foldlM f (π s)).toOption = (l.foldlM g s).toOption.map π := by
  induction l generalizing s with
  | nil => rfl
  | cons a l ih =>
    rw [foldlM_cons, foldlM_cons, toOption_bind, toOption_bind, h]
    cases (g s a).toOption with
    | none => rfl
    | some t => exact ih t

/-! ## Fields -/

theorem varint_toOption (buf : Bytes) (shift out : Nat) :
    (TypeScript.varint shift out buf).toOption = Python.varint shift out buf := by
  induction buf generalizing shift out with
  | nil => rfl
  | cons b buf ih =>
    rw [TypeScript.varint, Python.varint]
    split_ifs
    · rfl
    · rfl
    · exact ih ..

theorem nextField_toOption (buf : Bytes) : (TypeScript.nextField buf).toOption = Python.nextField buf := by
  unfold TypeScript.nextField Python.nextField
  rw [toOption_bind, varint_toOption]
  congr 1
  funext p
  dsimp only
  split_ifs
  · rw [toOption_bind, varint_toOption]
    rfl
  · rw [toOption_bind, varint_toOption]
    congr 1
    funext q
    split_ifs <;> rfl
  all_goals rfl

theorem fieldsGo_toOption (fuel : Nat) (buf : Bytes) :
    (TypeScript.fieldsGo fuel buf).toOption = (Generator.items Python.nextField fuel buf).collect := by
  induction fuel generalizing buf with
  | zero => cases buf <;> rfl
  | succ fuel ih =>
    cases buf with
    | nil => rfl
    | cons b buf =>
      rw [TypeScript.fieldsGo, Generator.items, toOption_bind, nextField_toOption]
      cases Python.nextField (b :: buf) with
      | none => rfl
      | some p =>
        show ((TypeScript.fieldsGo fuel p.2 >>= _ : Except String _)).toOption = _
        rw [toOption_bind, ih, Generator.collect]
        cases (Generator.items Python.nextField fuel p.2).collect <;> rfl

/-- **TypeScript has the fields that Python yields.** -/
theorem fields_toOption (buf : Bytes) : (TypeScript.fields buf).toOption = (Python.fields buf).collect :=
  fieldsGo_toOption buf.length buf

/-- A loop over all fields ends alike. -/
theorem loop_toOption_map {σ τ : Type} {π : σ → τ} {f : τ → WireField → Except String τ}
    {g : σ → WireField → Except Python.Raised σ} (h : ∀ s a, (f (π s) a).toOption = (g s a).toOption.map π)
    (buf : Bytes) (s : σ) : (TypeScript.fields buf >>= fun fs => fs.foldlM f (π s)).toOption =
      ((Python.fields buf).foldM .truncated g s).toOption.map π := by
  rw [toOption_bind, fields_toOption]
  cases hcollect : (Python.fields buf).collect with
  | some fs =>
    rw [Generator.foldM_of_collect hcollect]
    exact toOption_foldlM h fs s
  | none =>
    cases hloop : (Python.fields buf).foldM .truncated g s with
    | error e => rfl
    | ok t =>
      obtain ⟨fs, hfs, -⟩ := Generator.foldM_ok hloop
      cases hcollect.symm.trans hfs

theorem loop_toOption {σ : Type} {f : σ → WireField → Except String σ} {g : σ → WireField → Except Python.Raised σ}
    (h : ∀ s a, (f s a).toOption = (g s a).toOption) (buf : Bytes) (s : σ) :
    (TypeScript.fields buf >>= fun fs => fs.foldlM f s).toOption =
      ((Python.fields buf).foldM .truncated g s).toOption := by
  have hloop := loop_toOption_map (π := id) (fun s a => (h s a).trans Option.map_id'.symm) buf s
  rwa [Option.map_id] at hloop

/-! ## Messages -/

section Messages

variable (x : StatusPlatform)

theorem decode_toOption (b : Bytes) : (TypeScript.decode x b).toOption = (Python.decode x b).toOption := by
  unfold TypeScript.decode Python.decode
  cases x.decodeUtf8 b <;> rfl

theorem anyField_toOption (any : String × Bytes) (f : WireField) :
    (TypeScript.anyField x any f).toOption = (Python.anyField x any f).toOption := by
  unfold TypeScript.anyField Python.anyField
  split
  · rw [toOption_bind, toOption_bind, decode_toOption]
    rfl
  · rfl
  · rfl

theorem entryField_toOption (entry : String × String) (f : WireField) :
    (TypeScript.entryField x entry f).toOption = (Python.entryField x entry f).toOption := by
  unfold TypeScript.entryField Python.entryField
  split
  · rw [toOption_bind, toOption_bind, decode_toOption]
    rfl
  · rw [toOption_bind, toOption_bind, decode_toOption]
    rfl
  · rfl

theorem errorInfoField_toOption (info : ErrorInfo) (f : WireField) :
    (TypeScript.errorInfoField x info f).toOption = (Python.errorInfoField x info f).toOption := by
  unfold TypeScript.errorInfoField Python.errorInfoField
  split
  · rw [toOption_bind, toOption_bind, decode_toOption]
    rfl
  · rw [toOption_bind, toOption_bind, decode_toOption]
    rfl
  · rw [← bind_assoc, toOption_bind, loop_toOption (entryField_toOption x), toOption_bind]
    rfl
  · rfl

/-- **An `ErrorInfo` is read or refused alike.** -/
theorem decodeErrorInfo_toOption (value : Bytes) :
    (TypeScript.decodeErrorInfo x value).toOption = (Python.decodeErrorInfo x value).toOption :=
  loop_toOption (errorInfoField_toOption x) value _

theorem durationField_toOption (d : Int × Int) (f : WireField) :
    (TypeScript.durationField d f).toOption = (Python.durationField d f).toOption := by
  unfold TypeScript.durationField Python.durationField
  split <;> rfl

/-- The details of a `Status`, without the hosts of their types. -/
def bareTypes (details : List (String × Bytes)) : List (String × Bytes) :=
  details.map fun d => (TypeScript.afterSlash d.1, d.2)

theorem statusField_toOption (out : List (String × Bytes)) (f : WireField) :
    (TypeScript.statusField x (bareTypes out) f).toOption = (Python.statusField x out f).toOption.map bareTypes := by
  unfold TypeScript.statusField Python.statusField
  split
  · rw [← bind_assoc, toOption_bind, loop_toOption (anyField_toOption x), toOption_bind]
    cases ((Python.fields _).foldM .truncated (Python.anyField x) ("", [])).toOption with
    | none => rfl
    | some any =>
      show some _ = some _
      rw [bareTypes, bareTypes, map_append]
      rfl
  · rfl

/-- Python's trailer. -/
def pythonTrailer (raw : Bytes) : List (String × Python.MetadataValue) := [(statusDetailsKey, .bytes raw)]

/-- TypeScript's, in the base64 of the header. -/
def typescriptTrailer (raw : Bytes) : Option String := some (Base64.encodePadded Base64.standard raw)

theorem Python.statusDetails_trailer (raw : Bytes) : Python.statusDetails x (pythonTrailer raw) =
      .ok (((Python.fields raw).foldM .truncated (Python.statusField x) []).toOption.getD []) := by
  have hkey : statusDetailsKey.toLower = statusDetailsKey := by decide +kernel
  unfold Python.statusDetails pythonTrailer
  rw [foldl_cons, if_pos hkey]
  exact Python.handle_status x raw

/-- **From one trailer both read the same details.** -/
theorem statusDetails_eq {bufferFrom : String → Bytes}
    (hbase64 : ∀ b, bufferFrom (Base64.encodePadded Base64.standard b) = b) {raw : Bytes}
    {details : List (String × Bytes)} (h : Python.statusDetails x (pythonTrailer raw) = .ok details) :
    TypeScript.statusDetails x bufferFrom [] (typescriptTrailer raw) = bareTypes details := by
  rw [Python.statusDetails_trailer] at h
  obtain rfl := Except.ok.inj h
  unfold TypeScript.statusDetails typescriptTrailer
  dsimp only
  rw [map_nil, if_neg (not_not.mpr rfl), hbase64]
  by_cases hempty : Base64.encodePadded Base64.standard raw = ""
  · rw [if_pos hempty]
    have hraw : raw = [] := by
      have hdecode := Base64.decodePadded_encodePadded Base64.standard_lawful rfl raw
      rw [hempty] at hdecode
      exact (Option.some.inj hdecode).symm
    subst hraw
    rfl
  · rw [if_neg hempty]
    have hloop : ((TypeScript.fields raw).bind fun fs => fs.foldlM (TypeScript.statusField x) []).toOption = _ :=
      loop_toOption_map (statusField_toOption x) raw []
    cases hts : (TypeScript.fields raw).bind fun fs => fs.foldlM (TypeScript.statusField x) [] with
    | error e =>
      rw [hts] at hloop
      rw [Option.map_eq_none_iff.mp hloop.symm]
      rfl
    | ok out =>
      rw [hts] at hloop
      obtain ⟨out', hout', rfl⟩ := Option.map_eq_some_iff.mp hloop.symm
      rw [hout']
      rfl

/-! ## Types -/

/-- The type of a detail is named behind the host of Google's types. -/
def GoogleType (typeUrl : String) : Prop := ∃ name : String, '/' ∉ name.toList ∧ typeUrl = "type.googleapis.com/" ++ name

theorem afterSlash_googleType {name : String} (h : '/' ∉ name.toList) :
    TypeScript.afterSlash ("type.googleapis.com/" ++ name) = name := by
  have hhost : "type.googleapis.com/".toList.reverse = '/' :: "type.googleapis.com".toList.reverse := by decide
  have hname : ∀ c ∈ name.toList.reverse, (decide (c ≠ '/')) = true := by
    intro c hc
    rw [mem_reverse] at hc
    exact decide_eq_true fun heq => h (heq ▸ hc)
  unfold TypeScript.afterSlash
  rw [String.toList_append, reverse_append, takeWhile_append_of_pos hname, hhost,
    takeWhile_cons_of_neg (by decide), append_nil, reverse_reverse, String.ofList_toList]

theorem afterSlash_eq_iff {typeUrl name : String} (h : GoogleType typeUrl) (hname : '/' ∉ name.toList) :
    TypeScript.afterSlash typeUrl = name ↔ typeUrl = "type.googleapis.com/" ++ name := by
  obtain ⟨name', hname', rfl⟩ := h
  rw [afterSlash_googleType hname']
  constructor
  · rintro rfl
    rfl
  · intro heq
    have := congrArg TypeScript.afterSlash heq
    rwa [afterSlash_googleType hname', afterSlash_googleType hname] at this

theorem isErrorInfo_iff {typeUrl : String} (h : GoogleType typeUrl) :
    TypeScript.afterSlash typeUrl = TypeScript.errorInfoType ↔ typeUrl = Python.errorInfoType :=
  afterSlash_eq_iff h (by decide)

theorem isRetryInfo_iff {typeUrl : String} (h : GoogleType typeUrl) :
    TypeScript.afterSlash typeUrl = TypeScript.retryInfoType ↔ typeUrl = Python.retryInfoType :=
  afterSlash_eq_iff h (by decide)

/-- **The error is found in the same detail, or in none.** -/
theorem seamErrorInfo_eq : ∀ {details : List (String × Bytes)}, (∀ d ∈ details, GoogleType d.1) →
    Python.seamErrorInfo x details = .ok (TypeScript.seamErrorInfo x (bareTypes details))
  | [], _ => rfl
  | (typeUrl, value) :: details, h => by
    rw [forall_mem_cons] at h
    have ih := seamErrorInfo_eq h.2
    have htype := isErrorInfo_iff h.1
    have hcons : bareTypes ((typeUrl, value) :: details) =
        (TypeScript.afterSlash typeUrl, value) :: bareTypes details := rfl
    rw [hcons, TypeScript.seamErrorInfo, Python.seamErrorInfo_cons, ih]
    by_cases hurl : typeUrl = Python.errorInfoType
    · rw [if_neg (not_not.mpr hurl), if_neg (not_not.mpr (htype.mpr hurl)), ← decodeErrorInfo_toOption]
      cases TypeScript.decodeErrorInfo x value with
      | error e => rfl
      | ok info => exact (apply_ite Except.ok _ _ _).symm
    · rw [if_pos hurl, if_pos (mt htype.mp hurl)]

theorem find_retryInfo {details : List (String × Bytes)} (h : ∀ d ∈ details, GoogleType d.1) :
    ((bareTypes details).find? fun d => d.1 == TypeScript.retryInfoType).map Prod.snd =
      (details.find? fun d => d.1 == Python.retryInfoType).map Prod.snd := by
  induction details with
  | nil => rfl
  | cons d details ih =>
    rw [forall_mem_cons] at h
    have hcons : bareTypes (d :: details) = (TypeScript.afterSlash d.1, d.2) :: bareTypes details := rfl
    have htype := isRetryInfo_iff h.1
    rw [hcons]
    by_cases hurl : d.1 = Python.retryInfoType
    · rw [List.find?_cons_of_pos (by simpa using htype.mpr hurl), List.find?_cons_of_pos (by simpa using hurl)]
      rfl
    · rw [List.find?_cons_of_neg (by simpa using mt htype.mp hurl), List.find?_cons_of_neg (by simpa using hurl)]
      exact ih h.2

/-! ## Delays -/

/-- A first `retry_delay`, whole and itself a sequence of fields, with something behind it that is none. -/
def MalformedBehindDelay (value : Bytes) : Prop :=
  ∃ fs before field v behind, value = before ++ (field ++ behind) ∧
    IsFields fs before ∧ (∀ f ∈ fs, Python.retryDelay? f = none) ∧
    IsField ⟨1, .bytes v⟩ field ∧ (∃ gs, IsFields gs v) ∧ ¬∃ hs, IsFields hs behind

theorem retryDelay?_eq_some {f : WireField} {v : Bytes} : Python.retryDelay? f = some v ↔ f = ⟨1, .bytes v⟩ := by
  constructor
  · intro h
    unfold Python.retryDelay? at h
    split at h
    · cases h
      rfl
    · cases h
  · rintro rfl
    rfl

/-- TypeScript has all fields or none. -/
theorem fields_ok_iff {value : Bytes} {fs : List WireField} : TypeScript.fields value = .ok fs ↔ IsFields fs value := by
  rw [← Python.collect_iff, ← fields_toOption]
  cases TypeScript.fields value <;> simp [Except.toOption]

/-- The loop over a duration ends exactly on a sequence of fields. -/
theorem duration_ok_iff {v : Bytes} :
    (∃ d, (Python.fields v).foldM .truncated Python.durationField (0, 0) = .ok d) ↔ ∃ gs, IsFields gs v := by
  constructor
  · rintro ⟨d, hd⟩
    obtain ⟨gs, hgs, -⟩ := Generator.foldM_ok hd
    exact ⟨gs, Python.collect_iff.mp hgs⟩
  · rintro ⟨gs, hgs⟩
    rw [Generator.foldM_of_collect (Python.collect_iff.mpr hgs)]
    refine Checked.exists_foldlM_ok (fun f _ d => ?_) _
    unfold Python.durationField
    split <;> exact ⟨_, rfl⟩

/-- Python has a delay where the first `retry_delay` is whole and can be read, whatever follows. -/
theorem decodeRetryDelay_some_iff {value : Bytes} : (∃ r, Python.decodeRetryDelay x value = .ok (some r)) ↔
      ∃ v, (Python.fields value).search Python.retryDelay? = some (some v) ∧ ∃ gs, IsFields gs v := by
  constructor
  · rintro ⟨r, hr⟩
    obtain ⟨v?, hsearch, hr⟩ := Checked.bind_ok.mp hr
    cases v? with
    | none => cases hr
    | some v =>
      obtain ⟨d, hd, -⟩ := Checked.bind_ok.mp hr
      exact ⟨v, Checked.demand_ok.mp hsearch, duration_ok_iff.mp ⟨d, hd⟩⟩
  · rintro ⟨v, hsearch, hv⟩
    obtain ⟨d, hd⟩ := duration_ok_iff.mpr hv
    have hdelay := Python.delay_eq x (Python.duration_small hd)
    exact ⟨_, Checked.bind_ok.mpr ⟨some v, Checked.demand_ok.mpr hsearch,
      Checked.bind_ok.mpr ⟨d, hd, Checked.bind_ok.mpr ⟨_, hdelay, rfl⟩⟩⟩⟩

/-- A `RetryInfo` that can be read to its end is read alike. -/
theorem decodeRetryDelay_eq {value : Bytes} {fs : List WireField} (h : IsFields fs value) :
    (TypeScript.decodeRetryDelay x value).toOption = (Python.decodeRetryDelay x value).toOption := by
  unfold TypeScript.decodeRetryDelay Python.decodeRetryDelay
  rw [fields_ok_iff.mpr h, Generator.search_eq _ (Python.collect_iff.mpr h)]
  have hsame : fs.findSome? TypeScript.retryDelay? = fs.findSome? Python.retryDelay? := rfl
  simp only [ok_bind, Checked.demand, hsame]
  cases fs.findSome? Python.retryDelay? with
  | none => rfl
  | some v =>
    dsimp only
    rw [← bind_assoc, toOption_bind, loop_toOption durationField_toOption, toOption_bind]
    cases hd : (Python.fields v).foldM .truncated Python.durationField (0, 0) with
    | error e => simp only [Except.toOption, Option.bind_none]
    | ok d =>
      simp only [Except.toOption, Option.bind_some, Python.delay_eq x (Python.duration_small hd), ok_bind]
      rfl

/-- **A delay is read alike unless something malformed follows it.** -/
theorem retry_eq_iff (value : Bytes) :
    (Python.decodeRetryDelay x value).toOption.join = (TypeScript.decodeRetryDelay x value).toOption.join ↔
      ¬MalformedBehindDelay value := by
  by_cases hall : ∃ fs, IsFields fs value
  · obtain ⟨fs, hfs⟩ := hall
    refine iff_of_true (by rw [decodeRetryDelay_eq x hfs]) ?_
    rintro ⟨gs, before, field, v, behind, rfl, hgs, -, hfield, -, hbehind⟩
    -- what stands behind the fields of a sequence is one
    have hcollect := Python.collect_append (hgs.append (.cons hfield .nil)) behind
    rw [append_nil, append_assoc, Python.collect_iff.mpr hfs] at hcollect
    obtain ⟨hs, hhs, -⟩ := Option.map_eq_some_iff.mp hcollect.symm
    exact hbehind ⟨hs, Python.collect_iff.mp hhs⟩
  · have herror : (TypeScript.decodeRetryDelay x value).toOption.join = none := by
      unfold TypeScript.decodeRetryDelay
      cases h : TypeScript.fields value with
      | error e => rfl
      | ok fs => exact absurd ⟨fs, fields_ok_iff.mp h⟩ hall
    have hsome : (Python.decodeRetryDelay x value).toOption.join ≠ none ↔
        ∃ r, Python.decodeRetryDelay x value = .ok (some r) := by
      rcases Python.decodeRetryDelay x value with e | _ | r <;> simp [Except.toOption]
    rw [herror, ← not_iff_not, not_not, ← ne_eq, hsome, decodeRetryDelay_some_iff]
    constructor
    · rintro ⟨v, hsearch, hv⟩
      obtain ⟨fs, before, f, field, behind, rfl, hfs, hnone, hfield, hf⟩ := Python.search_iff.mp hsearch
      obtain rfl := retryDelay?_eq_some.mp hf
      refine ⟨fs, before, field, v, behind, rfl, hfs, hnone, hfield, hv, ?_⟩
      rintro ⟨hs, hhs⟩
      exact hall ⟨_, hfs.append (.cons hfield hhs)⟩
    · rintro ⟨fs, before, field, v, behind, rfl, hfs, hnone, hfield, hv, -⟩
      exact ⟨v, Python.search_iff.mpr ⟨fs, before, _, field, behind, rfl, hfs, hnone, hfield, rfl⟩, hv⟩

end Messages

/-- **Main result.** From one trailer, whose details are of Google's types, Python does not raise and both SDKs read the
same reason, MACP code and delay, unless the first `RetryInfo` has something malformed behind a delay that is whole. -/
theorem status_details_agree_iff (x : StatusPlatform) {bufferFrom : String → Bytes}
    (hbase64 : ∀ b, bufferFrom (Base64.encodePadded Base64.standard b) = b) {raw : Bytes}
    {details : List (String × Bytes)} (hdetails : Python.statusDetails x (pythonTrailer raw) = .ok details)
    (htypes : ∀ d ∈ details, GoogleType d.1) :
    (Python.reason x (pythonTrailer raw) = .ok (TypeScript.reason x bufferFrom [] (typescriptTrailer raw)) ∧
      Python.macpCode x (pythonTrailer raw) = .ok (TypeScript.macpCode x bufferFrom [] (typescriptTrailer raw)) ∧
      Python.retryAfter x (pythonTrailer raw) =
        .ok (TypeScript.retryAfter x bufferFrom [] (typescriptTrailer raw))) ↔
    ∀ d, (details.find? fun d => d.1 == Python.retryInfoType) = some d → ¬MalformedBehindDelay d.2 := by
  have hinfo := seamErrorInfo_eq x htypes
  have hfind := find_retryInfo htypes
  have hbare := statusDetails_eq x hbase64 hdetails
  have hreason : Python.reason x (pythonTrailer raw) =
      .ok (TypeScript.reason x bufferFrom [] (typescriptTrailer raw)) := by
    rw [TypeScript.reason, hbare]
    exact Checked.bind_ok.mpr ⟨details, hdetails, Checked.bind_ok.mpr ⟨_, hinfo, rfl⟩⟩
  have hmacp : Python.macpCode x (pythonTrailer raw) =
      .ok (TypeScript.macpCode x bufferFrom [] (typescriptTrailer raw)) := by
    rw [TypeScript.macpCode, hbare, Python.macpCode_eq x _ hdetails hinfo]
    cases TypeScript.seamErrorInfo x (bareTypes details) <;> rfl
  rw [TypeScript.retryAfter, hbare, Python.retryAfter_eq x _ hdetails]
  cases hpy : details.find? fun d => d.1 == Python.retryInfoType with
  | none =>
    rw [hpy] at hfind
    rw [Option.map_eq_none_iff.mp hfind]
    simp [hreason, hmacp]
  | some d =>
    rw [hpy] at hfind
    obtain ⟨d', hd', hvalue⟩ := Option.map_eq_some_iff.mp hfind
    rw [hd', Option.bind_some]
    dsimp only
    rw [hvalue, Except.ok.injEq, retry_eq_iff]
    simp [hreason, hmacp]

/-- Bytes that are all ASCII as text. -/
def asciiText (b : Bytes) : Option String :=
  if b.all fun c => c.toNat < 128 then some (String.ofList (b.map fun c => Char.ofNat c.toNat)) else none

/-- A platform to read with, whose rounding keeps small numbers. -/
def plainPlatform : StatusPlatform := ⟨asciiText, id⟩

def plainBuffer (s : String) : Bytes := (Base64.decodePadded Base64.standard s).getD []

theorem plainBuffer_encode (b : Bytes) : plainBuffer (Base64.encodePadded Base64.standard b) = b := by
  rw [plainBuffer, Base64.decodePadded_encodePadded Base64.standard_lawful rfl]
  rfl

/-- A message of one length-delimited field. -/
def shortField (tag : UInt8) (b : Bytes) : Bytes := tag :: UInt8.ofNat b.length :: b

/-- A `Status` with one detail, a `RetryInfo` of the given bytes. -/
def retryStatus (retryInfo : Bytes) : Bytes :=
  shortField 0x1A (shortField 0x0A (utf8 Python.retryInfoType) ++ shortField 0x12 retryInfo)

/-- `retry_delay` of five seconds. -/
def fiveSeconds : Bytes := [0x0A, 0x02, 0x08, 0x05]

theorem googleType_retryInfo (retryInfo : Bytes) : ∀ d ∈ [(Python.retryInfoType, retryInfo)], GoogleType d.1 := by
  intro d hd
  obtain rfl := mem_singleton.mp hd
  exact ⟨"google.rpc.RetryInfo", by decide, rfl⟩

theorem status_details_agree_five_seconds :
    Python.retryAfter plainPlatform (pythonTrailer (retryStatus fiveSeconds)) = .ok (some 5) ∧
      TypeScript.retryAfter plainPlatform plainBuffer [] (typescriptTrailer (retryStatus fiveSeconds)) = some 5 := by
  have hdetails : Python.statusDetails plainPlatform (pythonTrailer (retryStatus fiveSeconds)) =
      .ok [(Python.retryInfoType, fiveSeconds)] := by decide +kernel
  have hpython : Python.retryAfter plainPlatform (pythonTrailer (retryStatus fiveSeconds)) = .ok (some 5) := by
    decide +kernel
  have hagree := (status_details_agree_iff plainPlatform plainBuffer_encode hdetails
    (googleType_retryInfo fiveSeconds)).mpr ?_
  · exact ⟨hpython, Except.ok.inj (hagree.2.2.symm.trans hpython)⟩
  · intro d hd
    obtain rfl : (Python.retryInfoType, fiveSeconds) = d := Option.some.inj hd
    -- five seconds are all there is
    have hread : TypeScript.fields fiveSeconds = .ok [⟨1, .bytes [0x08, 0x05]⟩] := by decide +kernel
    exact (retry_eq_iff plainPlatform fiveSeconds).mp (by rw [decodeRetryDelay_eq _ (fields_ok_iff.mp hread)])

/-- A delay with a field of an unknown wire type behind it. -/
theorem malformed_behind_delay :
    let raw := retryStatus (fiveSeconds ++ [0x0F])
    Python.statusDetails plainPlatform (pythonTrailer raw) = .ok [(Python.retryInfoType, fiveSeconds ++ [0x0F])] ∧
      (∀ d ∈ [(Python.retryInfoType, fiveSeconds ++ [0x0F])], GoogleType d.1) ∧
      Python.retryAfter plainPlatform (pythonTrailer raw) = .ok (some 5) ∧
      TypeScript.retryAfter plainPlatform plainBuffer [] (typescriptTrailer raw) = none := by
  refine ⟨?_, googleType_retryInfo _, ?_, ?_⟩ <;> decide +kernel

end SeamSdk
