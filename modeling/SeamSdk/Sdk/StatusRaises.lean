import SeamSdk.Sdk.StatusFields

/-!
# Python reads a trailer without raising

Each accessor of a refused call in Python goes through code that raises: a truncated field, a text that is not UTF-8, an
integer too large for a double. A varint of ten bytes stays far below the largest double (`duration_small`), and
everything else raised is a `ValueError`, which is caught around each decoder. So the accessors never raise
(`reason_ok`, `errorMetadata_ok`, `macpCode_ok`, `retryAfter_ok`).
-/

namespace SeamSdk.Python

open ByteCodec Checked

/-! ## Numbers stay small -/

/-- The number of a field, if it holds one, is below `2 ^ 70`. -/
def Bounded (f : WireField) : Prop := ∀ n, f.value = .varint n → n < 2 ^ 70

theorem bounded_of_isField {f : WireField} {bs : Bytes} (h : IsField f bs) : Bounded f := by
  intro n hn
  cases h with
  | varint hkey hvalue =>
    cases hn
    exact hvalue.lt
  | fixed64 | bytes | fixed32 => cases hn

theorem bounded_of_isFields {fs : List WireField} {bs : Bytes} (h : IsFields fs bs) : ∀ f ∈ fs, Bounded f := by
  induction h with
  | nil => simp
  | cons hf _ ih => exact List.forall_mem_cons.mpr ⟨bounded_of_isField hf, ih⟩

theorem natAbs_signed_lt {dv : Nat} (h : dv < 2 ^ 70) : (signed dv).natAbs < 2 ^ 70 := by
  unfold signed
  split <;> omega

/-- A duration as it was read, in each of its fields. -/
def SmallDuration (d : Int × Int) : Prop := d.1.natAbs < 2 ^ 70 ∧ d.2.natAbs < 2 ^ 70

theorem durationField_small {d d' : Int × Int} {f : WireField} (hf : Bounded f) (h : durationField d f = .ok d')
    (hd : SmallDuration d) : SmallDuration d' := by
  unfold durationField at h
  split at h
  · cases h
    exact ⟨natAbs_signed_lt (hf _ rfl), hd.2⟩
  · cases h
    exact ⟨hd.1, natAbs_signed_lt (hf _ rfl)⟩
  · cases h
    exact hd

/-- **The numbers of a duration are small**, whatever the bytes are. -/
theorem duration_small {v : Bytes} {d : Int × Int} (h : (fields v).foldM .truncated durationField (0, 0) = .ok d) :
    SmallDuration d := by
  obtain ⟨fs, hfs, h⟩ := Generator.foldM_ok h
  have hbounded := bounded_of_isFields (collect_iff.mp hfs)
  exact foldlM_keeps (fun f hf _ _ => durationField_small (hbounded f hf)) ⟨by decide, by decide⟩ h

variable (x : StatusPlatform)

theorem toFloat_eq {n : Int} (h : n.natAbs < 2 ^ 70) : toFloat x n = .ok (x.round n) := by
  rw [toFloat, if_pos]
  exact h.trans (by decide +kernel)

/-- The delay of a duration never overflows. -/
theorem delay_eq {d : Int × Int} (h : SmallDuration d) :
    delay x d.1 d.2 = .ok (x.round (x.round d.1 + x.round (x.round d.2 / 10 ^ 9))) := by
  rw [delay, toFloat_eq x h.1, toFloat_eq x h.2]
  rfl

/-! ## Nothing is left uncaught -/

/-- Only subclasses of `ValueError` are raised. -/
abbrev ValueErrors {α : Type} (r : Except Raised α) : Prop := Raise.Only Raised.isValueError r

open Raise (only_ok only_demand only_foldM)

theorem decode_only (b : Bytes) : ValueErrors (decode x b) := only_demand rfl _

theorem anyField_only (any : String × Bytes) (f : WireField) : ValueErrors (anyField x any f) := by
  unfold anyField
  split
  · exact (decode_only x _).bind fun _ _ => only_ok _
  · exact only_ok _
  · exact only_ok _

theorem statusField_only (out : List (String × Bytes)) (f : WireField) : ValueErrors (statusField x out f) := by
  unfold statusField
  split
  · exact (only_foldM rfl (anyField_only x) _ _).bind fun _ _ => only_ok _
  · exact only_ok _

theorem entryField_only (entry : String × String) (f : WireField) : ValueErrors (entryField x entry f) := by
  unfold entryField
  split
  · exact (decode_only x _).bind fun _ _ => only_ok _
  · exact (decode_only x _).bind fun _ _ => only_ok _
  · exact only_ok _

theorem errorInfoField_only (info : ErrorInfo) (f : WireField) : ValueErrors (errorInfoField x info f) := by
  unfold errorInfoField
  split
  · exact (decode_only x _).bind fun _ _ => only_ok _
  · exact (decode_only x _).bind fun _ _ => only_ok _
  · exact (only_foldM rfl (entryField_only x) _ _).bind fun _ _ => only_ok _
  · exact only_ok _

theorem durationField_only (d : Int × Int) (f : WireField) : ValueErrors (durationField d f) := by
  unfold durationField
  split <;> exact only_ok _

theorem decodeRetryDelay_only (value : Bytes) : ValueErrors (decodeRetryDelay x value) := by
  refine (only_demand rfl _).bind fun v _ => ?_
  cases v with
  | none => exact only_ok _
  | some v =>
    refine (only_foldM rfl durationField_only _ _).bind fun d hd => ?_
    dsimp only
    rw [delay_eq x (duration_small hd)]
    exact only_ok _

/-- The handlers, with nothing left to raise. -/
theorem handle_status (raw : Bytes) :
    Raise.handle Raised.isValueError [] ((fields raw).foldM .truncated (statusField x) []) =
      .ok (((fields raw).foldM .truncated (statusField x) []).toOption.getD []) :=
  (only_foldM rfl (statusField_only x) _ _).handle []

theorem handle_errorInfo (value : Bytes) :
    Raise.handle Raised.isValueError none ((decodeErrorInfo x value).map some) =
      .ok (decodeErrorInfo x value).toOption := by
  have hinfo : ValueErrors (decodeErrorInfo x value) := only_foldM rfl (errorInfoField_only x) _ _
  cases h : decodeErrorInfo x value with
  | ok info => rfl
  | error e => exact if_pos (hinfo e h)

theorem handle_retryDelay (value : Bytes) :
    Raise.handle Raised.isValueError none (decodeRetryDelay x value) =
      .ok (decodeRetryDelay x value).toOption.join := by
  rw [(decodeRetryDelay_only x value).handle none]
  cases decodeRetryDelay x value <;> rfl

theorem statusDetails_ok (trailing : List (String × MetadataValue)) :
    ∃ details, statusDetails x trailing = .ok details := by
  unfold statusDetails
  dsimp only
  generalize trailing.foldl (fun raw kv => if kv.1.toLower = statusDetailsKey then some kv.2 else raw) none = raw
  rcases raw with _ | _ | raw
  · exact ⟨_, rfl⟩
  · exact ⟨_, rfl⟩
  · exact ⟨_, handle_status x raw⟩

theorem seamErrorInfo_cons (typeUrl : String) (value : Bytes) (details : List (String × Bytes)) :
    seamErrorInfo x ((typeUrl, value) :: details) =
      if typeUrl ≠ errorInfoType then seamErrorInfo x details
      else
        match (decodeErrorInfo x value).toOption with
        | none => .ok none
        | some info => if info.domain = seamErrorDomain then .ok (some info) else seamErrorInfo x details := by
  rw [seamErrorInfo, handle_errorInfo]
  rfl

theorem seamErrorInfo_ok (details : List (String × Bytes)) : ∃ info, seamErrorInfo x details = .ok info := by
  induction details with
  | nil => exact ⟨_, rfl⟩
  | cons d details ih =>
    rw [seamErrorInfo_cons]
    split
    · exact ih
    · split
      · exact ⟨_, rfl⟩
      · split
        · exact ⟨_, rfl⟩
        · exact ih

section Trailing

variable (trailing : List (String × MetadataValue))

/-- The details and the error among them are always found out. -/
theorem info_ok : ∃ details info, statusDetails x trailing = .ok details ∧ seamErrorInfo x details = .ok info := by
  obtain ⟨details, hdetails⟩ := statusDetails_ok x trailing
  obtain ⟨info, hinfo⟩ := seamErrorInfo_ok x details
  exact ⟨details, info, hdetails, hinfo⟩

theorem reason_ok : ∃ r, reason x trailing = .ok r := by
  obtain ⟨details, info, hdetails, hinfo⟩ := info_ok x trailing
  exact ⟨_, bind_ok.mpr ⟨details, hdetails, bind_ok.mpr ⟨info, hinfo, rfl⟩⟩⟩

theorem errorMetadata_ok : ∃ metadata, errorMetadata x trailing = .ok metadata := by
  obtain ⟨details, info, hdetails, hinfo⟩ := info_ok x trailing
  exact ⟨_, bind_ok.mpr ⟨details, hdetails, bind_ok.mpr ⟨info, hinfo, rfl⟩⟩⟩

/-- The code, with the error that is found. -/
theorem macpCode_eq {details : List (String × Bytes)} {info : Option ErrorInfo}
    (hdetails : statusDetails x trailing = .ok details) (hinfo : seamErrorInfo x details = .ok info) :
    macpCode x trailing = .ok (info.bind fun info =>
      if info.reason ≠ protocolReason then none else getItem info.metadata "macp_code") := by
  refine bind_ok.mpr ⟨details, hdetails, bind_ok.mpr ⟨info, hinfo, ?_⟩⟩
  cases info with
  | none => rfl
  | some info =>
    dsimp only [Option.bind_some]
    split <;> rfl

theorem macpCode_ok : ∃ code, macpCode x trailing = .ok code := by
  obtain ⟨details, info, hdetails, hinfo⟩ := info_ok x trailing
  exact ⟨_, macpCode_eq x trailing hdetails hinfo⟩

/-- The delay of the first `RetryInfo`. -/
theorem retryAfter_eq {details : List (String × Bytes)} (hdetails : statusDetails x trailing = .ok details) :
    retryAfter x trailing = .ok ((details.find? fun d => d.1 == retryInfoType).bind fun d =>
      (decodeRetryDelay x d.2).toOption.join) := by
  refine bind_ok.mpr ⟨details, hdetails, ?_⟩
  cases details.find? fun d => d.1 == retryInfoType with
  | none => rfl
  | some d => exact handle_retryDelay x d.2

theorem retryAfter_ok : ∃ delay, retryAfter x trailing = .ok delay := by
  obtain ⟨details, hdetails⟩ := statusDetails_ok x trailing
  exact ⟨_, retryAfter_eq x trailing hdetails⟩

end Trailing

end SeamSdk.Python
