import SeamSdk.Sdk.StatusAgree

/-!
# Python reads back what a server sends

A server sends a `google.rpc.Status` in the protocol-buffer encoding: its fields in any order, defaults written or left
out, and fields that the reader does not know at every level (`IsStatus`). Python's own decoder finds in it the fields
that were written (`collect_fields_encode`), each message in turn (`entry_read`, `decodeErrorInfo_read`, `any_read`,
`duration_read`, `statusDetails_read`), and so the accessors have the reason, the metadata and the delay that were sent.
-/

namespace SeamSdk

open ByteCodec ProtoWire Checked List

/-! ## What a server sends -/

/-- A map from texts to texts, in the order of its entries on the wire. -/
structure Metadata where
  entries : List (String × String)
  nodup : (entries.map Prod.fst).Nodup

/-- A detail of a status: the `ErrorInfo` of the domain of this service, a `RetryInfo`, or a message of another type. -/
inductive Detail
  | errorInfo (reason : String) (metadata : Metadata)
  | retryInfo (seconds : Int64) (nanos : Int32)
  | other (typeUrl : String) (value : Bytes)

namespace Detail

def errorInfo? : Detail → Option (String × Metadata)
  | .errorInfo reason metadata => some (reason, metadata)
  | _ => none

def retryInfo? : Detail → Option (Int64 × Int32)
  | .retryInfo seconds nanos => some (seconds, nanos)
  | _ => none

end Detail

/-- A status with one `ErrorInfo` and at most one `RetryInfo` among its details. -/
structure SeamStatus where
  code : Int32
  message : String
  details : List Detail
  reason : String
  metadata : Metadata
  delay : Option (Int64 × Int32)
  errorInfos : details.filterMap Detail.errorInfo? = [(reason, metadata)]
  retryInfos : details.filterMap Detail.retryInfo? = delay.toList
  others : ∀ typeUrl value, Detail.other typeUrl value ∈ details →
    typeUrl ≠ Python.errorInfoType ∧ typeUrl ≠ Python.retryInfoType

/-- A negative number is sign-extended to sixty-four bits. -/
def int32Wire (n : Int32) : UInt64 := n.toInt64.toUInt64

/-! ## Messages on the wire -/

/-- An entry of a map. -/
def IsEntry (entry : String × String) (b : Bytes) : Prop :=
  ∃ fs, encode fs = b ∧ HasText fs 1 entry.1 ∧ HasText fs 2 entry.2

def IsErrorInfo (reason : String) (metadata : Metadata) (b : Bytes) : Prop :=
  ∃ fs, encode fs = b ∧ HasText fs 1 reason ∧ HasText fs 2 seamErrorDomain ∧
    List.Forall₂ IsEntry metadata.entries (bytesUnder 3 fs)

def IsDuration (seconds : Int64) (nanos : Int32) (b : Bytes) : Prop :=
  ∃ fs, encode fs = b ∧ HasVarint fs 1 seconds.toUInt64 ∧ HasVarint fs 2 (int32Wire nanos)

def IsRetryInfo (seconds : Int64) (nanos : Int32) (b : Bytes) : Prop :=
  ∃ fs duration, encode fs = b ∧ bytesUnder 1 fs = [duration] ∧ IsDuration seconds nanos duration

/-- An `Any`, with the name of the type of its value. -/
def IsAny (typeUrl : String) (value b : Bytes) : Prop := ∃ fs, encode fs = b ∧ HasText fs 1 typeUrl ∧ HasBytes fs 2 value

def IsDetail : Detail → Bytes → Prop
  | .errorInfo reason metadata, b => ∃ value, IsErrorInfo reason metadata value ∧ IsAny Python.errorInfoType value b
  | .retryInfo seconds nanos, b => ∃ value, IsRetryInfo seconds nanos value ∧ IsAny Python.retryInfoType value b
  | .other typeUrl value, b => IsAny typeUrl value b

def IsStatus (status : SeamStatus) (b : Bytes) : Prop :=
  ∃ fs, encode fs = b ∧ HasVarint fs 1 (int32Wire status.code) ∧ HasText fs 2 status.message ∧
    List.Forall₂ IsDetail status.details (bytesUnder 3 fs)

namespace Python

/-! ## Fields -/

/-- A field as the decoder sees it. -/
def read (f : Field) : WireField :=
  ⟨f.num, match f.value with
    | .varint n => .varint n.toNat
    | .bytes b => .bytes b
    | .fixed64 _ => .fixed
    | .fixed32 _ => .fixed⟩

variable {b : Bytes} {fs : List Field} {num : Nat}

theorem writes_varint {n : Nat} (h : n < 2 ^ 70) : Writes n (Protobuf.varint n) := by
  obtain ⟨hvarint, hnumber⟩ := isVarint_varint n
  exact ⟨hvarint, length_varint (k := 9) h, hnumber⟩

theorem isField_encode {f : Field} (h : f.encode.length < 2 ^ 63) : IsField (read f) f.encode := by
  obtain ⟨num, hnum, value⟩ := f
  have hwireType := value.wireType_lt
  have hkey := writes_varint (n := 8 * num + value.wireType) (by omega)
  cases value with
  | varint n => exact .varint hkey (writes_varint (n.toNat_lt.trans (by decide)))
  | fixed64 b => exact .fixed64 hkey (by simp [Value.encode])
  | bytes b =>
    have hlength : b.length < 2 ^ 70 := by
      simp only [Field.encode, Value.encode, length_append] at h
      omega
    exact .bytes hkey (writes_varint hlength)
  | fixed32 b => exact .fixed32 hkey (by simp [Value.encode])

theorem isFields_encode (h : (encode fs).length < 2 ^ 63) : IsFields (fs.map read) (encode fs) := by
  induction fs with
  | nil => exact .nil
  | cons f fs ih =>
    rw [encode_cons, length_append] at h
    exact .cons (isField_encode (by omega)) (ih (by omega))

/-- **The fields of a message are those that were written.** -/
theorem collect_fields_encode (h : (encode fs).length < 2 ^ 63) : (fields (encode fs)).collect = some (fs.map read) :=
  collect_iff.mpr (isFields_encode h)

/-! ## Loops over the fields of a message -/

section Loops

variable {τ : Type} {num : Nat} {t : τ}

theorem foldM_fields_encode (f : τ → WireField → Except Raised τ) (t : τ) (h : (encode fs).length < 2 ^ 63) :
    (fields (encode fs)).foldM .truncated f t = (fs.map read).foldlM f t :=
  Generator.foldM_of_collect (collect_fields_encode h) t

/-- A loop that builds two things, each for itself, builds both. -/
theorem foldM_pair {υ : Type} {f : τ × υ → WireField → Except Raised (τ × υ)} {g : τ → WireField → τ}
    {g' : υ → WireField → υ} (hf : ∀ {t t' w}, f t w = .ok t' → t'.1 = g t.1 w ∧ t'.2 = g' t.2 w)
    (hall : ∀ w ∈ fs.map read, ∀ t, ∃ t', f t w = .ok t') (h : (encode fs).length < 2 ^ 63) (t : τ × υ) :
    (fields (encode fs)).foldM .truncated f t = .ok ((fs.map read).foldl g t.1, (fs.map read).foldl g' t.2) := by
  obtain ⟨t', ht'⟩ := exists_foldlM_ok hall t
  rw [foldM_fields_encode _ _ h, ht']
  exact congrArg Except.ok (Prod.ext (foldlM_component (fun h => (hf h).1) ht') (foldlM_component (fun h => (hf h).2) ht'))

/-- A step that looks at the byte strings under one number. -/
def onBytes (num : Nat) (g : τ → Bytes → τ) (t : τ) (f : WireField) : τ :=
  match f.value with
  | .bytes b => if f.num = num then g t b else t
  | _ => t

/-- A step that looks at the varints under one number. -/
def onVarint (num : Nat) (g : τ → Nat → τ) (t : τ) (f : WireField) : τ :=
  match f.value with
  | .varint n => if f.num = num then g t n else t
  | _ => t

theorem onBytes_same (g : τ → Bytes → τ) (b : Bytes) : onBytes num g t ⟨num, .bytes b⟩ = g t b := if_pos rfl

theorem onBytes_other {g : τ → Bytes → τ} {f : WireField} (h : ∀ b, f = ⟨num, .bytes b⟩ → False) :
    onBytes num g t f = t := by
  obtain ⟨k, v⟩ := f
  cases v with
  | bytes b => exact if_neg fun hk : k = num => h b (hk ▸ rfl)
  | varint | fixed => rfl

theorem onVarint_same (g : τ → Nat → τ) (n : Nat) : onVarint num g t ⟨num, .varint n⟩ = g t n := if_pos rfl

theorem onVarint_other {g : τ → Nat → τ} {f : WireField} (h : ∀ n, f = ⟨num, .varint n⟩ → False) :
    onVarint num g t f = t := by
  obtain ⟨k, v⟩ := f
  cases v with
  | varint n => exact if_neg fun hk : k = num => h n (hk ▸ rfl)
  | bytes | fixed => rfl

theorem bytes?_eq_some {f : Field} : f.bytes? num = some b ↔ read f = ⟨num, .bytes b⟩ := by
  obtain ⟨k, hk, value⟩ := f
  cases value <;> simp [Field.bytes?, read]

theorem varint?_eq_some {f : Field} {n : UInt64} : f.varint? num = some n ↔ read f = ⟨num, .varint n.toNat⟩ := by
  obtain ⟨k, hk, value⟩ := f
  cases value <;> simp [Field.varint?, read, UInt64.toNat_inj]

theorem foldl_onBytes (g : τ → Bytes → τ) (fs : List Field) :
    (fs.map read).foldl (onBytes num g) t = (bytesUnder num fs).foldl g t := by
  rw [foldl_map]
  refine foldl_filterMap_of (fun t f hnone => ?_) (fun t f b hsome => ?_) fs t
  · apply onBytes_other
    intro b hb
    rw [bytes?_eq_some.mpr hb] at hnone
    cases hnone
  · rw [bytes?_eq_some.mp hsome, onBytes_same]

theorem foldl_onVarint (g : τ → Nat → τ) (fs : List Field) :
    (fs.map read).foldl (onVarint num g) t = (varintsUnder num fs).foldl (fun t n => g t n.toNat) t := by
  rw [foldl_map]
  refine foldl_filterMap_of (fun t f hnone => ?_) (fun t f n hsome => ?_) fs t
  · apply onVarint_other
    intro n hn
    have hvalue : f.varint? num = some (UInt64.ofNat n) := by
      obtain ⟨k, hk, value⟩ := f
      cases value with
      | varint m =>
        obtain ⟨rfl, hm⟩ := WireField.mk.inj hn
        cases hm
        simp [Field.varint?]
      | bytes | fixed64 | fixed32 => cases hn
    rw [hvalue] at hnone
    cases hnone
  · rw [varint?_eq_some.mp hsome, onVarint_same]

theorem mem_bytesUnder (h : ⟨num, .bytes b⟩ ∈ fs.map read) : b ∈ bytesUnder num fs := by
  obtain ⟨f, hf, hread⟩ := mem_map.mp h
  exact mem_filterMap.mpr ⟨f, hf, bytes?_eq_some.mpr hread⟩

end Loops

/-! ## Messages -/

section Messages

variable {x : StatusPlatform} (hx : ∀ s, x.decodeUtf8 (utf8 s) = some s)

/-- A text that is read, or what stood before it. -/
def takeText (x : StatusPlatform) (t : String) (b : Bytes) : String := (x.decodeUtf8 b).getD t

variable {ds : List Detail} {s : String}

theorem onBytes_takeText {t : String} (h : decode x b = .ok s) :
    s = onBytes num (takeText x) t ⟨num, .bytes b⟩ := by
  rw [onBytes_same, takeText, demand_ok.mp h]
  rfl

theorem eq_empty_of_utf8 (h : utf8 s = []) : "" = s := utf8_injective h.symm

include hx in
theorem foldl_takeText (h : HasText fs num s) : (bytesUnder num fs).foldl (takeText x) "" = s :=
  HasBytes.foldl h (by rw [takeText, hx]; rfl) eq_empty_of_utf8

include hx in
/-- Every text under a number of a text field can be read. -/
theorem decode_of_mem (h : HasText fs num s) (hb : ⟨num, .bytes b⟩ ∈ fs.map read) : decode x b = .ok s := by
  rw [decode, HasBytes.eq_of_mem h (mem_bytesUnder hb), hx]
  rfl

/-! ### `Any` -/

theorem anyField_eq {any any' : String × Bytes} {f : WireField} (h : anyField x any f = .ok any') :
    any'.1 = onBytes 1 (takeText x) any.1 f ∧ any'.2 = onBytes 2 (fun _ b => b) any.2 f := by
  unfold anyField at h
  split at h
  · obtain ⟨s, hs, h⟩ := bind_ok.mp h
    cases h
    exact ⟨onBytes_takeText hs, rfl⟩
  · cases h
    exact ⟨rfl, rfl⟩
  · rename_i hurl hvalue
    cases h
    exact ⟨(onBytes_other hurl).symm, (onBytes_other hvalue).symm⟩

include hx in
theorem any_read {typeUrl : String} {value : Bytes} (h : IsAny typeUrl value b) (hb : b.length < 2 ^ 63) :
    (fields b).foldM .truncated (anyField x) ("", []) = .ok (typeUrl, value) := by
  obtain ⟨fs, rfl, hurl, hvalue⟩ := h
  rw [foldM_pair anyField_eq (fun f hf any => ?_) hb, foldl_onBytes, foldl_takeText hx hurl, foldl_onBytes,
    HasBytes.foldl hvalue rfl Eq.symm]
  unfold anyField
  split
  · rw [decode_of_mem hx hurl hf]
    exact ⟨_, rfl⟩
  · exact ⟨_, rfl⟩
  · exact ⟨_, rfl⟩

/-! ### `ErrorInfo` -/

theorem entryField_eq {entry entry' : String × String} {f : WireField} (h : entryField x entry f = .ok entry') :
    entry'.1 = onBytes 1 (takeText x) entry.1 f ∧ entry'.2 = onBytes 2 (takeText x) entry.2 f := by
  unfold entryField at h
  split at h
  · obtain ⟨s, hs, h⟩ := bind_ok.mp h
    cases h
    exact ⟨onBytes_takeText hs, rfl⟩
  · obtain ⟨s, hs, h⟩ := bind_ok.mp h
    cases h
    exact ⟨rfl, onBytes_takeText hs⟩
  · rename_i hkey hvalue
    cases h
    exact ⟨(onBytes_other hkey).symm, (onBytes_other hvalue).symm⟩

include hx in
theorem entry_read {entry : String × String} (h : IsEntry entry b) (hb : b.length < 2 ^ 63) :
    (fields b).foldM .truncated (entryField x) ("", "") = .ok entry := by
  obtain ⟨fs, rfl, hkey, hvalue⟩ := h
  rw [foldM_pair entryField_eq (fun f hf e => ?_) hb, foldl_onBytes, foldl_takeText hx hkey, foldl_onBytes,
    foldl_takeText hx hvalue]
  unfold entryField
  split
  · rw [decode_of_mem hx hkey hf]
    exact ⟨_, rfl⟩
  · rw [decode_of_mem hx hvalue hf]
    exact ⟨_, rfl⟩
  · exact ⟨_, rfl⟩

/-- The entry of a map that is read, put into the dictionary. -/
def putEntry (x : StatusPlatform) (m : List (String × String)) (b : Bytes) : List (String × String) :=
  match (fields b).foldM .truncated (entryField x) ("", "") with
  | .ok entry => setItem m entry.1 entry.2
  | .error _ => m

theorem setItem_new {m : List (String × String)} {k : String} (h : k ∉ m.map Prod.fst) (v : String) :
    setItem m k v = m ++ [(k, v)] := by
  rw [setItem, if_neg]
  rw [any_eq_true]
  rintro ⟨p, hp, hk⟩
  exact h (mem_map.mpr ⟨p, hp, eq_of_beq hk⟩)

include hx in
/-- The entries of a map are put into a dictionary one after another. -/
theorem foldl_putEntry {es : List (String × String)} {bs : List Bytes} (h : List.Forall₂ IsEntry es bs)
    (hbs : ∀ b ∈ bs, b.length < 2 ^ 63) (m : List (String × String)) (hnodup : ((m ++ es).map Prod.fst).Nodup) :
    bs.foldl (putEntry x) m = m ++ es := by
  induction h generalizing m with
  | nil => simp
  | @cons e b es bs he hes ih =>
    rw [forall_mem_cons] at hbs
    have hnew : e.1 ∉ m.map Prod.fst := by
      rw [map_append, nodup_append] at hnodup
      exact fun hmem => hnodup.2.2 _ hmem _ (mem_map_of_mem mem_cons_self) rfl
    have hput : putEntry x m b = m ++ [e] := by
      rw [putEntry, entry_read hx he hbs.1]
      exact setItem_new hnew e.2
    rw [foldl_cons, hput, ih hbs.2 _ (by simpa using hnodup), append_assoc, singleton_append]

theorem errorInfoField_eq {info info' : ErrorInfo} {f : WireField} (h : errorInfoField x info f = .ok info') :
    info'.reason = onBytes 1 (takeText x) info.reason f ∧ info'.domain = onBytes 2 (takeText x) info.domain f ∧
      info'.metadata = onBytes 3 (putEntry x) info.metadata f := by
  unfold errorInfoField at h
  split at h
  · obtain ⟨s, hs, h⟩ := bind_ok.mp h
    cases h
    exact ⟨onBytes_takeText hs, rfl, rfl⟩
  · obtain ⟨s, hs, h⟩ := bind_ok.mp h
    cases h
    exact ⟨rfl, onBytes_takeText hs, rfl⟩
  · obtain ⟨entry, hentry, h⟩ := bind_ok.mp h
    cases h
    refine ⟨rfl, rfl, ?_⟩
    rw [onBytes_same, putEntry, hentry]
  · rename_i hreason hdomain hmetadata
    cases h
    exact ⟨(onBytes_other hreason).symm, (onBytes_other hdomain).symm, (onBytes_other hmetadata).symm⟩

include hx in
/-- **An `ErrorInfo` is read back.** -/
theorem decodeErrorInfo_read {reason : String} {metadata : Metadata} (h : IsErrorInfo reason metadata b)
    (hb : b.length < 2 ^ 63) : decodeErrorInfo x b = .ok ⟨reason, seamErrorDomain, metadata.entries⟩ := by
  obtain ⟨fs, rfl, hreason, hdomain, hmetadata⟩ := h
  have hshort : ∀ c ∈ bytesUnder 3 fs, c.length < 2 ^ 63 := fun c hc => (length_le_of_mem_bytesUnder hc).trans_lt hb
  rw [decodeErrorInfo, foldM_fields_encode _ _ hb]
  obtain ⟨info, hinfo⟩ : ∃ info, (fs.map read).foldlM (errorInfoField x) ⟨"", "", []⟩ = .ok info := by
    refine exists_foldlM_ok (fun f hf info => ?_) _
    unfold errorInfoField
    split
    · rw [decode_of_mem hx hreason hf]
      exact ⟨_, rfl⟩
    · rw [decode_of_mem hx hdomain hf]
      exact ⟨_, rfl⟩
    · have hmem := mem_bytesUnder hf
      obtain ⟨entry, -, hentry⟩ := exists_of_forall₂ hmetadata hmem
      rw [entry_read hx hentry (hshort _ hmem)]
      exact ⟨_, rfl⟩
    · exact ⟨_, rfl⟩
  have hr := foldlM_component (fun h => (errorInfoField_eq h).1) hinfo
  have hd := foldlM_component (fun h => (errorInfoField_eq h).2.1) hinfo
  have hm := foldlM_component (fun h => (errorInfoField_eq h).2.2) hinfo
  rw [foldl_onBytes, foldl_takeText hx hreason] at hr
  rw [foldl_onBytes, foldl_takeText hx hdomain] at hd
  rw [foldl_onBytes, foldl_putEntry hx hmetadata hshort [] metadata.nodup] at hm
  rw [hinfo]
  obtain ⟨r, d, m⟩ := info
  cases hr
  cases hd
  cases hm
  rfl

/-! ### `RetryInfo` -/

theorem signed_int64 (n : Int64) : signed n.toUInt64.toNat = n.toInt := by
  have hcond : n.toInt = if 2 * n.toUInt64.toNat < 2 ^ 64 then (n.toUInt64.toNat : Int)
      else n.toUInt64.toNat - (2 ^ 64 : Nat) := n.toBitVec.toInt_eq_toNat_cond
  rw [signed, hcond]
  split_ifs <;> omega

theorem signed_int32 (n : Int32) : signed (int32Wire n).toNat = n.toInt := by
  rw [int32Wire, signed_int64, Int32.toInt_toInt64]

theorem durationField_eq {d d' : Int × Int} {f : WireField} (h : durationField d f = .ok d') :
    d'.1 = onVarint 1 (fun _ n => signed n) d.1 f ∧ d'.2 = onVarint 2 (fun _ n => signed n) d.2 f := by
  unfold durationField at h
  split at h
  · cases h
    exact ⟨rfl, rfl⟩
  · cases h
    exact ⟨rfl, rfl⟩
  · rename_i hseconds hnanos
    cases h
    exact ⟨(onVarint_other hseconds).symm, (onVarint_other hnanos).symm⟩

theorem foldl_signed {n : UInt64} (h : HasVarint fs num n) :
    (varintsUnder num fs).foldl (fun _ m => signed m.toNat) 0 = signed n.toNat :=
  HasVarint.foldl h rfl fun hn => by rw [hn]; rfl

/-- **A duration is read back**, negative numbers included. -/
theorem duration_read {seconds : Int64} {nanos : Int32} (h : IsDuration seconds nanos b) (hb : b.length < 2 ^ 63) :
    (fields b).foldM .truncated durationField (0, 0) = .ok (seconds.toInt, nanos.toInt) := by
  obtain ⟨fs, rfl, hseconds, hnanos⟩ := h
  rw [foldM_pair durationField_eq (fun f hf d => ?_) hb, foldl_onVarint, foldl_signed hseconds, signed_int64,
    foldl_onVarint, foldl_signed hnanos, signed_int32]
  unfold durationField
  split <;> exact ⟨_, rfl⟩

theorem retryDelay?_eq {f : Field} : retryDelay? (read f) = f.bytes? 1 := by
  cases hf : f.bytes? 1 with
  | some b => rw [bytes?_eq_some.mp hf, retryDelay?]
  | none =>
    unfold retryDelay?
    split
    · rename_i b hread
      rw [bytes?_eq_some.mpr hread] at hf
      cases hf
    · rfl

/-- What Python makes of a duration. -/
def delayOf (x : StatusPlatform) (d : Int64 × Int32) : Rat :=
  x.round (x.round d.1.toInt + x.round (x.round d.2.toInt / 10 ^ 9))

theorem decodeRetryDelay_read {seconds : Int64} {nanos : Int32} (h : IsRetryInfo seconds nanos b)
    (hb : b.length < 2 ^ 63) : decodeRetryDelay x b = .ok (some (delayOf x (seconds, nanos))) := by
  obtain ⟨fs, duration, rfl, hone, hduration⟩ := h
  have hshort : duration.length < 2 ^ 63 :=
    (length_le_of_mem_bytesUnder (hone ▸ mem_singleton_self duration)).trans_lt hb
  have hfind : (fs.map read).findSome? retryDelay? = some duration := by
    rw [List.findSome?_map, show retryDelay? ∘ read = Field.bytes? 1 from funext fun f => retryDelay?_eq,
      ← List.head?_filterMap]
    exact congrArg List.head? hone
  have hsearch := Generator.search_eq retryDelay? (collect_fields_encode hb)
  rw [hfind] at hsearch
  have hread := duration_read hduration hshort
  have hdelay := delay_eq x (duration_small hread)
  exact bind_ok.mpr ⟨some duration, demand_ok.mpr hsearch, bind_ok.mpr ⟨_, hread, bind_ok.mpr ⟨_, hdelay, rfl⟩⟩⟩

/-! ### `Status` -/

/-- The detail that an entry of the list of `_status_details` stands for. -/
def Carries : Detail → String × Bytes → Prop
  | .errorInfo reason metadata, any => any.1 = errorInfoType ∧ IsErrorInfo reason metadata any.2
  | .retryInfo seconds nanos, any => any.1 = retryInfoType ∧ IsRetryInfo seconds nanos any.2
  | .other typeUrl _, any => any.1 = typeUrl

/-- The value of an `Any` is no longer than it. -/
theorem length_le_of_isAny {typeUrl : String} {value : Bytes} (h : IsAny typeUrl value b) :
    value.length ≤ b.length := by
  obtain ⟨fs, rfl, -, hvalue⟩ := h
  rcases hvalue with hvalue | ⟨rfl, -⟩
  · exact length_le_of_mem_bytesUnder (hvalue ▸ mem_singleton_self value)
  · exact Nat.zero_le _

theorem exists_any {d : Detail} (h : IsDetail d b) : ∃ any : String × Bytes, IsAny any.1 any.2 b ∧ Carries d any := by
  cases d with
  | errorInfo reason metadata =>
    obtain ⟨value, hvalue, hany⟩ := h
    exact ⟨(errorInfoType, value), hany, rfl, hvalue⟩
  | retryInfo seconds nanos =>
    obtain ⟨value, hvalue, hany⟩ := h
    exact ⟨(retryInfoType, value), hany, rfl, hvalue⟩
  | other typeUrl value => exact ⟨(typeUrl, value), h, rfl⟩

/-- The details that a list of `_status_details` stands for, none of them too long to be read. -/
def CarriesAll (ds : List Detail) (anys : List (String × Bytes)) : Prop :=
  List.Forall₂ (fun d any => Carries d any ∧ any.2.length < 2 ^ 63) ds anys

/-- An `Any` that is read, at the end of the list. -/
def putAny (x : StatusPlatform) (out : List (String × Bytes)) (b : Bytes) : List (String × Bytes) :=
  match (fields b).foldM .truncated (anyField x) ("", []) with
  | .ok any => out ++ [any]
  | .error _ => out

theorem statusField_eq {out out' : List (String × Bytes)} {f : WireField} (h : statusField x out f = .ok out') :
    out' = onBytes 3 (putAny x) out f := by
  unfold statusField at h
  split at h
  · obtain ⟨any, hany, h⟩ := bind_ok.mp h
    cases h
    rw [onBytes_same, putAny, hany]
  · rename_i hdetails
    cases h
    exact (onBytes_other hdetails).symm

include hx in
theorem foldl_putAny {bs : List Bytes} (h : List.Forall₂ IsDetail ds bs) (hbs : ∀ b ∈ bs, b.length < 2 ^ 63)
    (out : List (String × Bytes)) : ∃ anys, bs.foldl (putAny x) out = out ++ anys ∧ CarriesAll ds anys := by
  induction h generalizing out with
  | nil => exact ⟨[], (append_nil out).symm, .nil⟩
  | @cons d b ds bs hd hds ih =>
    rw [forall_mem_cons] at hbs
    obtain ⟨any, hany, hcarries⟩ := exists_any hd
    have hput : putAny x out b = out ++ [any] := by rw [putAny, any_read hx hany hbs.1]
    obtain ⟨anys, hfold, hall⟩ := ih hbs.2 (out ++ [any])
    refine ⟨any :: anys, ?_, .cons ⟨hcarries, (length_le_of_isAny hany).trans_lt hbs.1⟩ hall⟩
    rw [foldl_cons, hput, hfold, append_assoc, singleton_append]

include hx in
/-- **The details of a status are read back.** -/
theorem statusDetails_read {status : SeamStatus} {raw : Bytes} (h : IsStatus status raw) (hraw : raw.length < 2 ^ 63) :
    ∃ anys, statusDetails x (pythonTrailer raw) = .ok anys ∧ CarriesAll status.details anys := by
  obtain ⟨fs, rfl, -, -, hdetails⟩ := h
  have hshort : ∀ c ∈ bytesUnder 3 fs, c.length < 2 ^ 63 := fun c hc => (length_le_of_mem_bytesUnder hc).trans_lt hraw
  rw [statusDetails_trailer, foldM_fields_encode _ _ hraw]
  obtain ⟨out, hout⟩ : ∃ out, (fs.map read).foldlM (statusField x) [] = .ok out := by
    refine exists_foldlM_ok (fun f hf out => ?_) _
    unfold statusField
    split
    · have hmem := mem_bytesUnder hf
      obtain ⟨d, -, hd⟩ := exists_of_forall₂ hdetails hmem
      obtain ⟨any, hany, -⟩ := exists_any hd
      rw [any_read hx hany (hshort _ hmem)]
      exact ⟨_, rfl⟩
    · exact ⟨_, rfl⟩
  obtain ⟨anys, hfold, hall⟩ := foldl_putAny hx hdetails hshort []
  have heq : out = (fs.map read).foldl (onBytes 3 (putAny x)) [] := foldlM_component (π := id) statusField_eq hout
  rw [foldl_onBytes, hfold, nil_append] at heq
  rw [hout, heq]
  exact ⟨anys, rfl, hall⟩

/-! ## Accessors -/

include hx in
/-- The first `ErrorInfo` is the one taken. -/
theorem seamErrorInfo_read {anys : List (String × Bytes)} (h : CarriesAll ds anys)
    (hothers : ∀ typeUrl value, Detail.other typeUrl value ∈ ds → typeUrl ≠ errorInfoType) : seamErrorInfo x anys =
      .ok ((ds.filterMap Detail.errorInfo?).head?.map fun r => ⟨r.1, seamErrorDomain, r.2.entries⟩) := by
  induction h with
  | nil => rfl
  | @cons d any ds anys hd hds ih =>
    obtain ⟨hcarries, hshort⟩ := hd
    have ih := ih fun typeUrl value hmem => hothers typeUrl value (mem_cons_of_mem _ hmem)
    rw [seamErrorInfo_cons]
    cases d with
    | errorInfo reason metadata =>
      obtain ⟨htype, hinfo⟩ := hcarries
      rw [if_neg (not_not.mpr htype), decodeErrorInfo_read hx hinfo hshort]
      exact if_pos rfl
    | retryInfo seconds nanos =>
      obtain ⟨htype, -⟩ := hcarries
      rw [if_pos (by rw [htype]; decide), ih]
      rfl
    | other typeUrl value =>
      obtain rfl : any.1 = typeUrl := hcarries
      rw [if_pos (hothers _ _ mem_cons_self), ih]
      rfl

/-- The first `RetryInfo` is the one taken. -/
theorem retryDelay_read {anys : List (String × Bytes)} (h : CarriesAll ds anys)
    (hothers : ∀ typeUrl value, Detail.other typeUrl value ∈ ds → typeUrl ≠ retryInfoType) :
    ((anys.find? fun d => d.1 == retryInfoType).bind fun d => (decodeRetryDelay x d.2).toOption.join) =
      (ds.filterMap Detail.retryInfo?).head?.map (delayOf x) := by
  induction h with
  | nil => rfl
  | @cons d any ds anys hd hds ih =>
    obtain ⟨hcarries, hshort⟩ := hd
    have ih := ih fun typeUrl value hmem => hothers typeUrl value (mem_cons_of_mem _ hmem)
    cases d with
    | errorInfo reason metadata =>
      obtain ⟨htype, -⟩ := hcarries
      rw [List.find?_cons_of_neg (by rw [htype]; decide), ih]
      rfl
    | retryInfo seconds nanos =>
      obtain ⟨htype, hinfo⟩ := hcarries
      rw [List.find?_cons_of_pos (by rw [htype]; exact beq_self_eq_true _), Option.bind_some,
        decodeRetryDelay_read hinfo hshort]
      rfl
    | other typeUrl value =>
      obtain rfl : any.1 = typeUrl := hcarries
      rw [List.find?_cons_of_neg (by simpa using hothers _ _ mem_cons_self), ih]
      rfl

end Messages

/-! ## One entry of the trailing metadata -/

/-- The bytes under the key of the details, where the last entry counts. -/
def HoldsDetails (trailing : List (String × MetadataValue)) (raw : Bytes) : Prop :=
  ∃ key before after, trailing = before ++ (key, .bytes raw) :: after ∧ key.toLower = statusDetailsKey ∧
    ∀ kv ∈ after, kv.1.toLower ≠ statusDetailsKey

theorem statusDetails_of_holds (x : StatusPlatform) {trailing : List (String × MetadataValue)} {raw : Bytes}
    (h : HoldsDetails trailing raw) : statusDetails x trailing = statusDetails x (pythonTrailer raw) := by
  obtain ⟨key, before, after, rfl, hkey, hafter⟩ := h
  have hkept : ∀ {l : List (String × MetadataValue)} (raw : Option MetadataValue),
      (∀ kv ∈ l, kv.1.toLower ≠ statusDetailsKey) →
      l.foldl (fun raw kv => if kv.1.toLower = statusDetailsKey then some kv.2 else raw) raw = raw := by
    intro l raw hl
    induction l with
    | nil => rfl
    | cons kv l ih =>
      rw [forall_mem_cons] at hl
      rw [foldl_cons, if_neg hl.1, ih hl.2]
  rw [statusDetails_trailer, statusDetails, foldl_append, foldl_cons, if_pos hkey, hkept _ hafter]
  exact handle_status x raw

/-- The platform with standard UTF-8 and exact arithmetic. -/
def exactPlatform : StatusPlatform := ⟨ofUtf8?, id⟩

/-- **The details of a refused call are read without raising, and as they were sent.** -/
theorem status_details_read_back :
    (∀ (x : StatusPlatform) (trailing : List (String × MetadataValue)),
      (∃ r, reason x trailing = .ok r) ∧
      (∃ metadata, errorMetadata x trailing = .ok metadata) ∧
      (∃ code, macpCode x trailing = .ok code) ∧
      (∃ delay, retryAfter x trailing = .ok delay)) ∧
    ∀ (status : SeamStatus) (raw : Bytes) (trailing : List (String × MetadataValue)),
      IsStatus status raw → raw.length < 2 ^ 63 → HoldsDetails trailing raw →
      reason exactPlatform trailing = .ok (some status.reason) ∧
      errorMetadata exactPlatform trailing = .ok (some status.metadata.entries) ∧
      macpCode exactPlatform trailing =
        .ok (if status.reason = protocolReason then getItem status.metadata.entries "macp_code" else none) ∧
      retryAfter exactPlatform trailing =
        .ok (status.delay.map fun d => (d.1.toInt + d.2.toInt / 10 ^ 9 : Rat)) := by
  refine ⟨fun x trailing => ⟨reason_ok x trailing, errorMetadata_ok x trailing, macpCode_ok x trailing,
    retryAfter_ok x trailing⟩, ?_⟩
  intro status raw trailing hstatus hraw htrailing
  have hx : ∀ s, exactPlatform.decodeUtf8 (utf8 s) = some s := ofUtf8?_utf8
  obtain ⟨anys, hdetails, hall⟩ := statusDetails_read hx hstatus hraw
  rw [← statusDetails_of_holds exactPlatform htrailing] at hdetails
  have hinfo := seamErrorInfo_read hx hall fun typeUrl value hmem => (status.others typeUrl value hmem).1
  have hretry := retryDelay_read (x := exactPlatform) hall fun typeUrl value hmem =>
    (status.others typeUrl value hmem).2
  rw [status.errorInfos] at hinfo
  rw [status.retryInfos] at hretry
  refine ⟨bind_ok.mpr ⟨anys, hdetails, bind_ok.mpr ⟨_, hinfo, rfl⟩⟩,
    bind_ok.mpr ⟨anys, hdetails, bind_ok.mpr ⟨_, hinfo, rfl⟩⟩, ?_, ?_⟩
  · rw [macpCode_eq exactPlatform trailing hdetails hinfo]
    exact congrArg Except.ok (ite_not ..)
  · rw [retryAfter_eq exactPlatform trailing hdetails, hretry]
    cases status.delay <;> rfl

/-! ### A status with fields that Python does not know -/

/-- A refusal with a delay of `-1 s` and `5 ns`. -/
def sampleStatus : SeamStatus where
  code := 8
  message := ""
  details := [.errorInfo "QUOTA_EXCEEDED" ⟨[("cell", "eu-1")], by simp⟩, .retryInfo (-1) 5]
  reason := "QUOTA_EXCEEDED"
  metadata := ⟨[("cell", "eu-1")], by simp⟩
  delay := some (-1, 5)
  errorInfos := rfl
  retryInfos := rfl
  others := by simp

def sampleErrorInfo : List Field :=
  [⟨1, by decide, .bytes (utf8 "QUOTA_EXCEEDED")⟩, ⟨9, by decide, .fixed32 fun _ => 7⟩,
    ⟨3, by decide, .bytes (encode [⟨2, by decide, .bytes (utf8 "eu-1")⟩, ⟨1, by decide, .bytes (utf8 "cell")⟩])⟩,
    ⟨2, by decide, .bytes (utf8 seamErrorDomain)⟩]

def sampleRetryInfo : List Field :=
  [⟨1, by decide, .bytes (encode [⟨1, by decide, .varint (Int64.toUInt64 (-1))⟩, ⟨2, by decide, .varint 5⟩])⟩]

def sampleFields : List Field :=
  [⟨1, by decide, .varint 8⟩, ⟨15, by decide, .fixed64 fun _ => 0⟩,
    ⟨3, by decide, .bytes (encode [⟨1, by decide, .bytes (utf8 errorInfoType)⟩,
      ⟨2, by decide, .bytes (encode sampleErrorInfo)⟩])⟩,
    ⟨3, by decide, .bytes (encode [⟨1, by decide, .bytes (utf8 retryInfoType)⟩, ⟨4, by decide, .varint 1⟩,
      ⟨2, by decide, .bytes (encode sampleRetryInfo)⟩])⟩]

theorem isStatus_sample : IsStatus sampleStatus (encode sampleFields) := by
  refine ⟨sampleFields, rfl, .inl rfl, .inr ⟨rfl, rfl⟩, .cons ⟨encode sampleErrorInfo, ?_, _, rfl, .inl rfl, .inl rfl⟩
    (.cons ⟨encode sampleRetryInfo, ?_, _, rfl, .inl rfl, .inl rfl⟩ .nil)⟩
  · exact ⟨sampleErrorInfo, rfl, .inl rfl, .inl rfl, .cons ⟨_, rfl, .inl rfl, .inl rfl⟩ .nil⟩
  · exact ⟨sampleRetryInfo, _, rfl, rfl, _, rfl, .inl rfl, .inl rfl⟩

theorem status_details_sample :
    retryAfter exactPlatform (pythonTrailer (encode sampleFields)) = .ok (some (-1 + 5 / 10 ^ 9)) := by
  have hkey : statusDetailsKey.toLower = statusDetailsKey := by decide +kernel
  have hread := (status_details_read_back.2 sampleStatus (encode sampleFields) (pythonTrailer (encode sampleFields))
    isStatus_sample (by decide +kernel) ⟨statusDetailsKey, [], [], rfl, hkey, by simp⟩).2.2.2
  have hseconds : Int64.toInt (-1) = -1 := by decide
  have hnanos : Int32.toInt 5 = 5 := by decide
  simp only [hread, sampleStatus, Option.map_some, hseconds, hnanos]
  norm_num

end Python

end SeamSdk
