import SeamSdk.Sdk.Streamed
import SeamSdk.Verify.CmdChain
import SeamSdk.Verify.ContextProvenance

/-!
# The context digest in Python

`context_digest_v4` on the bindings of a `context.json` as `json.loads` gives them. Slots are read one after the other,
each with the error of its type; a binding is checked before the next is read, and nothing is hashed before all are.
Lengths are packed into 32 bits, or raise.

- `Python.contextRow_of_bindingOk`: a binding the verifier takes is read to the same slots;
- `context_provenance_bound`: what a digest binds, and that the two implementations agree on it.
-/

namespace SeamSdk

open ByteCodec Checked List
open Option hiding or_self

namespace Python

inductive ContextError
  | typeError (message : String)
  | valueError (message : String)
  | keyError (key : String)
  | attributeError (message : String)
  | contextProvenanceError (message : String) (index : Nat) (field : String)
  | structError

/-- `type(value).__name__`. -/
def typeName : Json → String
  | .null => "NoneType"
  | .bool _ => "bool"
  | .num (.int _ _) => "int"
  | .num _ => "float"
  | .str _ => "str"
  | .arr _ => "list"
  | .obj _ => "dict"

def noAttribute (value : Json) (name : String) : ContextError :=
  .attributeError s!"'{typeName value}' object has no attribute '{name}'"

/-- A slot of a mapping. What is no mapping is taken for a message, and has none of its attributes. -/
def ctxGet (binding : Json) (name : String) (optional : Bool) : Except ContextError Json :=
  match binding with
  | .obj _ =>
    match binding.get? name with
    | some v => return v
    | none => if optional then return .null else throw (.keyError name)
  | _ => throw (noAttribute binding (if optional ∧ name ≠ "derived_from" then "HasField" else name))

def rdText (name : String) (value : Json) (optional : Bool) : Except ContextError (Option String) :=
  match value, optional with
  | .null, true => return none
  | .str s, _ => return some s
  | _, _ =>
    let absent := if optional then " (or None when absent)" else ""
    throw (.typeError (s!"{name} must be a str" ++ absent ++ s!", not {typeName value}"))

/-- A slot that is never `None`. -/
def rdRequired (name : String) (value : Json) : Except ContextError String := do
  return (← rdText name value false).getD ""

def uintSlot32 (name : String) : Json → Except ContextError UInt32
  | .num (.int neg n) => do
    let value := JsonNumber.signed neg n
    refuse (¬(0 ≤ value ∧ value < 2 ^ 32)) (.valueError s!"{name} is {value}, outside [0, 2^32)")
    return UInt32.ofNat value.toNat
  | v => throw (.typeError s!"{name} must be an int, not {typeName v}")

/-- `list(value)`: a string gives its characters and a mapping its keys. -/
def listOf : Json → Except ContextError (List Json)
  | .arr items => return items
  | .str s => return s.toList.map fun c => .str (String.singleton c)
  | .obj members => return (members.map Prod.fst).eraseDups.map .str
  | v => throw (.typeError s!"'{typeName v}' object is not iterable")

def derivedList (value : Json) : Except ContextError (List Json) :=
  match value with
  | .null => return []
  | v => listOf v

def derivedTexts (name : String) : Nat → List Json → Except ContextError (List String)
  | _, [] => return []
  | i, d :: ds => do
    let t ← rdRequired s!"{name}.derived_from[{i}]" d
    let ts ← derivedTexts name (i + 1) ds
    return t :: ts

section Slots

variable (name : String) (bd : Json)

def requiredSlot (n : String) : Except ContextError String := do rdRequired s!"{name}.{n}" (← ctxGet bd n false)

def optionalSlot (n : String) : Except ContextError (Option String) := do
  rdText s!"{name}.{n}" (← ctxGet bd n true) true

def versionSlot : Except ContextError UInt32 := do uintSlot32 s!"{name}.version" (← ctxGet bd "version" false)

def derivedSlot : Except ContextError (List String) := do
  derivedTexts name 0 (← derivedList (← ctxGet bd "derived_from" true))

end Slots

/-- The slot whose partner is missing. -/
def aloneSlot (receiptKeyStatus : Option String) : String :=
  if receiptKeyStatus.isNone then "receipt_hash" else "receipt_key_status"

section Digest

variable (x : Python)

def checkReceiptSlots (i : Nat) (receiptHash receiptKeyStatus : Option String) : Except ContextError Unit := do
  refuse (receiptKeyStatus.isNone ≠ receiptHash.isNone) (.contextProvenanceError
    (s!"bindings[{i}]: receipt_key_status is present exactly when receipt_hash is, and here " ++
      aloneSlot receiptKeyStatus ++
      " stands alone. The runtime refuses this at seal; refuse it rather than hash it.") i "receipt_key_status")
  refuseSome (receiptKeyStatus.filter fun v => !receiptKeyStatuses.contains v) fun v => .contextProvenanceError
    (s!"bindings[{i}]: receipt_key_status {x.showStr v} is outside the closed " ++
      "vocabulary ('Current', 'Historical') (PascalCase; ACDP's lowercase form is not it)") i "receipt_key_status"

def contextRow (i : Nat) (bd : Json) : Except ContextError ContextBinding := do
  let name := s!"bindings[{i}]"
  let ctxRef ← requiredSlot name bd "ctx_ref"
  let fidelity ← requiredSlot name bd "fidelity"
  let classification ← requiredSlot name bd "classification"
  let lineageId ← optionalSlot name bd "lineage_id"
  let version ← versionSlot name bd
  let derivedFrom ← derivedSlot name bd
  let contentHash ← optionalSlot name bd "content_hash"
  let receiptHash ← optionalSlot name bd "receipt_hash"
  let keyStatus ← optionalSlot name bd "key_status"
  let resolvedStatus ← optionalSlot name bd "resolved_status"
  let receiptKeyStatus ← optionalSlot name bd "receipt_key_status"
  checkReceiptSlots x i receiptHash receiptKeyStatus
  return ⟨ctxRef, fidelity, classification, lineageId, version, derivedFrom, contentHash, receiptHash, keyStatus,
    resolvedStatus, receiptKeyStatus⟩

def contextRows : Nat → List Json → Except ContextError (List ContextBinding)
  | _, [] => return []
  | i, bd :: bds => do
    let row ← contextRow x i bd
    let rows ← contextRows (i + 1) bds
    return row :: rows

end Digest

def packRow (b : ContextBinding) : Option Bytes := do
  let texts ← [utf8 b.ctxRef, utf8 b.fidelity, utf8 b.classification].mapM frame
  let lineageId ← packPart (.opt (b.lineageId.map utf8))
  let version ← frame (u32le b.version)
  let count ← packU32 b.derivedFrom.length
  let derived ← (b.derivedFrom.map utf8).mapM frame
  let tail ← b.tailParts.mapM packPart
  return texts.flatten ++ lineageId ++ version ++ count ++ derived.flatten ++ tail.flatten

def contextPre (rows : List ContextBinding) : Option Bytes := do
  let domain ← frame (utf8 "seam.audit.context-provenance.v4")
  let count ← packU32 rows.length
  let packed ← rows.mapM packRow
  return domain ++ count ++ packed.flatten

def contextDigestV4 (x : Python) (bindings : Json) : Except ContextError Bytes := do
  let items ← match bindings with
    | .str _ | .obj _ =>
      throw (.typeError "bindings must be a list of ContextBinding (or dicts), not a single value")
    | v => listOf v
  let rows ← contextRows x 0 items
  let pre ← demand (contextPre rows) .structError
  return x.sha256 pre

/-! ## Bindings the verifier takes -/

section Slotted

variable {name : String} {j : Json}

theorem ctxGet_of_some {k : String} {v : Json} (h : j.get? k = some v) (optional : Bool) : ctxGet j k optional = .ok v := by
  cases j <;> try cases h
  rw [ctxGet, h]
  rfl

theorem ctxGet_of_none {k : String} (hobj : j.isObj = true) (h : j.get? k = none) : ctxGet j k true = .ok .null := by
  cases j <;> try cases hobj
  rw [ctxGet, h]
  rfl

theorem requiredSlot_of_some {k t : String} (h : textAt j k = some t) : requiredSlot name j k = .ok t := by
  obtain ⟨v, hv, ht⟩ := Option.bind_eq_some_iff.mp h
  cases v <;> cases ht
  rw [requiredSlot, ctxGet_of_some hv]
  rfl

theorem optionalSlot_of_absentOrText {k : String} (hobj : j.isObj = true) (h : AbsentOrText j k) :
    optionalSlot name j k = .ok (textAt j k) := by
  rcases h with h | h | ⟨s, h⟩
  · rw [optionalSlot, ctxGet_of_none hobj h, textAt, h]
    rfl
  · rw [optionalSlot, ctxGet_of_some h, textAt, h]
    rfl
  · rw [optionalSlot, ctxGet_of_some h, textAt, h]
    rfl

theorem versionSlot_of_some {v : UInt32} (h : versionAt j = some v) : versionSlot name j = .ok v := by
  obtain ⟨w, hw, hv⟩ := Option.bind_eq_some_iff.mp h
  rw [versionSlot, ctxGet_of_some hw]
  obtain ⟨n, hn, hlt⟩ := Option.bind_eq_some_iff.mp hv
  rw [ite_none_right_eq_some] at hlt
  obtain ⟨hlt, hnv⟩ := hlt
  unfold Json.asU64? at hn
  split at hn
  · rename_i m
    rw [ite_none_right_eq_some] at hn
    have hnat : n.toNat = m := by
      rw [← Option.some.inj hn.2]
      exact UInt64.toNat_ofNat_of_lt' hn.1
    have hsigned : JsonNumber.signed false m = m := rfl
    have hrange : ¬¬(0 ≤ (m : Int) ∧ (m : Int) < 2 ^ 32) := by omega
    refine bind_ok.mpr ⟨_, rfl, ?_⟩
    rw [uintSlot32, hsigned, refuse_of_not hrange, Int.toNat_natCast, ← Option.some.inj hnv, ← hnat]
    rfl
  · cases hn

theorem derivedTexts_of_mapM : ∀ {items : List Json} {ds : List String} (i : Nat), items.mapM Json.asStr? = some ds →
    derivedTexts name i items = .ok ds
  | [], ds, i, h => by
    cases h
    rfl
  | d :: items, ds, i, h => by
    simp only [mapM_cons, Option.bind_eq_bind, Option.bind_eq_some_iff, Option.pure_def, Option.some.injEq] at h
    obtain ⟨t, ht, ts, hts, rfl⟩ := h
    cases d <;> cases ht
    rw [derivedTexts, derivedTexts_of_mapM (i + 1) hts]
    rfl

theorem derivedSlot_of_some {ds : List String} (h : derivedAt j = some ds) : derivedSlot name j = .ok ds := by
  obtain ⟨v, hv, hds⟩ := Option.bind_eq_some_iff.mp h
  cases v <;> try cases hds
  rw [derivedSlot, ctxGet_of_some hv]
  exact derivedTexts_of_mapM 0 hds

theorem checkReceiptSlots_of_paired {x : Python} {i : Nat} (h : ReceiptPaired j) :
    checkReceiptSlots x i (textAt j "receipt_hash") (textAt j "receipt_key_status") = .ok () := by
  have hpaired : (textAt j "receipt_key_status").isNone = (textAt j "receipt_hash").isNone := by
    rw [← not_isSome, ← not_isSome, h.paired]
  refine bind_ok.mpr ⟨(), refuse_ok.mpr (not_not.mpr hpaired), refuseSome_ok.mpr ?_⟩
  cases hv : textAt j "receipt_key_status" with
  | none => rfl
  | some v => simpa [filter_some] using h.closed v hv

/-- **A binding the verifier takes is read to the same slots.** -/
theorem contextRow_of_bindingOk {x : Python} {i : Nat} (h : BindingOk j) : contextRow x i j = .ok (readBinding j) := by
  have hrequired : ∀ k ∈ requiredTexts, ∀ name, requiredSlot name j k = .ok ((textAt j k).getD "") := by
    intro k hk name
    obtain ⟨t, ht⟩ := isSome_iff_exists.mp (h.required k hk)
    rw [requiredSlot_of_some ht, ht]
    rfl
  have hobj : j.isObj = true := by
    obtain ⟨t, ht⟩ := isSome_iff_exists.mp (h.required "ctx_ref" (by simp [requiredTexts]))
    cases j <;> first | rfl | cases ht
  have htail : ∀ k ∈ tailTexts, ∀ name, optionalSlot name j k = .ok (textAt j k) :=
    fun k hk name => optionalSlot_of_absentOrText hobj (h.tail k hk)
  obtain ⟨v, hv⟩ := isSome_iff_exists.mp h.version
  obtain ⟨ds, hds⟩ := isSome_iff_exists.mp h.derivedFrom
  simp only [requiredTexts, tailTexts, forall_mem_cons] at hrequired htail
  obtain ⟨hctx, hfidelity, hclass, -⟩ := hrequired
  obtain ⟨hcontent, hreceipt, hkey, hresolved, hstatus, -⟩ := htail
  simp only [contextRow, hctx, hfidelity, hclass, optionalSlot_of_absentOrText hobj h.lineageId, versionSlot_of_some hv,
    derivedSlot_of_some hds, hcontent, hreceipt, hkey, hresolved, hstatus, readBinding, hv, hds, getD_some]
  change (checkReceiptSlots x i (textAt j "receipt_hash") (textAt j "receipt_key_status") >>= fun _ => pure _) = _
  rw [checkReceiptSlots_of_paired h.toReceiptPaired]
  rfl

end Slotted

theorem contextRows_of_bindingOk {x : Python} : ∀ {js : List Json} (i : Nat), (∀ j ∈ js, BindingOk j) →
    contextRows x i js = .ok (js.map readBinding)
  | [], _, _ => rfl
  | j :: js, i, h => by
    rw [forall_mem_cons] at h
    rw [contextRows, contextRow_of_bindingOk h.1, contextRows_of_bindingOk (i + 1) h.2]
    rfl

/-! ## Packing -/

theorem packU32_of_lt {n : Nat} (h : n < 2 ^ 32) : packU32 n = some (u32le (UInt32.ofNat n)) := if_pos h

theorem frame_of_short {b : Bytes} (h : (Part.frame b).Short) : frame b = some (ByteCodec.frame b) := packPart_eq h

theorem mapM_frame_of_short {bs : List Bytes} (h : ∀ p ∈ frames bs, p.Short) :
    bs.mapM frame = some (bs.map ByteCodec.frame) :=
  mapM_some_map fun _ hb => frame_of_short (h _ (mem_map_of_mem hb))

theorem packRow_of_short {b : ContextBinding} (h : b.Short) : packRow b = some (layout b.parts) := by
  obtain ⟨hparts, hcount⟩ := h
  simp only [ContextBinding.parts, ContextBinding.headParts, forall_mem_append, forall_mem_cons] at hparts
  obtain ⟨⟨hctx, hfidelity, hclass, hlineage, hversion, -, -⟩, hderived, htail⟩ := hparts
  have htexts : [utf8 b.ctxRef, utf8 b.fidelity, utf8 b.classification].mapM frame =
      some ([utf8 b.ctxRef, utf8 b.fidelity, utf8 b.classification].map ByteCodec.frame) := by
    apply mapM_frame_of_short
    simp [frames, hctx, hfidelity, hclass]
  simp only [packRow, htexts, packPart_eq hlineage, frame_of_short hversion, packU32_of_lt hcount,
    mapM_frame_of_short hderived, mapM_packPart htail, Option.bind_eq_bind, Option.bind_some, Option.pure_def]
  simp [ContextBinding.parts, ContextBinding.headParts, layout, frames, Part.bytes, flatMap_def, Function.comp_def]

theorem contextPre_of_short {bs : List ContextBinding} (hb : ∀ b ∈ bs, b.Short) (hlen : bs.length < 2 ^ 32) :
    contextPre bs = some (layout (contextLayout bs)) := by
  have hdomain : (Part.frame (utf8 "seam.audit.context-provenance.v4")).Short := by decide
  simp only [contextPre, frame_of_short hdomain, packU32_of_lt hlen,
    mapM_some_map fun b hb' => packRow_of_short (hb b hb'), Option.bind_eq_bind, Option.bind_some, Option.pure_def]
  rw [contextLayout, layout_cons, layout_cons, layout, flatMap_assoc]
  simp [Part.bytes, layout, flatMap_def]

/-- **Python gives the digest of the verifier.** -/
theorem contextDigestV4_of_contextDigest {x : Python} {y : Readers} (hsha : x.sha256 = y.sha256) {ctx : Json}
    {js : List Json} {d : Bytes} (hjs : contextBindings ctx = some js) (h : contextDigest y ctx = .ok d)
    (hshort : ShortContext ctx) : contextDigestV4 x (.arr js) = .ok d := by
  obtain ⟨_, hjs', hok, rfl⟩ := contextDigest_ok_iff.mp h
  obtain rfl := Option.some.inj (hjs.symm.trans hjs')
  have hpre : contextPre (js.map readBinding) = some (contextPreimage ctx) := by
    rw [contextPreimage, hjs, getD_some]
    apply contextPre_of_short
    · intro b hb
      obtain ⟨j, hj, rfl⟩ := mem_map.mp hb
      exact hshort.readBinding hjs hj
    · rw [length_map]
      exact hshort.bindings js hjs
  refine bind_ok.mpr ⟨js, rfl, bind_ok.mpr ⟨_, contextRows_of_bindingOk 0 hok, ?_⟩⟩
  rw [hpre, hsha]
  rfl

end Python

/-- **Context provenance is bound.** Documents with one digest agree on every slot of every binding, a digest is given
only to paired receipt slots, and Python gives the same one. -/
theorem context_provenance_bound (x : Readers) :
    (∀ ctx ctx' d, contextDigest x ctx = .ok d → contextDigest x ctx' = .ok d → ShortContext ctx → ShortContext ctx' →
      x.CollisionFree [contextPreimage ctx, contextPreimage ctx'] →
      ∃ js js', contextBindings ctx = some js ∧ contextBindings ctx' = some js' ∧ List.Forall₂ SameBinding js js') ∧
    (∀ ctx d, contextDigest x ctx = .ok d → ∃ js, contextBindings ctx = some js ∧
      ∀ j ∈ js, (textAt j "receipt_hash").isSome = (textAt j "receipt_key_status").isSome) ∧
    ∀ (py : Python) ctx d js, py.sha256 = x.sha256 → contextDigest x ctx = .ok d → contextBindings ctx = some js →
      ShortContext ctx → py.contextDigestV4 (.arr js) = .ok d := by
  refine ⟨fun _ _ _ => bindings_agree, fun ctx d h => ?_, fun py ctx d js hsha h hjs hshort => ?_⟩
  · obtain ⟨js, hjs, hok, -⟩ := contextDigest_ok_iff.mp h
    exact ⟨js, hjs, fun j hj => (hok j hj).paired⟩
  · exact Python.contextDigestV4_of_contextDigest hsha hjs h hshort

/-- A document with one binding, whose lineage is spelled in one way or another. -/
def sampleContext (lineage : List (String × Json)) : Json :=
  .obj [("bindings", .arr [.obj ([("ctx_ref", .str "c"), ("fidelity", .str "full"), ("classification", .str ""),
    ("version", .num (.int false 1)), ("derived_from", .arr [.str "d", .str "e"]), ("receipt_hash", .str "r"),
    ("receipt_key_status", .str "Current")] ++ lineage)])]

theorem sampleContext_ok {lineage : List (String × Json)} (h : lineage = [("lineage_id", .null)] ∨ lineage = []) :
    (∃ js, contextBindings (sampleContext lineage) = some js ∧ ∀ j ∈ js, BindingOk j) ∧
      ShortContext (sampleContext lineage) := by
  have htail : ∀ j : Json, (∀ k ∈ tailTexts, j.get? k = none ∨ ((j.get? k).bind Json.asStr?).isSome = true) →
      ∀ k ∈ tailTexts, AbsentOrText j k := by
    intro j hj k hk
    refine (hj k hk).imp_right fun hsome => ?_
    obtain ⟨v, hv, ht⟩ := Option.bind_eq_some_iff.mp (some_get hsome).symm
    cases v <;> cases ht
    exact Or.inr ⟨_, hv⟩
  rcases h with rfl | rfl
  · refine ⟨⟨_, rfl, ?_⟩, ?_, ?_, ?_⟩
    · rw [forall_mem_singleton]
      exact ⟨⟨by decide, Or.inr (Or.inl rfl), by decide, by decide, htail _ (by decide)⟩, by decide, by decide⟩
    · rintro _ ⟨⟩
      decide
    · rintro _ ⟨⟩
      decide +kernel
    · rintro _ ⟨⟩
      decide +kernel
  · refine ⟨⟨_, rfl, ?_⟩, ?_, ?_, ?_⟩
    · rw [forall_mem_singleton]
      exact ⟨⟨by decide, Or.inl rfl, by decide, by decide, htail _ (by decide)⟩, by decide, by decide⟩
    · rintro _ ⟨⟩
      decide
    · rintro _ ⟨⟩
      decide +kernel
    · rintro _ ⟨⟩
      decide +kernel

/-- A lineage that is `null` and one that is missing have one digest. -/
theorem context_provenance_bound_null :
    let x := Readers.sample [] []
    let ctx := sampleContext [("lineage_id", .null)]
    let ctx' := sampleContext []
    ∃ d, contextDigest x ctx = .ok d ∧ contextDigest x ctx' = .ok d ∧
      ∃ js js', contextBindings ctx = some js ∧ contextBindings ctx' = some js' ∧ List.Forall₂ SameBinding js js' := by
  intro x ctx ctx'
  obtain ⟨⟨js, hjs, hok⟩, hshort⟩ := sampleContext_ok (Or.inl rfl)
  obtain ⟨⟨js', hjs', hok'⟩, hshort'⟩ := sampleContext_ok (Or.inr rfl)
  have hpre : contextPreimage ctx' = contextPreimage ctx := by decide +kernel
  have hdigest : contextDigest x ctx = .ok (x.sha256 (contextPreimage ctx)) :=
    contextDigest_ok_iff.mpr ⟨js, hjs, hok, rfl⟩
  have hdigest' : contextDigest x ctx' = .ok (x.sha256 (contextPreimage ctx)) :=
    contextDigest_ok_iff.mpr ⟨js', hjs', hok', congrArg x.sha256 hpre⟩
  refine ⟨_, hdigest, hdigest', (context_provenance_bound x).1 _ _ _ hdigest hdigest' hshort hshort' ?_⟩
  rw [hpre]
  intro p hp q hq _
  simp only [List.mem_cons, List.not_mem_nil, or_false, or_self] at hp hq
  rw [hp, hq]

end SeamSdk
