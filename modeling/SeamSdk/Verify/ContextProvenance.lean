import SeamSdk.Verify.BundleMembers

/-!
# What a context digest binds

`context.json` lists the bindings a decision was made under. Each is read from a JSON object into the slots that are
hashed (`readBinding`), and the digest is that of all slots in order (`contextDigest_ok_iff`). The numbers of bindings
and of the texts a binding is derived from stand before their lists, so the bytes determine the slots
(`contextLayout_inj`), and without a collision so does the digest (`bindings_agree`).
-/

namespace SeamSdk

open ByteCodec Checked List

/-- The string at a key; nothing when the key is missing or `null`. -/
def textAt (j : Json) (k : String) : Option String := (j.get? k).bind Json.asStr?

/-- Missing, `null`, or a string. -/
def AbsentOrText (j : Json) (k : String) : Prop := j.get? k = none ∨ j.get? k = some .null ∨ ∃ s, j.get? k = some (.str s)

def requiredTexts : List String := ["ctx_ref", "fidelity", "classification"]

def tailTexts : List String := ["content_hash", "receipt_hash", "key_status", "resolved_status", "receipt_key_status"]

/-- Every slot that is a text. -/
def contextTexts : List String := requiredTexts ++ "lineage_id" :: tailTexts

def versionAt (j : Json) : Option UInt32 := (j.get? "version").bind Serde.u32

def derivedAt (j : Json) : Option (List String) := (j.get? "derived_from").bind Json.strList?

/-- The slots of a binding. -/
structure ContextBinding where
  ctxRef : String
  fidelity : String
  classification : String
  lineageId : Option String
  version : UInt32
  derivedFrom : List String
  contentHash : Option String
  receiptHash : Option String
  keyStatus : Option String
  resolvedStatus : Option String
  receiptKeyStatus : Option String

namespace ContextBinding

variable (b : ContextBinding)

/-- The slots up to the number of texts a binding is derived from. -/
def headParts : List Part :=
  [.frame (utf8 b.ctxRef), .frame (utf8 b.fidelity), .frame (utf8 b.classification), .opt (b.lineageId.map utf8),
    .frame (u32le b.version), .raw (u32le (UInt32.ofNat b.derivedFrom.length))]

def tailParts : List Part :=
  [.opt (b.contentHash.map utf8), .opt (b.receiptHash.map utf8), .opt (b.keyStatus.map utf8),
    .opt (b.resolvedStatus.map utf8), .opt (b.receiptKeyStatus.map utf8)]

def parts : List Part := b.headParts ++ (frames (b.derivedFrom.map utf8) ++ b.tailParts)

end ContextBinding

/-- What is read from a JSON object. -/
def readBinding (j : Json) : ContextBinding where
  ctxRef := (textAt j "ctx_ref").getD ""
  fidelity := (textAt j "fidelity").getD ""
  classification := (textAt j "classification").getD ""
  lineageId := textAt j "lineage_id"
  version := (versionAt j).getD 0
  derivedFrom := (derivedAt j).getD []
  contentHash := textAt j "content_hash"
  receiptHash := textAt j "receipt_hash"
  keyStatus := textAt j "key_status"
  resolvedStatus := textAt j "resolved_status"
  receiptKeyStatus := textAt j "receipt_key_status"

def contextBindings (ctx : Json) : Option (List Json) := (ctx.get? "bindings").bind Json.asArr?

/-- The parts that are hashed. -/
def contextLayout (bs : List ContextBinding) : List Part :=
  .frame (utf8 "seam.audit.context-provenance.v4") :: .raw (u32le (UInt32.ofNat bs.length)) ::
    bs.flatMap ContextBinding.parts

/-- The bytes that are hashed. -/
def contextPreimage (ctx : Json) : Bytes := layout (contextLayout (((contextBindings ctx).getD []).map readBinding))

/-! ## What is accepted -/

/-- Every slot is there and of its type. -/
structure Slotted (j : Json) : Prop where
  required : ∀ k ∈ requiredTexts, (textAt j k).isSome = true
  lineageId : AbsentOrText j "lineage_id"
  version : (versionAt j).isSome = true
  derivedFrom : (derivedAt j).isSome = true
  tail : ∀ k ∈ tailTexts, AbsentOrText j k

/-- The slots of a receipt are both there or both absent, and the status of its key is one of two words. -/
structure ReceiptPaired (j : Json) : Prop where
  paired : (textAt j "receipt_hash").isSome = (textAt j "receipt_key_status").isSome
  closed : ∀ v ∈ textAt j "receipt_key_status", v ∈ receiptKeyStatuses

variable {j ctx : Json} {x : Readers}

theorem contextStr_ok {k s : String} : contextStr j k = .ok s ↔ textAt j k = some s := demand_ok

theorem contextOpt_ok {k : String} {o : Option String} :
    contextOpt j k = .ok o ↔ AbsentOrText j k ∧ o = textAt j k := by
  unfold contextOpt AbsentOrText textAt
  cases j.get? k with
  | none => simpa [pure_ok] using eq_comm
  | some v => cases v <;> simp [pure_ok, throw_ok, Json.asStr?, eq_comm (a := o)]

/-- An array of strings, read in two steps. -/
theorem derivedEntries_ok {items : List Json} (h : (j.get? "derived_from").bind Json.asArr? = some items)
    {ds : List String} : items.mapM derivedEntry = .ok ds ↔ derivedAt j = some ds := by
  have hentries : items.mapM derivedEntry =
      demand (items.mapM Json.asStr?) "context.json: 'derived_from' entries must be strings" := mapM_demand _ _ items
  obtain ⟨v, hv, harr⟩ := Option.bind_eq_some_iff.mp h
  cases v <;> cases harr
  rw [hentries, demand_ok, derivedAt, hv]
  rfl

theorem exists_items {ds : List String} (h : derivedAt j = some ds) :
    ∃ items, (j.get? "derived_from").bind Json.asArr? = some items ∧ items.length = ds.length := by
  obtain ⟨v, hv, hlist⟩ := Option.bind_eq_some_iff.mp h
  cases v <;> try cases hlist
  rename_i items
  have hitems : (j.get? "derived_from").bind Json.asArr? = some items := by rw [hv]; rfl
  exact ⟨items, hitems, (mapM_ok.mp ((derivedEntries_ok hitems).mpr h)).length_eq⟩

/-- **One binding is read slot by slot.** -/
theorem contextParts_ok {ps : List Part} : contextParts j = .ok ps ↔ Slotted j ∧ ps = (readBinding j).parts := by
  have htail : ∀ {os}, tailTexts.mapM (contextOpt j) = .ok os ↔ (∀ k ∈ tailTexts, AbsentOrText j k) ∧
      os = tailTexts.map (textAt j) := mapM_ok_map contextOpt_ok
  have hlist : ["content_hash", "receipt_hash", "key_status", "resolved_status", "receipt_key_status"] = tailTexts := rfl
  simp only [contextParts, hlist, bind_ok, contextStr_ok, contextOpt_ok, contextVersion, htail, demand_ok, pure_ok]
  constructor
  · rintro ⟨r, hr, f, hf, c, hc, l, ⟨hl, rfl⟩, v, hv, items, hitems, ds, hds, os, ⟨hos, rfl⟩, rfl⟩
    have hderived := (derivedEntries_ok hitems).mp hds
    have hversion : versionAt j = some v := hv
    refine ⟨⟨?_, hl, by rw [hversion]; rfl, by rw [hderived]; rfl, hos⟩, ?_⟩
    · simp [requiredTexts, hr, hf, hc]
    · simp [ContextBinding.parts, ContextBinding.headParts, ContextBinding.tailParts, readBinding, tailTexts, hr, hf, hc,
        hversion, hderived, (mapM_ok.mp hds).length_eq]
  · rintro ⟨hslots, rfl⟩
    have hrequired : ∀ k ∈ requiredTexts, ∃ t, textAt j k = some t :=
      fun k hk => Option.isSome_iff_exists.mp (hslots.required k hk)
    obtain ⟨r, hr⟩ := hrequired "ctx_ref" (by simp [requiredTexts])
    obtain ⟨f, hf⟩ := hrequired "fidelity" (by simp [requiredTexts])
    obtain ⟨c, hc⟩ := hrequired "classification" (by simp [requiredTexts])
    obtain ⟨v, hv⟩ := Option.isSome_iff_exists.mp hslots.version
    obtain ⟨ds, hds⟩ := Option.isSome_iff_exists.mp hslots.derivedFrom
    obtain ⟨items, hitems, hlen⟩ := exists_items hds
    refine ⟨r, hr, f, hf, c, hc, _, ⟨hslots.lineageId, rfl⟩, v, hv, items, hitems, ds,
      (derivedEntries_ok hitems).mpr hds, _, ⟨hslots.tail, rfl⟩, ?_⟩
    simp [ContextBinding.parts, ContextBinding.headParts, ContextBinding.tailParts, readBinding, tailTexts, hr, hf, hc, hv,
      hds, hlen]

theorem checkReceipt_ok {i : Nat} {u : Unit} : checkReceipt x i j = .ok u ↔
    AbsentOrText j "receipt_hash" ∧ AbsentOrText j "receipt_key_status" ∧ ReceiptPaired j := by
  simp only [checkReceipt, bind_ok, contextOpt_ok, refuse_ok, refuseSome_ok, exists_const, not_not, ne_eq]
  constructor
  · rintro ⟨_, ⟨hhash, rfl⟩, _, ⟨hstatus, rfl⟩, hpaired, hclosed⟩
    refine ⟨hhash, hstatus, hpaired, fun v hv => ?_⟩
    rw [Option.mem_def.mp hv] at hclosed
    simpa [Option.filter_some] using hclosed
  · rintro ⟨hhash, hstatus, hpair⟩
    refine ⟨_, ⟨hhash, rfl⟩, _, ⟨hstatus, rfl⟩, hpair.paired, ?_⟩
    cases hv : textAt j "receipt_key_status" with
    | none => rfl
    | some v =>
      have hmem := hpair.closed v hv
      simpa [Option.filter_some] using hmem

theorem checkReceipts_ok {u : Unit} : ∀ {i : Nat} {js : List Json}, checkReceipts x i js = .ok u ↔
    ∀ j ∈ js, AbsentOrText j "receipt_hash" ∧ AbsentOrText j "receipt_key_status" ∧ ReceiptPaired j
  | _, [] => by simp [checkReceipts, pure_ok]
  | i, j :: js => by
    rw [checkReceipts, bind_ok, forall_mem_cons]
    simp [checkReceipt_ok, checkReceipts_ok]

/-- A binding that is hashed. -/
structure BindingOk (j : Json) : Prop extends Slotted j, ReceiptPaired j

/-- **When there is a digest, and which.** -/
theorem contextDigest_ok_iff {d : Bytes} : contextDigest x ctx = .ok d ↔
    ∃ js, contextBindings ctx = some js ∧ (∀ j ∈ js, BindingOk j) ∧ x.sha256 (contextPreimage ctx) = d := by
  have hparts : ∀ {js : List Json} {pss}, js.mapM contextParts = .ok pss ↔ (∀ j ∈ js, Slotted j) ∧
      pss = js.map fun j => (readBinding j).parts := mapM_ok_map contextParts_ok
  simp only [contextDigest, bind_ok, demand_ok, checkReceipts_ok, hparts, exists_const, pure_ok]
  have hpre : ∀ {js}, contextBindings ctx = some js → contextPreimage ctx =
      layout (.frame (utf8 "seam.audit.context-provenance.v4") :: .raw (u32le (UInt32.ofNat js.length)) ::
        (js.map fun j => (readBinding j).parts).flatten) := by
    intro js hjs
    rw [contextPreimage, hjs, Option.getD_some, contextLayout, length_map, flatMap_map, flatMap_def]
  constructor
  · rintro ⟨js, hjs, hreceipts, _, ⟨hslots, rfl⟩, rfl⟩
    exact ⟨js, hjs, fun j hj => ⟨hslots j hj, (hreceipts j hj).2.2⟩, by rw [hpre hjs]⟩
  · rintro ⟨js, hjs, hok, rfl⟩
    refine ⟨js, hjs, fun j hj => ?_, _, ⟨fun j hj => (hok j hj).toSlotted, rfl⟩, by rw [hpre hjs]⟩
    have hj := hok j hj
    exact ⟨hj.tail _ (by simp [tailTexts]), hj.tail _ (by simp [tailTexts]), hj.toReceiptPaired⟩

/-! ## What the bytes determine -/

/-- The counts and the texts are short enough for their length prefixes. -/
structure ContextBinding.Short (b : ContextBinding) : Prop where
  parts : ∀ p ∈ b.parts, p.Short
  derivedFrom : b.derivedFrom.length < 2 ^ 32

theorem frames_sameShape : ∀ {as bs : List Bytes}, as.length = bs.length →
    List.Forall₂ Part.SameShape (frames as) (frames bs)
  | [], [], _ => .nil
  | _ :: _, _ :: _, h => .cons trivial (frames_sameShape (Nat.succ_inj.mp h))

/-- **A binding can be split off**: the number of texts it is derived from stands before them. -/
theorem ContextBinding.parts_split {b b' : ContextBinding} {r s : Bytes} (hb : b.Short) (hb' : b'.Short)
    (h : layout b.parts ++ r = layout b'.parts ++ s) : b = b' ∧ r = s := by
  obtain ⟨hshort, hcount⟩ := hb
  obtain ⟨hshort', hcount'⟩ := hb'
  simp only [parts, forall_mem_append] at hshort hshort'
  simp only [parts, layout_append, append_assoc] at h
  have hheads : List.Forall₂ Part.SameShape b.headParts b'.headParts := by
    simp [headParts, Part.SameShape]
  obtain ⟨hhead, h⟩ := layout_split hheads hshort.1 hshort'.1 h
  have hopt : Function.Injective (Option.map utf8) := Option.map_injective utf8_injective
  simp only [headParts, List.cons.injEq, Part.frame.injEq, Part.opt.injEq, Part.raw.injEq, utf8_inj, u32le_inj,
    hopt.eq_iff, and_true] at hhead
  obtain ⟨hctx, hfidelity, hclass, hlineage, hversion, hlen⟩ := hhead
  have hlength : b.derivedFrom.length = b'.derivedFrom.length :=
    u32le_length_inj hcount hcount' (u32le_inj.mpr hlen)
  obtain ⟨hframes, h⟩ := layout_split (frames_sameShape (by simpa using hlength)) hshort.2.1 hshort'.2.1 h
  have htails : List.Forall₂ Part.SameShape b.tailParts b'.tailParts := by
    simp [tailParts, Part.SameShape]
  obtain ⟨htail, hrs⟩ := layout_split htails hshort.2.2 hshort'.2.2 h
  have hderived : b.derivedFrom = b'.derivedFrom :=
    map_injective_iff.mpr utf8_injective (map_injective_iff.mpr (fun _ _ h => Part.frame.inj h) hframes)
  simp only [tailParts, List.cons.injEq, Part.opt.injEq, hopt.eq_iff, and_true] at htail
  refine ⟨?_, hrs⟩
  cases b
  cases b'
  rw [ContextBinding.mk.injEq]
  exact ⟨hctx, hfidelity, hclass, hlineage, hversion, hderived, htail⟩

/-- **The bytes determine the bindings.** -/
theorem contextLayout_inj {bs bs' : List ContextBinding} (hb : ∀ b ∈ bs, b.Short) (hb' : ∀ b ∈ bs', b.Short)
    (hlen : bs.length < 2 ^ 32) (hlen' : bs'.length < 2 ^ 32)
    (h : layout (contextLayout bs) = layout (contextLayout bs')) : bs = bs' := by
  simp only [contextLayout, layout_cons] at h
  have h := append_cancel_left h
  obtain ⟨hcount, h⟩ := append_inj h (by simp [Part.bytes])
  exact records_split ContextBinding.parts_split (u32le_length_inj hlen hlen' hcount) hb hb' h

/-! ## Two documents -/

/-- The slots agree. -/
structure SameBinding (j j' : Json) : Prop where
  texts : ∀ k ∈ contextTexts, textAt j k = textAt j' k
  version : versionAt j = versionAt j'
  derivedFrom : derivedAt j = derivedAt j'

/-- Counts and fields below `2 ^ 32`. -/
structure ShortContext (ctx : Json) : Prop where
  bindings : ∀ js ∈ contextBindings ctx, js.length < 2 ^ 32
  texts : ∀ js ∈ contextBindings ctx, ∀ j ∈ js, ∀ k ∈ contextTexts, ∀ t ∈ textAt j k, (utf8 t).length < 2 ^ 32
  derivedFrom : ∀ js ∈ contextBindings ctx, ∀ j ∈ js, ∀ ds ∈ derivedAt j, ds.length < 2 ^ 32 ∧
    ∀ d ∈ ds, (utf8 d).length < 2 ^ 32

theorem ShortContext.readBinding (h : ShortContext ctx) {js : List Json} (hjs : contextBindings ctx = some js)
    (hj : j ∈ js) : (readBinding j).Short := by
  have htext : ∀ k ∈ contextTexts, ∀ t, textAt j k = some t → (utf8 t).length < 2 ^ 32 :=
    fun k hk t ht => h.texts js hjs j hj k hk t ht
  have hframe : ∀ k ∈ contextTexts, (Part.frame (utf8 ((textAt j k).getD ""))).Short := by
    intro k hk
    cases ht : textAt j k with
    | none => exact Nat.two_pow_pos 32
    | some t => exact htext k hk t ht
  have hopt : ∀ k ∈ contextTexts, (Part.opt ((textAt j k).map utf8)).Short := by
    intro k hk b hb
    obtain ⟨t, ht, rfl⟩ := Option.map_eq_some_iff.mp (Option.mem_def.mp hb)
    exact htext k hk t ht
  have hderived : ((derivedAt j).getD []).length < 2 ^ 32 ∧
      ∀ d ∈ (derivedAt j).getD [], (utf8 d).length < 2 ^ 32 := by
    cases hds : derivedAt j with
    | none => exact ⟨Nat.two_pow_pos 32, nofun⟩
    | some ds => exact h.derivedFrom js hjs j hj ds hds
  simp only [contextTexts, requiredTexts, tailTexts, forall_mem_append, forall_mem_cons] at hframe hopt
  obtain ⟨⟨hctx, hfidelity, hclass, -⟩, -⟩ := hframe
  obtain ⟨-, hlineage, hcontent, hreceipt, hkey, hresolved, hstatus, -⟩ := hopt
  refine ⟨?_, hderived.1⟩
  simp only [ContextBinding.parts, ContextBinding.headParts, ContextBinding.tailParts, forall_mem_append,
    forall_mem_cons, not_mem_nil, false_implies, implies_true, and_true]
  refine ⟨⟨hctx, hfidelity, hclass, hlineage, ?_, trivial⟩, ?_, hcontent, hreceipt, hkey, hresolved, hstatus⟩
  · rw [Part.Short, length_u32le]
    decide
  · intro p hp
    obtain ⟨b, hb, rfl⟩ := mem_map.mp hp
    obtain ⟨d, hd, rfl⟩ := mem_map.mp hb
    exact hderived.2 d hd

theorem sameBinding_of_readBinding {j' : Json} (hj : Slotted j) (hj' : Slotted j')
    (h : readBinding j = readBinding j') : SameBinding j j' := by
  have hget : ∀ {α : Type} {o o' : Option α} {a : α}, o.isSome = true → o'.isSome = true →
      o.getD a = o'.getD a → o = o' := by
    intro α o o' a ho ho' heq
    obtain ⟨v, rfl⟩ := Option.isSome_iff_exists.mp ho
    obtain ⟨v', rfl⟩ := Option.isSome_iff_exists.mp ho'
    exact congrArg some heq
  simp only [readBinding, ContextBinding.mk.injEq] at h
  obtain ⟨hctx, hfidelity, hclass, hlineage, hversion, hderived, htail⟩ := h
  have hrequired := hj.required
  have hrequired' := hj'.required
  simp only [requiredTexts, forall_mem_cons, not_mem_nil, false_implies, implies_true, and_true]
    at hrequired hrequired'
  refine ⟨?_, hget hj.version hj'.version hversion, hget hj.derivedFrom hj'.derivedFrom hderived⟩
  simp only [contextTexts, requiredTexts, tailTexts, forall_mem_append, forall_mem_cons, not_mem_nil,
    false_implies, implies_true, and_true]
  exact ⟨⟨hget hrequired.1 hrequired'.1 hctx, hget hrequired.2.1 hrequired'.2.1 hfidelity,
    hget hrequired.2.2 hrequired'.2.2 hclass⟩, hlineage, htail⟩

/-- **Documents with one digest agree slot by slot.** -/
theorem bindings_agree {ctx' : Json} {d : Bytes} (h : contextDigest x ctx = .ok d) (h' : contextDigest x ctx' = .ok d)
    (hshort : ShortContext ctx) (hshort' : ShortContext ctx')
    (hcollision : x.CollisionFree [contextPreimage ctx, contextPreimage ctx']) :
    ∃ js js', contextBindings ctx = some js ∧ contextBindings ctx' = some js' ∧ List.Forall₂ SameBinding js js' := by
  obtain ⟨js, hjs, hok, hdigest⟩ := contextDigest_ok_iff.mp h
  obtain ⟨js', hjs', hok', hdigest'⟩ := contextDigest_ok_iff.mp h'
  have hpre : contextPreimage ctx = contextPreimage ctx' :=
    hcollision _ mem_cons_self _ (mem_cons_of_mem _ mem_cons_self) (hdigest.trans hdigest'.symm)
  simp only [contextPreimage, hjs, hjs', Option.getD_some] at hpre
  have hbindings : js.map readBinding = js'.map readBinding := by
    apply contextLayout_inj _ _ _ _ hpre
    · rintro _ hb
      obtain ⟨j, hj, rfl⟩ := mem_map.mp hb
      exact hshort.readBinding hjs hj
    · rintro _ hb
      obtain ⟨j, hj, rfl⟩ := mem_map.mp hb
      exact hshort'.readBinding hjs' hj
    · rw [length_map]
      exact hshort.bindings js hjs
    · rw [length_map]
      exact hshort'.bindings js' hjs'
  refine ⟨js, js', hjs, hjs', ?_⟩
  clear h h' hdigest hdigest' hpre hjs hjs'
  induction js generalizing js' with
  | nil =>
    rw [map_nil, eq_comm, map_eq_nil_iff] at hbindings
    rw [hbindings]
    exact .nil
  | cons j js ih =>
    cases js' with
    | nil => cases hbindings
    | cons j' js' =>
      rw [map_cons, map_cons, List.cons.injEq] at hbindings
      rw [forall_mem_cons] at hok hok'
      exact .cons (sameBinding_of_readBinding hok.1.toSlotted hok'.1.toSlotted hbindings.1)
        (ih hok.2 js' hok'.2 hbindings.2)

end SeamSdk
