import SeamSdk.Lib.Comparison
import SeamSdk.Sdk.Digest

/-!
# The payload of a call signature

`call_sig` v3 signs the fields of an `AuthorizeRequest` as frames behind a context. The subjects are signed as sent;
the features are a map on the wire, so they are signed sorted by their bytes, key first. Each SDK sorts for itself:
Python compares tuples of bytes, TypeScript and Java compare byte by byte, Go compares strings.

- `Python.callSigV3Payload_eq` and its three siblings: every SDK writes the frames of the sorted features;
- `callSigParts_inj`: the frames determine the fields, with the features as a map;
- `call_sig_v3_canonical`: one payload in every SDK, for every order of the features, and for one request only.
-/

namespace SeamSdk

open ByteCodec Comparison List

/-! ## The payload in each SDK -/

/-- The signed fields of a request, with the features in the order they are enumerated in. -/
structure CallSigV3Fields where
  ticket : Bytes
  toolInputDigest : String
  toolName : String
  agentId : String
  subject : String
  subjects : List String
  clientRequestId : String
  sessionId : String
  features : List (String × String)

def callSigV3Context : String := "seam-authorize-call-v3"

/-- The features as bytes. -/
def featureBytes (features : List (String × String)) : List (Bytes × Bytes) :=
  features.map fun kv => (utf8 kv.1, utf8 kv.2)

/-- What is framed, in order: the counts stand before their lists as frames of their own. -/
def callSigParts (f : CallSigV3Fields) (nSubjects nFeatures : Bytes) (features : List (Bytes × Bytes)) : List Bytes :=
  [utf8 callSigV3Context, f.ticket, utf8 f.toolInputDigest, utf8 f.toolName, utf8 f.agentId, utf8 f.subject,
    nSubjects] ++ f.subjects.map utf8 ++ [utf8 f.clientRequestId, utf8 f.sessionId, nFeatures] ++
    features.flatMap fun kv => [kv.1, kv.2]

namespace Python

/-- `struct.pack("<I", n)`, which raises on a number that does not fit. -/
def packU32 (n : Nat) : Option Bytes := if n < 2 ^ 32 then some (u32le (UInt32.ofNat n)) else none

def frame (b : Bytes) : Option Bytes := (packU32 b.length).map (· ++ b)

/-- `<` on tuples: the first parts that differ are compared. -/
def tupleLt (p q : Bytes × Bytes) : Bool := if p.1 ≠ q.1 then decide (p.1 < q.1) else decide (p.2 < q.2)

def callSigV3Payload (f : CallSigV3Fields) : Option Bytes := do
  let feats := sortLess tupleLt (featureBytes f.features)
  let nSubjects ← packU32 f.subjects.length
  let nFeatures ← packU32 feats.length
  let parts ← (callSigParts f nSubjects nFeatures feats).mapM frame
  return parts.flatten

end Python

namespace TypeScript

/-- `u32le`, which throws on a number out of range. -/
def u32leSlot (n : Nat) : Option Bytes := if n < 2 ^ 32 then some (u32le (UInt32.ofNat n)) else none

def callSigV3Payload (f : CallSigV3Fields) : Option Bytes := do
  let features := sortBy (thenBy compareBytes compareBytes) (featureBytes f.features)
  let nSubjects ← u32leSlot f.subjects.length
  let nFeatures ← u32leSlot features.length
  return ((callSigParts f nSubjects nFeatures features).map ByteCodec.frame).flatten

end TypeScript

namespace Go

/-- The order of two features. Strings are compared by their bytes. -/
def featureLess (p q : String × String) : Bool :=
  if p.1 ≠ q.1 then decide (utf8 p.1 < utf8 q.1) else decide (utf8 p.2 < utf8 q.2)

def callSigV3Payload (f : CallSigV3Fields) : Bytes :=
  -- `sort.Slice` need not be stable, but two features that it does not order are equal
  let features := sortLess featureLess f.features
  let count (n : Nat) : Bytes := u32le (UInt32.ofNat n)
  ((callSigParts f (count f.subjects.length) (count features.length) (featureBytes features)).map
    ByteCodec.frame).flatten

end Go

namespace Java

/-- A record of references, each of which may be null. -/
structure CallSigV3Record where
  ticket : Option Bytes
  toolInputDigest : Option String
  toolName : Option String
  agentId : Option String
  subject : Option String
  subjects : Option (List (Option String))
  clientRequestId : Option String
  sessionId : Option String
  features : Option (List (Option String × Option String))

/-- The bytes of a string; null is read as empty. -/
def nz (s : Option String) : Bytes := utf8 (s.getD "")

def callSigV3Payload (f : CallSigV3Record) : Bytes :=
  let subjects := f.subjects.getD []
  -- `Arrays.compareUnsigned` on the keys, then on the values
  let features := sortBy (thenBy compareBytes compareBytes)
    ((f.features.getD []).map fun kv => (nz kv.1, nz kv.2))
  let count (n : Nat) : Bytes := u32le (UInt32.ofNat n)
  let parts := [utf8 callSigV3Context, f.ticket.getD [], nz f.toolInputDigest, nz f.toolName, nz f.agentId,
    nz f.subject, count subjects.length] ++ subjects.map nz ++ [nz f.clientRequestId, nz f.sessionId,
    count features.length] ++ features.flatMap fun kv => [kv.1, kv.2]
  (parts.map ByteCodec.frame).flatten

end Java

/-- A request without a null. -/
def CallSigV3Fields.toJava (f : CallSigV3Fields) : Java.CallSigV3Record where
  ticket := some f.ticket
  toolInputDigest := some f.toolInputDigest
  toolName := some f.toolName
  agentId := some f.agentId
  subject := some f.subject
  subjects := some (f.subjects.map some)
  clientRequestId := some f.clientRequestId
  sessionId := some f.sessionId
  features := some (f.features.map fun kv => (some kv.1, some kv.2))

/-! ## One order -/

/-- The features as they are signed. -/
def sortedFeatures (features : List (String × String)) : List (Bytes × Bytes) :=
  sortBy (thenBy compareBytes compareBytes) (featureBytes features)

theorem featureOrder_lawful : Lawful (thenBy compareBytes compareBytes) :=
  compareBytes_lawful.thenBy compareBytes_lawful

/-- An order written with `≠` and `<` is that of the comparison. -/
theorem ite_lt_iff (p q : Bytes × Bytes) : (if p.1 ≠ q.1 then decide (p.1 < q.1) else decide (p.2 < q.2)) = true ↔
      thenBy compareBytes compareBytes p q < 0 := by
  unfold thenBy
  by_cases h : p.1 = q.1
  · rw [if_neg (not_not.mpr h), if_neg (not_not.mpr ((compareBytes_eq_zero_iff _ _).mpr h)), decide_eq_true_eq,
      compareBytes_neg_iff]
  · rw [if_pos h, if_pos ((compareBytes_eq_zero_iff _ _).not.mpr h), decide_eq_true_eq, compareBytes_neg_iff]

theorem Python.sorted_eq (features : List (String × String)) :
    sortLess Python.tupleLt (featureBytes features) = sortedFeatures features :=
  featureOrder_lawful.sortLess_eq ite_lt_iff _

theorem featureBytes_injective : Function.Injective fun kv : String × String => (utf8 kv.1, utf8 kv.2) := by
  intro kv kv' h
  simp only [Prod.mk.injEq, utf8_inj] at h
  exact Prod.ext h.1 h.2

/-- Go sorts the strings, and they come out in the order of their bytes. -/
theorem Go.sorted_eq (features : List (String × String)) :
    featureBytes (sortLess Go.featureLess features) = sortedFeatures features := by
  have hless : ∀ p q, Go.featureLess p q = true ↔
      thenBy compareBytes compareBytes (utf8 p.1, utf8 p.2) (utf8 q.1, utf8 q.2) < 0 := by
    intro p q
    rw [← ite_lt_iff]
    simp only [Go.featureLess, ne_eq, utf8_inj]
  have hpull := featureOrder_lawful.comap featureBytes_injective
  rw [hpull.sortLess_eq hless]
  exact featureOrder_lawful.map_sortBy featureBytes_injective features

/-! ## What is written -/

/-- The parts every SDK frames. -/
def CallSigV3Fields.parts (f : CallSigV3Fields) : List Bytes :=
  callSigParts f (u32le (UInt32.ofNat f.subjects.length)) (u32le (UInt32.ofNat f.features.length))
    (sortedFeatures f.features)

def CallSigV3Fields.payload (f : CallSigV3Fields) : Bytes := layout (frames f.parts)

theorem flatten_frames (ps : List Bytes) : (ps.map ByteCodec.frame).flatten = layout (frames ps) := by
  simp [layout, frames, flatMap_def, map_map, Function.comp_def, Part.bytes]

theorem length_sortedFeatures (features : List (String × String)) :
    (sortedFeatures features).length = features.length := by
  rw [sortedFeatures, (sortBy_perm _).length_eq, featureBytes, length_map]

/-- Every length and every count fits 32 bits, and no feature is named twice. -/
structure CallSigV3Fields.Valid (f : CallSigV3Fields) : Prop where
  lengths : ∀ b ∈ f.parts, b.length < 2 ^ 32
  subjects : f.subjects.length < 2 ^ 32
  features : f.features.length < 2 ^ 32
  isMap : (f.features.map Prod.fst).Nodup

variable {f g : CallSigV3Fields}

theorem Go.callSigV3Payload_eq (f : CallSigV3Fields) : Go.callSigV3Payload f = f.payload := by
  have hlen : (sortLess Go.featureLess f.features).length = f.features.length := (sortLess_perm _).length_eq
  simp only [Go.callSigV3Payload, Go.sorted_eq, hlen, flatten_frames]
  rfl

theorem Java.callSigV3Payload_eq (f : CallSigV3Fields) : Java.callSigV3Payload f.toJava = f.payload := by
  have hnz : ∀ s, Java.nz (some s) = utf8 s := fun _ => rfl
  simp only [Java.callSigV3Payload, CallSigV3Fields.toJava, Option.getD_some, map_map, Function.comp_def, hnz,
    length_map, flatten_frames]
  change layout (frames (callSigParts f _ (u32le (UInt32.ofNat (sortedFeatures f.features).length)) _)) = _
  rw [length_sortedFeatures]
  rfl

theorem TypeScript.callSigV3Payload_eq (h : f.Valid) : TypeScript.callSigV3Payload f = some f.payload := by
  have hfeatures : sortBy (thenBy compareBytes compareBytes) (featureBytes f.features) = sortedFeatures f.features := rfl
  simp only [TypeScript.callSigV3Payload, TypeScript.u32leSlot, hfeatures, length_sortedFeatures, if_pos h.subjects,
    if_pos h.features, Option.bind_eq_bind, Option.bind_some, flatten_frames, Option.pure_def]
  rfl

theorem Python.mapM_frame {ps : List Bytes} (h : ∀ b ∈ ps, b.length < 2 ^ 32) :
    ps.mapM Python.frame = some (ps.map ByteCodec.frame) := by
  induction ps with
  | nil => rfl
  | cons b ps ih =>
    rw [forall_mem_cons] at h
    have hframe : Python.frame b = some (ByteCodec.frame b) := by
      rw [Python.frame, Python.packU32, if_pos h.1]
      rfl
    rw [mapM_cons, hframe, ih h.2]
    rfl

theorem Python.callSigV3Payload_eq (h : f.Valid) : Python.callSigV3Payload f = some f.payload := by
  have hmap := Python.mapM_frame h.lengths
  simp only [Python.callSigV3Payload, Python.packU32, Python.sorted_eq, length_sortedFeatures, if_pos h.subjects,
    if_pos h.features, Option.bind_eq_bind, Option.bind_some]
  rw [← CallSigV3Fields.parts, hmap]
  simp [CallSigV3Fields.payload, flatten_frames]

/-! ## The frames determine the request -/

/-- The same request: the subjects as a list, the features as a map. -/
structure CallSigV3Fields.Same (f g : CallSigV3Fields) : Prop where
  ticket : f.ticket = g.ticket
  toolInputDigest : f.toolInputDigest = g.toolInputDigest
  toolName : f.toolName = g.toolName
  agentId : f.agentId = g.agentId
  subject : f.subject = g.subject
  subjects : f.subjects = g.subjects
  clientRequestId : f.clientRequestId = g.clientRequestId
  sessionId : f.sessionId = g.sessionId
  features : ∀ kv, kv ∈ f.features ↔ kv ∈ g.features

theorem flatMap_pairs_inj : ∀ {l l' : List (Bytes × Bytes)},
    (l.flatMap fun kv => [kv.1, kv.2]) = (l'.flatMap fun kv => [kv.1, kv.2]) → l = l'
  | [], [], _ => rfl
  | [], _ :: _, h => by simp at h
  | _ :: _, [], h => by simp at h
  | kv :: l, kv' :: l', h => by
    simp only [flatMap_cons, cons_append, nil_append, List.cons.injEq] at h
    rw [Prod.ext h.1 h.2.1, flatMap_pairs_inj h.2.2]

/-- Features that are sorted alike are the same map, and the other way round. -/
theorem sortedFeatures_eq_iff {l l' : List (String × String)} (hl : (l.map Prod.fst).Nodup)
    (hl' : (l'.map Prod.fst).Nodup) : sortedFeatures l = sortedFeatures l' ↔ ∀ kv, kv ∈ l ↔ kv ∈ l' := by
  rw [← perm_ext_iff_of_nodup hl.of_map hl'.of_map]
  constructor
  · intro h
    have hsorted : (sortedFeatures l).Perm (featureBytes l) := sortBy_perm _
    have hsorted' : (sortedFeatures l').Perm (featureBytes l') := sortBy_perm _
    have hbytes : (featureBytes l).Perm (featureBytes l') := hsorted.symm.trans (h ▸ hsorted')
    exact (map_perm_map_iff featureBytes_injective).mp hbytes
  · intro h
    exact featureOrder_lawful.sortBy_eq_of_perm (h.map _)

theorem callSigParts_inj (hf : f.Valid) (hg : g.Valid) (h : f.parts = g.parts) : f.Same g := by
  simp only [CallSigV3Fields.parts, callSigParts, cons_append, nil_append, append_assoc,
    List.cons.injEq, utf8_inj, true_and] at h
  obtain ⟨hticket, hdigest, htool, hagent, hsubject, hcount, h⟩ := h
  have hlen := u32le_length_inj hf.subjects hg.subjects hcount
  obtain ⟨hsubjects, h⟩ := append_inj h (by simpa using hlen)
  simp only [List.cons.injEq, utf8_inj] at h
  obtain ⟨hrequest, hsession, -, hfeatures⟩ := h
  exact ⟨hticket, hdigest, htool, hagent, hsubject, map_injective_iff.mpr utf8_injective hsubjects, hrequest,
    hsession, (sortedFeatures_eq_iff hf.isMap hg.isMap).mp (flatMap_pairs_inj hfeatures)⟩

theorem CallSigV3Fields.Same.parts_eq (h : f.Same g) (hf : f.Valid) (hg : g.Valid) : f.parts = g.parts := by
  have hsorted := (sortedFeatures_eq_iff hf.isMap hg.isMap).mpr h.features
  have hlen : f.features.length = g.features.length := by
    rw [← length_sortedFeatures, hsorted, length_sortedFeatures]
  simp only [CallSigV3Fields.parts, callSigParts, h.ticket, h.toolInputDigest, h.toolName, h.agentId, h.subject,
    h.subjects, h.clientRequestId, h.sessionId, hsorted, hlen]

/-- **One payload for one request.** The four SDKs write the same bytes, whatever order the features come in, and the
bytes of two requests are equal exactly if the requests are the same. -/
theorem call_sig_v3_canonical (hf : f.Valid) (hg : g.Valid) :
    ∃ b b', Python.callSigV3Payload f = some b ∧ TypeScript.callSigV3Payload f = some b ∧
      Go.callSigV3Payload f = b ∧ Java.callSigV3Payload f.toJava = b ∧
      Python.callSigV3Payload g = some b' ∧ TypeScript.callSigV3Payload g = some b' ∧
      Go.callSigV3Payload g = b' ∧ Java.callSigV3Payload g.toJava = b' ∧ (b = b' ↔ f.Same g) := by
  have hshort : ∀ {f : CallSigV3Fields}, f.Valid → ∀ p ∈ frames f.parts, p.Short := by
    intro f hf p hp
    obtain ⟨b, hb, rfl⟩ := List.mem_map.mp hp
    exact hf.lengths b hb
  refine ⟨f.payload, g.payload, Python.callSigV3Payload_eq hf, TypeScript.callSigV3Payload_eq hf,
    Go.callSigV3Payload_eq f, Java.callSigV3Payload_eq f, Python.callSigV3Payload_eq hg,
    TypeScript.callSigV3Payload_eq hg, Go.callSigV3Payload_eq g, Java.callSigV3Payload_eq g, ?_, ?_⟩
  · intro h
    exact callSigParts_inj hf hg (frames_inj (hshort hf) (hshort hg) h)
  · intro h
    rw [CallSigV3Fields.payload, CallSigV3Fields.payload, h.parts_eq hf hg]

/-- A request with two features, in either order. Their keys are the other way round in UTF-16. -/
def sampleCall (k : Bool) : CallSigV3Fields where
  ticket := [1, 2, 3]
  toolInputDigest := "sha256:00"
  toolName := "pay"
  agentId := "agent"
  subject := ""
  subjects := ["s", "s"]
  clientRequestId := "r"
  sessionId := ""
  features := if k then [("～", "1"), ("😀", "2")] else [("😀", "2"), ("～", "1")]

theorem call_sig_v3_canonical_two_orders :
    (sampleCall false).Valid ∧ (sampleCall true).Valid ∧ (sampleCall false).features ≠ (sampleCall true).features ∧
      Python.callSigV3Payload (sampleCall false) = TypeScript.callSigV3Payload (sampleCall true) := by
  have hvalid : ∀ k, (sampleCall k).Valid := by
    intro k
    cases k
    · exact ⟨by decide +kernel, by decide, by decide, by decide⟩
    · exact ⟨by decide +kernel, by decide, by decide, by decide⟩
  have hsame : (sampleCall false).Same (sampleCall true) := by
    refine ⟨rfl, rfl, rfl, rfl, rfl, rfl, rfl, rfl, ?_⟩
    intro kv
    simp [sampleCall, or_comm]
  obtain ⟨b, b', hpy, -, -, -, -, hts, -, -, hiff⟩ := call_sig_v3_canonical (hvalid false) (hvalid true)
  refine ⟨hvalid false, hvalid true, by decide, ?_⟩
  rw [hpy, hts, hiff.mpr hsame]

end SeamSdk
