import SeamSdk.Lib.Classes
import SeamSdk.Verify.Dedup
import SeamSdk.Verify.Parse

/-!
# From a file to a stream

A file holds an event on each line that is not blank. Its events are read in order, retried deliveries are collapsed,
and the rest is sorted by `seq`: delivery is not ordered.

- `parseLines_ok_iff`: a file is read exactly when each of its lines is;
- `mem_stream`: the stream has the events of the file, all of them and no other;
- `eventLines_protobuf`, `parseLines_protobuf`: a file of protobuf lines is read back.
-/

namespace SeamSdk

open ByteCodec Checked

/-- `lines().filter(|l| !l.trim().is_empty())`. -/
def eventLines (raw : String) : List String := (RustText.lines raw).filter fun l => RustText.trim l != ""

section Read

variable (x : Readers)

/-- Read the events of the lines from number `i` on; an error names its line. -/
def parseLinesFrom (what : String) : Nat → List String → Except String (List Event)
  | _, [] => return []
  | i, l :: ls => do
    let e ← (Event.parse x l).mapError fun m => s!"{what} {i}: {m}"
    let es ← parseLinesFrom what (i + 1) ls
    return e :: es

def parseLines (what : String) (ls : List String) : Except String (List Event) := parseLinesFrom x what 1 ls

end Read

/-- `sort_by_key(|e| e.seq)`. -/
def sortBySeq (es : List Event) : List Event := Classes.sortByKey Event.seq es

/-- What the tool can read: named files and the standard input. -/
structure Files where
  read : String → Except String String
  stdin : Except String String

def readLines (files : Files) (path : String) : Except String (List String) := do
  let raw ← if path = "-" then files.stdin.mapError fun e => s!"stdin: {e}"
    else (files.read path).mapError fun e => s!"{path}: {e}"
  return eventLines raw

/-- The events of a file, line by line. -/
def FileEvents (x : Readers) (files : Files) (path : String) (es : List Event) : Prop :=
  ∃ ls, readLines files path = .ok ls ∧ parseLines x "line" ls = .ok es

/-! ## Reading -/

variable {x : Readers}

variable {es : List Event} {ls : List String} {what : String}

theorem parseLinesFrom_ok_iff {i : Nat} :
    parseLinesFrom x what i ls = .ok es ↔ List.Forall₂ (fun l e => Event.parse x l = .ok e) ls es := by
  induction ls generalizing i es with
  | nil =>
    rw [parseLinesFrom, pure_ok, List.forall₂_nil_left_iff]
    exact eq_comm
  | cons l ls ih =>
    simp only [parseLinesFrom, bind_ok, mapError_ok, pure_ok, ih]
    constructor
    · intro hx
      rcases hx with ⟨e, he, es', hes', rfl⟩
      exact .cons he hes'
    · intro h
      cases h with
      | cons he hes => exact ⟨_, he, _, hes, rfl⟩

/-- A file is read when each of its lines is. -/
theorem parseLines_ok_iff : parseLines x what ls = .ok es ↔ List.Forall₂ (fun l e => Event.parse x l = .ok e) ls es :=
  parseLinesFrom_ok_iff

theorem parseLines_hasIdentity (h : parseLines x what ls = .ok es) : ∀ e ∈ es, HasIdentity e := by
  have := parseLines_ok_iff.mp h
  clear h
  induction this with
  | nil => simp
  | cons he _ ih => exact List.forall_mem_cons.mpr ⟨Event.parse_hasIdentity he, ih⟩

/-! ## Ordering -/

theorem mem_sortBySeq {e : Event} : e ∈ sortBySeq es ↔ e ∈ es :=
  (Classes.sortByKey_perm _ es).mem_iff

/-- **The stream has exactly the events of the file.** -/
theorem mem_stream {out : List Event} {n : Nat} (hid : ∀ e ∈ es, HasIdentity e) (h : dedup es = .ok (out, n))
    {e : Event} : e ∈ sortBySeq out ↔ e ∈ es := by
  obtain ⟨-, rfl, -⟩ := dedup_eq_ok_iff.mp h
  rw [mem_sortBySeq, mem_firstCopies hid]

/-! ## Files of protobuf lines -/

/-- A decoder that reads the envelopes of the events given. -/
def Decodes (x : Readers) (es : List Event) : Prop :=
  ∀ e ∈ es, x.decodePb e.toPb.encodeToVec = .ok e.toPb

theorem Event.protobufLine_ne_empty (e : Event) : e.protobufLine ≠ "" := by
  intro h
  have hb := Base64.decodePadded_encodePadded Base64.standard_lawful rfl e.toPb.encodeToVec
  rw [show Base64.encodePadded Base64.standard e.toPb.encodeToVec = "" from h] at hb
  exact SeamEventPb.encodeToVec_ne_nil e.toPb_schemaVersion_ne (Option.some.inj (hb.symm.trans rfl))

theorem eventLines_protobuf (es : List Event) :
    eventLines (RustText.unlines (es.map Event.protobufLine)) = es.map Event.protobufLine := by
  have hplain : ∀ l ∈ es.map Event.protobufLine, ∀ c ∈ l.toList, RustText.isWhitespace c = false := by
    intro l hl c hc
    obtain ⟨e, -, rfl⟩ := List.mem_map.mp hl
    exact (Event.plain_of_mem_protobufLine hc).1
  rw [eventLines, RustText.lines_unlines]
  · rw [List.filter_eq_self]
    intro l hl
    rw [RustText.trim_eq_self (hplain l hl), bne_iff_ne]
    obtain ⟨e, -, rfl⟩ := List.mem_map.mp hl
    exact e.protobufLine_ne_empty
  · intro l hl
    constructor
    · intro hc
      exact absurd (hplain l hl _ hc) (by decide)
    · intro hc
      exact absurd (hplain l hl _ hc) (by decide)

/-- **A file of protobuf lines is read back.** -/
theorem parseLines_protobuf (hid : ∀ e ∈ es, e.eventId ≠ "") (hdec : Decodes x es) :
    parseLines x what (es.map Event.protobufLine) = .ok (es.map Event.withIdentity) := by
  rw [parseLines_ok_iff, List.forall₂_map_left_iff, List.forall₂_map_right_iff, List.forall₂_same]
  intro e he
  exact Event.parse_protobufLine (hid e he) (hdec e he)

end SeamSdk
