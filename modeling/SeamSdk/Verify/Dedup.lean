import SeamSdk.Lib.Checked
import SeamSdk.Verify.Identity
import Mathlib.Data.List.Induction

/-!
# Collapsing retried deliveries

`dedup` keeps the first copy of each event, told by its identity bytes, and refuses two different chained events that
wear one `event_id`.

- `dedup_eq_ok_iff`: it keeps `firstCopies`, and accepts exactly when their chained ids are distinct;
- `mem_firstCopies`: no event is lost, when events carry their identity.
-/

namespace SeamSdk

open ByteCodec Checked List

/-- What `dedup` carries from event to event. -/
structure Dedup where
  seen : List Bytes
  chained : Std.ExtTreeMap String Bytes
  out : List Event
  duplicates : Nat

def impostorMessage (e : Event) : String :=
  s!"chained event_id {e.eventId} appears TWICE with DIFFERENT content.\n  " ++
  "A chained event's id embeds the audit sequence, a primary key — it cannot " ++
  "legitimately repeat. These are two different events wearing one identity: one is " ++
  "a forgery, and which one you accepted would depend on arrival order."

/-- The loop body of `dedup`. Only chained events have unique ids: a quiet stream repeats the id of its anchors. -/
def dedupStep (s : Dedup) (e : Event) : Except String Dedup :=
  if s.seen.contains e.bytes then return { s with duplicates := s.duplicates + 1 }
  else do
    refuse (e.isLink = true ∧ s.chained[e.eventId]?.any (· != e.bytes) = true) (impostorMessage e)
    return { s with
      seen := e.bytes :: s.seen
      chained := if e.isLink then s.chained.insert e.eventId e.bytes else s.chained
      out := s.out ++ [e] }

/-- Collapse at-least-once duplicates. -/
def dedup (events : List Event) : Except String (List Event × Nat) := do
  let s ← events.foldlM dedupStep ⟨[], ∅, [], 0⟩
  return (s.out, s.duplicates)

/-! ## First copies -/

/-- Keep an event unless its bytes are there already. -/
def keepFirst (out : List Event) (e : Event) : List Event :=
  if out.any fun f => f.bytes == e.bytes then out else out ++ [e]

/-- The first copy of each event. -/
def firstCopies (es : List Event) : List Event := es.foldl keepFirst []

/-- Chained events with distinct ids. -/
def DistinctIds (es : List Event) : Prop :=
  es.Pairwise fun e f => e.isLink = true → f.isLink = true → e.eventId ≠ f.eventId

theorem firstCopies_snoc (es : List Event) (e : Event) : firstCopies (es ++ [e]) = keepFirst (firstCopies es) e := by
  simp [firstCopies]

variable {es out : List Event} {e : Event} {s : Dedup}

theorem keepFirst_of_mem {f : Event} (hf : f ∈ out) (h : f.bytes = e.bytes) : keepFirst out e = out := by
  rw [keepFirst, if_pos (any_eq_true.mpr ⟨f, hf, by simp [h]⟩)]

theorem keepFirst_of_new (h : ∀ f ∈ out, f.bytes ≠ e.bytes) : keepFirst out e = out ++ [e] := by
  rw [keepFirst, if_neg]
  simpa using h

/-- Either the event has a copy among the kept ones, or it is kept. -/
theorem keepFirst_cases (out : List Event) (e : Event) : ((∃ f ∈ out, f.bytes = e.bytes) ∧ keepFirst out e = out) ∨
      ((∀ f ∈ out, f.bytes ≠ e.bytes) ∧ keepFirst out e = out ++ [e]) := by
  by_cases h : ∃ f ∈ out, f.bytes = e.bytes
  · obtain ⟨f, hf, hb⟩ := h
    exact .inl ⟨⟨f, hf, hb⟩, keepFirst_of_mem hf hb⟩
  · have hnew : ∀ f ∈ out, f.bytes ≠ e.bytes := fun f hf hb => h ⟨f, hf, hb⟩
    exact .inr ⟨hnew, keepFirst_of_new hnew⟩

theorem mem_of_mem_firstCopies (h : e ∈ firstCopies es) : e ∈ es := by
  induction es using List.reverseRecOn with
  | nil => simp [firstCopies] at h
  | append_singleton es f ih =>
    rw [firstCopies_snoc] at h
    rcases keepFirst_cases (firstCopies es) f with ⟨-, hk⟩ | ⟨-, hk⟩ <;> rw [hk] at h
    · exact mem_append_left _ (ih h)
    · rcases mem_append.mp h with h | h
      · exact mem_append_left _ (ih h)
      · exact mem_append_right _ h

theorem exists_firstCopy (h : e ∈ es) : ∃ f ∈ firstCopies es, f.bytes = e.bytes := by
  induction es using List.reverseRecOn with
  | nil => cases h
  | append_singleton es g ih =>
    rw [firstCopies_snoc]
    rcases keepFirst_cases (firstCopies es) g with ⟨hcopy, hk⟩ | ⟨-, hk⟩ <;> rw [hk] <;>
      rcases mem_append.mp h with h | h
    · exact ih h
    · rw [mem_singleton.mp h]
      exact hcopy
    · obtain ⟨f, hf, hb⟩ := ih h
      exact ⟨f, mem_append_left _ hf, hb⟩
    · exact ⟨e, mem_append_right _ h, rfl⟩

/-- **No event is lost**, when events carry their identity. -/
theorem mem_firstCopies (hid : ∀ e ∈ es, HasIdentity e) : e ∈ firstCopies es ↔ e ∈ es := by
  constructor
  · exact mem_of_mem_firstCopies
  · intro h
    obtain ⟨f, hf, hb⟩ := exists_firstCopy h
    have hfe : f = e := (hid f (mem_of_mem_firstCopies hf)).eq_of_bytes_eq (hid e h) hb
    rwa [hfe] at hf

/-! ## What is accepted -/

/-- The last of the kept links with an id. -/
def keptLink (out : List Event) (id : String) : Option Event :=
  out.reverse.find? fun f => f.isLink && f.eventId == id

/-- The state of a run that has read `es`. -/
structure Deduped (es : List Event) (s : Dedup) : Prop where
  out : s.out = firstCopies es
  seen : ∀ b, b ∈ s.seen ↔ ∃ f ∈ firstCopies es, f.bytes = b
  chained : ∀ id : String, s.chained[id]? = (keptLink (firstCopies es) id).map Event.bytes
  count : s.duplicates + (firstCopies es).length = es.length

/-- An event `dedup` goes on after: a copy, or no impostor of a chained event. -/
def Admissible (es : List Event) (e : Event) : Prop :=
  (∃ f ∈ firstCopies es, f.bytes = e.bytes) ∨
    ∀ f ∈ firstCopies es, f.isLink = true → e.isLink = true → f.eventId ≠ e.eventId

theorem distinctIds_snoc (es : List Event) (e : Event) :
    DistinctIds (firstCopies (es ++ [e])) ↔ DistinctIds (firstCopies es) ∧ Admissible es e := by
  rw [firstCopies_snoc, Admissible]
  rcases keepFirst_cases (firstCopies es) e with ⟨hcopy, hk⟩ | ⟨hnew, hk⟩ <;> rw [hk]
  · simp [hcopy]
  · have hno : ¬∃ f ∈ firstCopies es, f.bytes = e.bytes := fun ⟨f, hf, hb⟩ => hnew f hf hb
    simp [DistinctIds, pairwise_append, hno]

theorem keptLink_snoc (out : List Event) (e : Event) (id : String) :
    keptLink (out ++ [e]) id = if e.isLink = true ∧ e.eventId = id then some e else keptLink out id := by
  rw [keptLink, keptLink, reverse_append, reverse_singleton, singleton_append, List.find?_cons]
  by_cases h : e.isLink = true ∧ e.eventId = id
  · simp [h]
  · have hf : (e.isLink && e.eventId == id) = false := by
      rw [Bool.eq_false_iff]
      simpa using h
    rw [hf, if_neg h]

/-- A new event meets no entry of its own bytes, so an entry of its id is another's. -/
theorem Deduped.clash_iff (h : Deduped es s) (hnew : ∀ f ∈ firstCopies es, f.bytes ≠ e.bytes) :
    s.chained[e.eventId]?.any (· != e.bytes) = true ↔
      ∃ f ∈ firstCopies es, f.isLink = true ∧ f.eventId = e.eventId := by
  rw [h.chained]
  cases hk : keptLink (firstCopies es) e.eventId with
  | none =>
    rw [keptLink, List.find?_eq_none] at hk
    simpa using hk
  | some f =>
    have hf : f ∈ firstCopies es := mem_reverse.mp (mem_of_find?_eq_some hk)
    have hp := List.find?_some hk
    rw [Bool.and_eq_true, beq_iff_eq] at hp
    simp only [Option.map_some, Option.any_some, bne_iff_ne, ne_eq, hnew f hf, not_false_eq_true, true_iff]
    exact ⟨f, hf, hp⟩

theorem dedupStep_of_copy (h : Deduped es s) (hcopy : ∃ f ∈ firstCopies es, f.bytes = e.bytes) :
    dedupStep s e = .ok { s with duplicates := s.duplicates + 1 } := by
  rw [dedupStep, if_pos (contains_iff_mem.mpr ((h.seen _).mpr hcopy))]
  rfl

theorem dedupStep_of_new {s' : Dedup} (h : Deduped es s) (hnew : ∀ f ∈ firstCopies es, f.bytes ≠ e.bytes) :
    dedupStep s e = .ok s' ↔
      (∀ f ∈ firstCopies es, f.isLink = true → e.isLink = true → f.eventId ≠ e.eventId) ∧
      { s with
        seen := e.bytes :: s.seen
        chained := if e.isLink then s.chained.insert e.eventId e.bytes else s.chained
        out := s.out ++ [e] } = s' := by
  have hseen : s.seen.contains e.bytes = false := by
    rw [Bool.eq_false_iff, ne_eq, contains_iff_mem, h.seen]
    intro hx
    rcases hx with ⟨f, hf, hb⟩
    exact hnew f hf hb
  rw [dedupStep, hseen]
  simp only [Bool.false_eq_true, if_false, bind_ok, refuse_ok, exists_const, pure_ok, h.clash_iff hnew]
  refine and_congr ?_ Iff.rfl
  constructor
  · intro hno f hf hfl hel heq
    exact hno ⟨hel, f, hf, hfl, heq⟩
  · rintro hno ⟨hel, f, hf, hfl, heq⟩
    exact hno f hf hfl hel heq

theorem Deduped.copy (h : Deduped es s) (hcopy : ∃ f ∈ firstCopies es, f.bytes = e.bytes) :
    Deduped (es ++ [e]) { s with duplicates := s.duplicates + 1 } := by
  have hk : firstCopies (es ++ [e]) = firstCopies es := by
    obtain ⟨f, hf, hb⟩ := hcopy
    rw [firstCopies_snoc, keepFirst_of_mem hf hb]
  constructor <;> rw [hk]
  · exact h.out
  · exact h.seen
  · exact h.chained
  · have := h.count
    simp only [length_append, length_singleton]
    omega

theorem Deduped.new (h : Deduped es s) (hnew : ∀ f ∈ firstCopies es, f.bytes ≠ e.bytes) : Deduped (es ++ [e]) { s with
      seen := e.bytes :: s.seen
      chained := if e.isLink then s.chained.insert e.eventId e.bytes else s.chained
      out := s.out ++ [e] } := by
  have hk : firstCopies (es ++ [e]) = firstCopies es ++ [e] := by
    rw [firstCopies_snoc, keepFirst_of_new hnew]
  constructor
  · rw [hk, h.out]
  · intro b
    simp only [hk, mem_cons, h.seen, mem_append, not_mem_nil, or_false]
    constructor
    · rintro (rfl | ⟨f, hf, hb⟩)
      · exact ⟨e, .inr rfl, rfl⟩
      · exact ⟨f, .inl hf, hb⟩
    · intro hx
      rcases hx with ⟨f, hf | rfl, hb⟩
      · exact .inr ⟨f, hf, hb⟩
      · exact .inl hb.symm
  · intro id
    rw [hk, keptLink_snoc]
    cases hl : e.isLink with
    | false => simpa using h.chained id
    | true =>
      simp only [if_true, Std.ExtTreeMap.getElem?_insert, Std.LawfulEqCmp.compare_eq_iff_eq, true_and, h.chained]
      split <;> rfl
  · have := h.count
    simp only [hk, length_append, length_singleton]
    omega

theorem Deduped.nil : Deduped [] ⟨[], ∅, [], 0⟩ := by
  constructor <;> simp [firstCopies, keptLink]

/-- A step succeeds on an admissible event, and keeps the state in step with what was read. -/
theorem dedupStep_tracks (h : Deduped es s) (ha : Admissible es e) :
    ∃ s', dedupStep s e = .ok s' ∧ Deduped (es ++ [e]) s' := by
  rcases keepFirst_cases (firstCopies es) e with ⟨hcopy, -⟩ | ⟨hnew, -⟩
  · exact ⟨_, dedupStep_of_copy h hcopy, h.copy hcopy⟩
  · rcases ha with ⟨f, hf, hb⟩ | hids
    · exact absurd hb (hnew f hf)
    · exact ⟨_, (dedupStep_of_new h hnew).mpr ⟨hids, rfl⟩, h.new hnew⟩

/-- A step that succeeds was on an admissible event. -/
theorem dedupStep_ok {s' : Dedup} (h : Deduped es s) (hs : dedupStep s e = .ok s') : Admissible es e := by
  rcases keepFirst_cases (firstCopies es) e with ⟨hcopy, -⟩ | ⟨hnew, -⟩
  · exact .inl hcopy
  · exact .inr ((dedupStep_of_new h hnew).mp hs).1

/-- **Collapsing duplicates.** The first copies are kept, and accepted when their chained ids are distinct. -/
theorem dedup_eq_ok_iff {n : Nat} : dedup es = .ok (out, n) ↔
      DistinctIds (firstCopies es) ∧ firstCopies es = out ∧ n + out.length = es.length := by
  obtain ⟨hrun, hback⟩ := foldlM_from_start (f := dedupStep) (P := Deduped) (Q := Admissible)
    (R := fun es => DistinctIds (firstCopies es)) (fun _ _ _ => dedupStep_tracks) (fun _ _ _ _ => dedupStep_ok)
    distinctIds_snoc Deduped.nil (by simp [firstCopies, DistinctIds]) es
  simp only [dedup, bind_ok, pure_ok, Prod.mk.injEq]
  constructor
  · intro h
    rcases h with ⟨s, hs, rfl, rfl⟩
    obtain ⟨hids, hd⟩ := hback s hs
    exact ⟨hids, hd.out.symm, by rw [hd.out]; exact hd.count⟩
  · intro h
    rcases h with ⟨hids, rfl, hn⟩
    obtain ⟨s, hs, hd⟩ := hrun hids
    have := hd.count
    exact ⟨s, hs, hd.out, by omega⟩

end SeamSdk
