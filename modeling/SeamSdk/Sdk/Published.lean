import SeamSdk.Sdk.Issued

/-!
# A published explanation digest

A Commitment may come with its explanation digest, the entries, both or neither. Each SDK resolves what is bound for
itself, and they part where the published digest has not 32 bytes: Python binds it as it stands, TypeScript takes an
empty one as absent, Go and Java refuse it.

- `exists_boundHex_iff`: when there is something to bind;
- `digests_agree_iff`: for which Commitments the four SDKs agree;
- `empty_digest_published`: an empty digest without entries gives two digests and two refusals.
-/

namespace SeamSdk

open ByteCodec Checked Issued

section Agree

variable (py : Python) (ts : TypeScript) (go : Go) (jv : Java)

/-- One digest in every SDK, or a refusal in every SDK. -/
def DigestsAgree (c : SdkCommitment) : Prop :=
  (∃ s, py.seamCommitmentDigest c = .ok s ∧ ts.seamCommitmentDigest c = .ok s ∧ go.seamCommitmentDigest c = .ok s ∧
    jv.seamCommitmentDigest c = .ok s) ∨
  ∀ s, py.seamCommitmentDigest c ≠ .ok s ∧ ts.seamCommitmentDigest c ≠ .ok s ∧ go.seamCommitmentDigest c ≠ .ok s ∧
    jv.seamCommitmentDigest c ≠ .ok s

/-- The platforms share one hash of 32 bytes. -/
structure OneHash : Prop where
  length : ∀ b, (py.sha256 b).length = 32
  typescript : ts.sha256 = py.sha256
  go : go.sha256 = py.sha256
  java : jv.sha256 = py.sha256

end Agree

/-- A digest is published with 32 bytes, or beside entries that refute it everywhere: a digest that is not empty
matches no entries, and an empty one is refused by TypeScript only for an entry that is not canonical. -/
def SdkCommitment.PublishedAlike (c : SdkCommitment) : Prop :=
  ∀ p ∈ c.explanationDigest, p.length = 32 ∨
    ∃ es, c.explanation = some es ∧ (p ≠ [] ∨ ∃ e ∈ es, ¬e.Canonical)

variable {py : Python} {ts : TypeScript} {go : Go} {jv : Java} {c : SdkCommitment}

variable {sha256 : Bytes → Bytes}

theorem exists_boundHex_iff {published : Option Bytes} :
    (∃ s, BoundHex sha256 c published s) ↔ ∃ b, Bound sha256 published c.explanation b := by
  constructor
  · intro h
    rcases h with ⟨_, b, hb, -⟩
    exact ⟨b, hb⟩
  · intro h
    rcases h with ⟨b, hb⟩
    exact ⟨_, b, hb, rfl⟩

/-- Without entries whatever is published is bound. -/
theorem exists_bound_none {published : Option Bytes} : ∃ b, Bound sha256 published none b :=
  ⟨_, rfl⟩

/-- Beside entries a published digest is that of the entries. -/
theorem not_bound_of_length (hlen : ∀ b, (sha256 b).length = 32) {p : Bytes} (hp : p.length ≠ 32)
    (es : List ExplanationEntry) (b : Bytes) : ¬Bound sha256 (some p) (some es) b := by
  intro h
  rcases h with ⟨-, rfl, hpub⟩
  rw [hpub p rfl] at hp
  exact hp (hlen _)

/-- With nothing published the entries have a digest when each is canonical. -/
theorem exists_bound_entries {es : List ExplanationEntry} :
    (∃ b, Bound sha256 none (some es) b) ↔ ∀ e ∈ es, e.Canonical := by
  constructor
  · intro h
    rcases h with ⟨_, hcan, -, -⟩
    exact hcan
  · intro h
    refine ⟨_, h, rfl, ?_⟩
    intro p hp
    cases hp

/-- Nothing, or 32 bytes: the four SDKs agree. -/
theorem digestsAgree_of_wellPublished (hx : OneHash py ts go jv) (hc : c.WellPublished) : DigestsAgree py ts go jv c := by
  have hagree := seamCommitmentDigest_agree hc hx.typescript hx.go hx.java
  by_cases hok : ∃ s, py.seamCommitmentDigest c = .ok s
  · obtain ⟨s, hs⟩ := hok
    obtain ⟨hts, hgo, hjv⟩ := hagree s
    exact .inl ⟨s, hs, hts.mpr hs, hgo.mpr hs, hjv.mpr hs⟩
  · right
    intro s
    have hs : py.seamCommitmentDigest c ≠ .ok s := fun h => hok ⟨s, h⟩
    obtain ⟨hts, hgo, hjv⟩ := hagree s
    exact ⟨hs, hts.not.mpr hs, hgo.not.mpr hs, hjv.not.mpr hs⟩

/-- Any other digest is refused by Go and Java, so the SDKs agree when Python and TypeScript refuse it as well. -/
theorem digestsAgree_of_not_wellPublished (hx : OneHash py ts go jv) (hc : ¬c.WellPublished) :
    DigestsAgree py ts go jv c ↔ (∀ b, ¬Bound py.sha256 c.explanationDigest c.explanation b) ∧
      ∀ b, ¬Bound py.sha256 (TypeScript.publishedExplanationDigest c.explanationDigest) c.explanation b := by
  have hgo : ∀ s, go.seamCommitmentDigest c ≠ .ok s := fun s h => hc (Go.seamCommitmentDigest_ok_iff.mp h).1
  have hjv : ∀ s, jv.seamCommitmentDigest c ≠ .ok s := fun s h => hc (Java.seamCommitmentDigest_ok_iff.mp h).1
  have hrefused : DigestsAgree py ts go jv c ↔
      ∀ s, py.seamCommitmentDigest c ≠ .ok s ∧ ts.seamCommitmentDigest c ≠ .ok s := by
    constructor
    · rintro (⟨s, -, -, hs, -⟩ | h) t
      · exact absurd hs (hgo s)
      · exact ⟨(h t).1, (h t).2.1⟩
    · intro h
      exact .inr fun s => ⟨(h s).1, (h s).2, hgo s, hjv s⟩
  rw [hrefused, forall_and, ← not_exists, ← not_exists, ← not_exists, ← not_exists, ← exists_boundHex_iff,
    ← exists_boundHex_iff]
  simp only [Python.seamCommitmentDigest_ok_iff, TypeScript.seamCommitmentDigest_ok_iff, hx.typescript]

/-- **Where the SDKs agree.** -/
theorem digests_agree_iff (hx : OneHash py ts go jv) : DigestsAgree py ts go jv c ↔ c.PublishedAlike := by
  by_cases hc : c.WellPublished
  · exact iff_of_true (digestsAgree_of_wellPublished hx hc) fun p hp => .inl (hc p hp)
  rw [digestsAgree_of_not_wellPublished hx hc]
  obtain ⟨p, hp, hlen⟩ : ∃ p, c.explanationDigest = some p ∧ p.length ≠ 32 := by
    simpa [SdkCommitment.WellPublished] using hc
  have halike : c.PublishedAlike ↔ ∃ es, c.explanation = some es ∧ (p ≠ [] ∨ ∃ e ∈ es, ¬e.Canonical) := by
    simp [SdkCommitment.PublishedAlike, hp, hlen]
  rw [halike, hp]
  cases hes : c.explanation with
  | none =>
    have hbound := @exists_bound_none py.sha256 (some p)
    simp only [reduceCtorEq, false_and, exists_const, iff_false, not_and]
    intro hnone
    exact absurd hbound (not_exists.mpr hnone)
  | some es =>
    have hpython := not_bound_of_length hx.length hlen es
    simp only [Option.some.injEq, exists_eq_left']
    by_cases hempty : p = []
    · have hts : TypeScript.publishedExplanationDigest (some p) = none := by
        simp [TypeScript.publishedExplanationDigest, hempty]
      have hpublished : (∀ b, ¬Bound py.sha256 none (some es) b) ↔ ∃ e ∈ es, ¬e.Canonical := by
        rw [← not_exists, exists_bound_entries]
        push Not
        rfl
      rw [hts, hpublished, and_iff_right hpython]
      simp only [hempty, ne_eq, not_true_eq_false, false_or]
    · have hts : TypeScript.publishedExplanationDigest (some p) = some p := by
        simp [TypeScript.publishedExplanationDigest, hempty]
      rw [hts]
      exact iff_of_true ⟨hpython, hpython⟩ (.inl hempty)

/-! ## Samples -/

/-- A Commitment without entries that comes with the given digest. -/
def publishing (published : Bytes) : SdkCommitment :=
  ⟨"c1", "approve", "board", none, "aitp", "pinned", "", some published, none⟩

/-- Platforms for digests only, with no token to read. -/
def Issued.blank : Issued := ⟨.null, .null, [], []⟩

theorem oneHash_blank : OneHash blank.python blank.typescript blank.go blank.java where
  length := (Externs.sample []).length_sha256
  typescript := rfl
  go := rfl
  java := rfl

theorem digests_agree_published_digest :
    OneHash blank.python blank.typescript blank.go blank.java ∧
    (publishing (List.replicate 32 7)).PublishedAlike ∧
    DigestsAgree blank.python blank.typescript blank.go blank.java
      (publishing (List.replicate 32 7)) := by
  have halike : (publishing (List.replicate 32 7)).PublishedAlike := by
    intro p hp
    cases hp
    exact .inl rfl
  exact ⟨oneHash_blank, halike, (digests_agree_iff oneHash_blank).mpr halike⟩

/-- An empty digest is bound by Python, is no digest to TypeScript, and is refused by Go and Java. -/
theorem empty_digest_published :
    (∃ a b, blank.python.seamCommitmentDigest (publishing []) = .ok a ∧
      blank.typescript.seamCommitmentDigest (publishing []) = .ok b ∧ a ≠ b) ∧
    blank.go.seamCommitmentDigest (publishing []) = .error "explanation_digest must be 32 bytes, got 0" ∧
    blank.java.seamCommitmentDigest (publishing []) = .error "explanation_digest must be 32 bytes" ∧
    ¬DigestsAgree blank.python blank.typescript blank.go blank.java (publishing []) := by
  have hgo : blank.go.seamCommitmentDigest (publishing []) =
      .error "explanation_digest must be 32 bytes, got 0" := by decide +kernel
  refine ⟨⟨_, _, rfl, rfl, by decide +kernel⟩, hgo, by decide +kernel, ?_⟩
  intro h
  rcases h with ⟨s, -, -, hs, -⟩ | h
  · rw [hgo] at hs
    cases hs
  · exact (h _).1 rfl

end SeamSdk
