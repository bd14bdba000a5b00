import SeamSdk.Client.Tickets
import SeamSdk.Sdk.StatusDetails
import Mathlib.Tactic.Linarith
import Mathlib.Tactic.Positivity

/-!
# The retry loop by itself

`with_session_retry` calls a function again as long as it raises an error that may be retried, and sleeps in between:
as long as the server asks for, and a random part of a delay that doubles with every attempt. Two exceptions can be its
own. `time.sleep` refuses a negative duration, and a server may ask for one. A power of two that is no double any more
cannot be multiplied with the base delay.

Durations are exact rationals here, their products and sums included: what doubles round away, in seconds in Python and
in milliseconds in TypeScript, can decide on which side of the budget a sum lies and is left out.

Calls are counted from zero, so the attempt that calls for the `k`-th time is attempt `k + 1`.

- `loop_error`: what becomes of an error;
- `loop_derailed`: a call that is to be repeated in one of these two cases ends the loop with an exception of its own;
- `loop_kept`: without such a call it keeps its promises;
- `contract_iff`: so it keeps them if and only if it comes to no such call;
- `retries_agree_iff`: and then only does it do what the loop of TypeScript does, in exact arithmetic.
-/

namespace SeamSdk.SessionRetry

open ByteCodec PyClient

/-- What the function raises: an error from the server, or another exception. -/
inductive Raised (X : Type)
  | rpc (e : SeamRpcError)
  | other (exc : X)
  deriving DecidableEq

namespace Raised

variable {X : Type}

def isRetryable : Raised X → Bool
  | .rpc e => e.isRetryable
  | .other _ => false

def retryAfter : Raised X → Option Rat
  | .rpc e => e.retryAfter
  | .other _ => none

end Raised

/-- The exceptions that are not those of the function. -/
inductive OwnError
  | overflowError (message : String)
  | valueError (message : String)
  deriving DecidableEq

inductive Failure (X : Type)
  | call (e : Raised X)
  | own (e : OwnError)
  deriving DecidableEq

/-- An integer as a double. -/
def intToFloat (n : Nat) : Except OwnError Rat :=
  if 2 ^ 1024 ≤ n then .error (.overflowError "int too large to convert to float") else .ok n

def sleep (delay : Rat) : Except OwnError Unit :=
  if delay < 0 then .error (.valueError "sleep length must be non-negative") else .ok ()

/-- How a loop ends: the number of calls, the durations it slept for, and its result. -/
structure Ended (V X : Type) where
  calls : Nat
  sleeps : List Rat
  result : Except (Failure X) V

variable {k : Nat} {waited : Rat}

section Loop

variable {V X : Type} (l : RetryLimits)

def nextDelay (exc : Raised X) (attempt : Nat) (waited random : Rat) : Except OwnError (Option Rat) :=
  if exc.isRetryable = false ∨ l.maxAttempts ≤ attempt then .ok none
  else do
    let factor ← intToFloat (2 ^ (attempt - 1))
    let delay := exc.retryAfter.getD 0 + random * min l.maxDelay (l.baseDelay * factor)
    if waited + delay > l.budget then return none else return some delay

/-- The delay before the call behind the `k`-th one, as a number. -/
def delayOf (exc : Raised X) (k : Nat) (random : Rat) : Rat :=
  exc.retryAfter.getD 0 + random * min l.maxDelay (l.baseDelay * 2 ^ k)

theorem intToFloat_pow (k : Nat) : intToFloat (2 ^ k) =
      if 1024 ≤ k then .error (.overflowError "int too large to convert to float") else .ok (2 ^ k) := by
  unfold intToFloat
  rw [if_congr (Nat.pow_le_pow_iff_right (Nat.lt_succ_self 1)) rfl rfl, Nat.cast_pow]
  rfl

theorem nextDelay_succ (exc : Raised X) (k : Nat) (waited random : Rat) : nextDelay l exc (k + 1) waited random =
      if exc.isRetryable = true ∧ (k + 1 : Int) < l.maxAttempts then
        if 1024 ≤ k then .error (.overflowError "int too large to convert to float")
        else if l.budget < waited + delayOf l exc k random then .ok none else .ok (some (delayOf l exc k random))
      else .ok none := by
  unfold nextDelay
  by_cases h : exc.isRetryable = true ∧ (k + 1 : Int) < l.maxAttempts
  · rw [if_pos h, if_neg (by push_cast; simp [h.1, h.2]), Nat.add_sub_cancel, intToFloat_pow]
    by_cases hk : 1024 ≤ k
    · simp only [if_pos hk]
      rfl
    · simp only [if_neg hk]
      rfl
  · rw [if_neg h, if_pos]
    rw [not_and_or, not_lt, Bool.not_eq_true] at h
    exact_mod_cast h

variable (call : Nat → Except (Raised X) V) (random : Nat → Rat)

/-- The loop of `with_session_retry`, at the call that is made next. -/
def loop (k : Nat) (waited : Rat) : Ended V X :=
  match call k with
  | .ok v => ⟨k + 1, [], .ok v⟩
  | .error exc =>
    match hnext : nextDelay l exc (k + 1) waited (random k) with
    | .error e => ⟨k + 1, [], .error (.own e)⟩
    | .ok none => ⟨k + 1, [], .error (.call exc)⟩
    | .ok (some delay) =>
      match sleep delay with
      | .error e => ⟨k + 1, [delay], .error (.own e)⟩
      | .ok () =>
        let rest := loop (k + 1) (waited + delay)
        { rest with sleeps := delay :: rest.sleeps }
termination_by (l.maxAttempts - k).toNat
decreasing_by
  have hleft : (k + 1 : Int) < l.maxAttempts := by
    by_contra h
    rw [nextDelay_succ, if_neg fun hc => h hc.2] at hnext
    cases hnext
  omega

def withSessionRetry : Ended V X := loop l call random 0 0

end Loop

/-! ## What the loop promises -/

section Contract

variable {V X : Type} (l : RetryLimits) (call : Nat → Except (Raised X) V) (random : Nat → Rat)

/-- What the loop promises, from the `k`-th call on, when it has slept for so long before. -/
structure Kept (k : Nat) (waited : Rat) (r : Ended V X) : Prop where
  calls : k < r.calls ∧ (r.calls : Int) ≤ l.maxAttempts
  /-- No sleep is negative or shorter than the server asks for. -/
  slept : ∀ i d, r.sleeps[i]? = some d →
    0 ≤ d ∧ ∀ exc s, call (k + i) = .error exc → exc.retryAfter = some s → s ≤ d
  budget : waited + r.sleeps.sum ≤ l.budget
  /-- It goes on only after an error that may be retried. -/
  retried : ∀ j, k ≤ j → j + 1 < r.calls → ∃ exc, call j = .error exc ∧ exc.isRetryable = true
  /-- It ends as the last call does. -/
  result : r.result = (call (r.calls - 1)).mapError .call

/-- The promises of `with_session_retry`. -/
def Contract (r : Ended V X) : Prop := Kept l call 0 0 r

structure Valid : Prop where
  attempts : 1 ≤ l.maxAttempts
  baseDelay : 0 < l.baseDelay
  maxDelay : 0 < l.maxDelay
  budget : 0 ≤ l.budget
  random : ∀ k, 0 ≤ random k ∧ random k < 1

/-! ## Where it does not keep them -/

/-- The delay behind the `k`-th call, when that is an error. -/
def delayAt (k : Nat) : Rat :=
  match call k with
  | .ok _ => 0
  | .error exc => delayOf l exc k (random k)

/-- All the delays before the `k`-th call. -/
def waitedAt : Nat → Rat
  | 0 => 0
  | k + 1 => waitedAt k + delayAt l call random k

/-- The calls before the `k`-th one are errors that may be retried, within the budget. -/
def Comes (k : Nat) : Prop :=
  ∀ j < k, ∃ exc, call j = .error exc ∧ exc.isRetryable = true ∧ waitedAt l call random (j + 1) ≤ l.budget

/-- A call that is to be repeated after a negative delay, or when the factor is no double any more. -/
def Derails (k : Nat) : Prop :=
  ∃ exc, call k = .error exc ∧ exc.isRetryable = true ∧ (k + 1 : Int) < l.maxAttempts ∧
    (1024 ≤ k ∨ delayAt l call random k < 0)

variable {l call random}

theorem loop_ok {v : V} (h : call k = .ok v) : loop l call random k waited = ⟨k + 1, [], .ok v⟩ := by
  rw [loop, h]

variable {exc : Raised X}

/-- An error is raised again, leads to an exception of its own, or is retried. -/
theorem loop_error (h : call k = .error exc) (waited : Rat) : loop l call random k waited =
      if exc.isRetryable = true ∧ (k + 1 : Int) < l.maxAttempts then
        if 1024 ≤ k then ⟨k + 1, [], .error (.own (.overflowError "int too large to convert to float"))⟩
        else if l.budget < waited + delayAt l call random k then ⟨k + 1, [], .error (.call exc)⟩
        else if delayAt l call random k < 0 then
          ⟨k + 1, [delayAt l call random k], .error (.own (.valueError "sleep length must be non-negative"))⟩
        else
          let rest := loop l call random (k + 1) (waited + delayAt l call random k)
          { rest with sleeps := delayAt l call random k :: rest.sleeps }
      else ⟨k + 1, [], .error (.call exc)⟩ := by
  have hdelay : delayAt l call random k = delayOf l exc k (random k) := by
    unfold delayAt
    rw [h]
  have hloop : loop l call random k waited =
      match nextDelay l exc (k + 1) waited (random k) with
      | .error e => ⟨k + 1, [], .error (.own e)⟩
      | .ok none => ⟨k + 1, [], .error (.call exc)⟩
      | .ok (some delay) =>
        match sleep delay with
        | .error e => ⟨k + 1, [delay], .error (.own e)⟩
        | .ok () =>
          let rest := loop l call random (k + 1) (waited + delay)
          { rest with sleeps := delay :: rest.sleeps } := by
    rw [loop, h]
    dsimp only
    generalize nextDelay l exc (k + 1) waited (random k) = next
    rcases next with e | _ | delay <;> rfl
  rw [hloop, nextDelay_succ, hdelay]
  by_cases hagain : exc.isRetryable = true ∧ (k + 1 : Int) < l.maxAttempts
  · simp only [if_pos hagain]
    by_cases hk : 1024 ≤ k
    · simp only [if_pos hk]
    · simp only [if_neg hk]
      by_cases hover : l.budget < waited + delayOf l exc k (random k)
      · simp only [if_pos hover]
      · simp only [if_neg hover, sleep]
        by_cases hneg : delayOf l exc k (random k) < 0
        · simp only [if_pos hneg]
        · simp only [if_neg hneg]
  · simp only [if_neg hagain]

/-! ## The loop to its end -/

/-- The budget covers what was waited for before a call that the loop comes to. -/
theorem Comes.waitedAt_le (h : Comes l call random k) (hbudget : 0 ≤ l.budget) :
    waitedAt l call random k ≤ l.budget := by
  cases k with
  | zero => exact hbudget
  | succ k =>
    obtain ⟨-, -, -, hle⟩ := h k (Nat.lt_succ_self k)
    exact hle

theorem Comes.succ (h : Comes l call random k) (hk : call k = .error exc) (hretry : exc.isRetryable = true)
    (hle : waitedAt l call random (k + 1) ≤ l.budget) : Comes l call random (k + 1) := by
  intro j hj
  rcases Nat.lt_succ_iff_lt_or_eq.mp hj with hj | rfl
  · exact h j hj
  · exact ⟨exc, hk, hretry, hle⟩

/-- The random part is not negative. -/
theorem Valid.stated_le_delayAt (hvalid : Valid l random) {s : Rat} (hk : call k = .error exc)
    (hs : exc.retryAfter = some s) : s ≤ delayAt l call random k := by
  unfold delayAt
  rw [hk]
  simp only [delayOf, hs, Option.getD_some]
  have hbase : 0 ≤ l.baseDelay * 2 ^ k := mul_nonneg hvalid.baseDelay.le (by positivity)
  have hjitter := mul_nonneg (hvalid.random k).1 (le_min hvalid.maxDelay.le hbase)
  linarith

/-- A loop that ends with this call. -/
theorem Kept.single {result : Except (Failure X) V} (hk : (k + 1 : Int) ≤ l.maxAttempts) (hwaited : waited ≤ l.budget)
    (hresult : result = (call k).mapError .call) : Kept l call k waited ⟨k + 1, [], result⟩ where
  calls := ⟨Nat.lt_succ_self k, by push_cast; exact hk⟩
  slept i d h := by simp at h
  budget := by simpa using hwaited
  retried j hj hlt := by
    dsimp only at hlt
    omega
  result := hresult

/-- A loop that goes on after this call. -/
theorem Kept.cons {rest : Ended V X} (hvalid : Valid l random) (hk : call k = .error exc)
    (hretry : exc.isRetryable = true) (hdelay : 0 ≤ delayAt l call random k)
    (hrest : Kept l call (k + 1) (waited + delayAt l call random k) rest) :
    Kept l call k waited { rest with sleeps := delayAt l call random k :: rest.sleeps } where
  calls := ⟨by have := hrest.calls.1; dsimp only; omega, hrest.calls.2⟩
  slept i d h := by
    cases i with
    | zero =>
      obtain rfl : delayAt l call random k = d := Option.some.inj h
      refine ⟨hdelay, ?_⟩
      intro exc' s hexc' hs
      exact hvalid.stated_le_delayAt hexc' hs
    | succ i =>
      rw [show k + (i + 1) = k + 1 + i by omega]
      exact hrest.slept i d h
  budget := by
    have hle := hrest.budget
    simp only [List.sum_cons]
    linarith
  retried j hj hlt := by
    rcases Nat.eq_or_lt_of_le hj with rfl | hj
    · exact ⟨exc, hk, hretry⟩
    · exact hrest.retried j hj hlt
  result := hrest.result

/-- **The loop keeps its promises** from a call on that it comes to, as long as no call derails it. -/
theorem loop_kept (hvalid : Valid l random) (hfine : ∀ k, Comes l call random k → ¬Derails l call random k)
    (hk : (k + 1 : Int) ≤ l.maxAttempts) (hcomes : Comes l call random k) :
    Kept l call k (waitedAt l call random k) (loop l call random k (waitedAt l call random k)) := by
  have hwaited := hcomes.waitedAt_le hvalid.budget
  -- The number of attempts left goes down.
  induction hn : (l.maxAttempts - (k + 1)).toNat generalizing k with
  | zero =>
    cases hcall : call k with
    | ok v =>
      rw [loop_ok hcall]
      exact .single hk hwaited (by rw [hcall]; rfl)
    | error exc =>
      rw [loop_error hcall, if_neg fun h => by omega]
      exact .single hk hwaited (by rw [hcall]; rfl)
  | succ n ih =>
    cases hcall : call k with
    | ok v =>
      rw [loop_ok hcall]
      exact .single hk hwaited (by rw [hcall]; rfl)
    | error exc =>
      rw [loop_error hcall]
      by_cases hagain : exc.isRetryable = true ∧ (k + 1 : Int) < l.maxAttempts
      · have hsound : ¬(1024 ≤ k ∨ delayAt l call random k < 0) :=
          fun h => hfine k hcomes ⟨exc, hcall, hagain.1, hagain.2, h⟩
        rw [not_or, not_lt] at hsound
        rw [if_pos hagain, if_neg hsound.1]
        split
        · exact .single hk hwaited (by rw [hcall]; rfl)
        · rename_i hover
          rw [if_neg (not_lt.mpr hsound.2)]
          have hnext := hcomes.succ hcall hagain.1 (not_lt.mp hover)
          refine .cons hvalid hcall hagain.1 hsound.2 (ih ?_ hnext (hnext.waitedAt_le hvalid.budget) ?_)
          · push_cast
            omega
          · push_cast
            omega
      · rw [if_neg hagain]
        exact .single hk hwaited (by rw [hcall]; rfl)

/-- A call that derails the loop ends it with an exception of its own. -/
theorem loop_derailed (hbudget : 0 ≤ l.budget) {j : Nat} (hjk : j ≤ k) (hcomes : Comes l call random k)
    (hderails : Derails l call random k) :
    ∃ e, (loop l call random j (waitedAt l call random j)).result = .error (.own e) := by
  obtain ⟨exc, hcall, hretry, hleft, hbad⟩ := hderails
  induction hn : k - j generalizing j with
  | zero =>
    obtain rfl : j = k := by omega
    rw [loop_error hcall, if_pos ⟨hretry, hleft⟩]
    split
    · exact ⟨_, rfl⟩
    · rename_i hsmall
      have hneg := hbad.resolve_left hsmall
      have hwaited := hcomes.waitedAt_le hbudget
      rw [if_neg (by linarith), if_pos hneg]
      exact ⟨_, rfl⟩
  | succ n ih =>
    obtain ⟨exc', hcall', hretry', hle⟩ := hcomes j (by omega)
    rw [loop_error hcall', if_pos ⟨hretry', by omega⟩]
    split
    · exact ⟨_, rfl⟩
    · rw [if_neg (show ¬l.budget < waitedAt l call random j + delayAt l call random j from not_lt.mpr hle)]
      split
      · exact ⟨_, rfl⟩
      · exact ih (j := j + 1) (by omega) (by omega)

/-- An exception of its own is none of the function's. -/
theorem not_contract_of_own {r : Ended V X} {e : OwnError} (h : r.result = .error (.own e)) : ¬Contract l call r := by
  intro hcontract
  have hresult := hcontract.result.symm.trans h
  cases hlast : call (r.calls - 1) with
  | ok | error =>
    rw [hlast] at hresult
    cases hresult

end Contract

/-- **The loop keeps its promises** if and only if no call that it comes to is to be repeated after a negative delay, or
with a factor that is no double any more. -/
theorem contract_iff {V X : Type} {l : RetryLimits} {random : Nat → Rat} (hvalid : Valid l random)
    (call : Nat → Except (Raised X) V) :
    Contract l call (withSessionRetry l call random) ↔ ∀ k, Comes l call random k → ¬Derails l call random k := by
  constructor
  · intro hcontract k hcomes hderails
    obtain ⟨e, he⟩ := loop_derailed hvalid.budget (Nat.zero_le k) hcomes hderails
    exact not_contract_of_own he hcontract
  · intro hfine
    have hattempts := hvalid.attempts
    exact loop_kept hvalid hfine (k := 0) (by push_cast; omega) fun j hj => absurd hj (Nat.not_lt_zero j)

/-! ## One refusal -/

def defaultLimits : RetryLimits := ⟨40, 1 / 4, 8, 10⟩

/-- The session is unavailable at first, and the server states a delay. -/
def refusedOnce (delay : Rat) : Nat → Except (Raised Empty) Unit
  | 0 => .error (.rpc ⟨.unavailable, some "SESSION_UNAVAILABLE", some delay⟩)
  | _ => .ok ()

theorem valid_default : Valid defaultLimits fun _ => 0 where
  attempts := by decide
  baseDelay := by norm_num [defaultLimits]
  maxDelay := by norm_num [defaultLimits]
  budget := by norm_num [defaultLimits]
  random _ := ⟨le_refl 0, zero_lt_one⟩

theorem delayAt_refusedOnce (delay : Rat) : delayAt defaultLimits (refusedOnce delay) (fun _ => 0) 0 = delay := by
  simp [delayAt, refusedOnce, delayOf, Raised.retryAfter]

/-- A `RetryInfo` with a delay of minus one second. -/
def minusOneSecond : Bytes := [0x0A, 0x0B, 0x08, 0xFF, 0xFF, 0xFF, 0xFF, 0xFF, 0xFF, 0xFF, 0xFF, 0xFF, 0x01]

theorem negative_delay_escapes :
    Python.decodeRetryDelay ⟨fun _ => none, id⟩ minusOneSecond = .ok (some (-1)) ∧
      (withSessionRetry defaultLimits (refusedOnce (-1)) fun _ => 0).result =
        .error (.own (.valueError "sleep length must be non-negative")) ∧
      Valid defaultLimits (fun _ => 0) ∧
      ¬Contract defaultLimits (refusedOnce (-1)) (withSessionRetry defaultLimits (refusedOnce (-1)) fun _ => 0) := by
  have hresult : (withSessionRetry defaultLimits (refusedOnce (-1)) fun _ => 0).result =
      .error (.own (.valueError "sleep length must be non-negative")) := by
    rw [withSessionRetry, loop_error rfl, delayAt_refusedOnce, if_pos (by decide), if_neg (by decide),
      if_neg (by norm_num [defaultLimits]), if_pos (by norm_num)]
  exact ⟨by decide +kernel, hresult, valid_default, not_contract_of_own hresult⟩

theorem contract_iff_two_seconds :
    Contract defaultLimits (refusedOnce 2) (withSessionRetry defaultLimits (refusedOnce 2) fun _ => 0) := by
  refine (contract_iff valid_default (refusedOnce 2)).mpr ?_
  rintro (_ | k) - ⟨exc, hcall, -, -, hbad⟩
  · rw [delayAt_refusedOnce] at hbad
    norm_num at hbad
  · cases hcall

/-! ## The loop of TypeScript -/

namespace TypeScript

/-- How a loop ends: only with the value or the error of a call. -/
structure Ended (V X : Type) where
  calls : Nat
  sleeps : List Rat
  result : Except (Raised X) V

section Loop

variable {V X : Type} (l : RetryLimits) (call : Nat → Except (Raised X) V) (random : Nat → Rat)

/-- `2 ** k` is infinite from `k = 1024` on, and so is its product with the base delay. -/
def cap (k : Nat) : Rat := if 1024 ≤ k then l.maxDelay else min l.maxDelay (l.baseDelay * 2 ^ k)

/-- The loop of `withSessionRetry`, in milliseconds that are added without rounding. A timer takes a negative duration
for none. -/
def loop (k : Nat) (waited : Rat) : Ended V X :=
  match call k with
  | .ok v => ⟨k + 1, [], .ok v⟩
  | .error e =>
    if e.isRetryable = false ∨ l.maxAttempts ≤ k + 1 then ⟨k + 1, [], .error e⟩
    else
      let delay := e.retryAfter.getD 0 * 1000 + random k * cap l k
      if waited + delay > l.budget then ⟨k + 1, [], .error e⟩
      else
        let rest := loop (k + 1) (waited + delay)
        { rest with sleeps := delay :: rest.sleeps }
termination_by (l.maxAttempts - k).toNat
decreasing_by omega

def withSessionRetry : Ended V X := loop l call random 0 0

end Loop

end TypeScript

/-- Limits that are given in seconds, in milliseconds. -/
def milliseconds (l : RetryLimits) : RetryLimits :=
  ⟨l.budget * 1000, l.baseDelay * 1000, l.maxDelay * 1000, l.maxAttempts⟩

section Agreement

variable {V X : Type} {l : RetryLimits} {call : Nat → Except (Raised X) V} {random : Nat → Rat}

/-- What TypeScript does, with the sleeps in seconds. -/
def TypeScript.Ended.seconds (r : TypeScript.Ended V X) : SessionRetry.Ended V X :=
  ⟨r.calls, r.sleeps.map (· / 1000), r.result.mapError .call⟩

/-- From a call on that the loops come to, as long as none derails the one of Python, they do the same. -/
theorem loop_agree (hfine : ∀ k, Comes l call random k → ¬Derails l call random k) (hcomes : Comes l call random k) :
    (TypeScript.loop (milliseconds l) call random k (waitedAt l call random k * 1000)).seconds =
      loop l call random k (waitedAt l call random k) := by
  -- The number of attempts left goes down.
  induction hn : (l.maxAttempts - k).toNat using Nat.strong_induction_on generalizing k with
  | _ n ih =>
    rw [TypeScript.loop]
    cases hcall : call k with
    | ok v =>
      rw [loop_ok hcall]
      rfl
    | error exc =>
      rw [loop_error hcall]
      dsimp only
      by_cases hagain : exc.isRetryable = true ∧ (k + 1 : Int) < l.maxAttempts
      · have hsound : ¬(1024 ≤ k ∨ delayAt l call random k < 0) :=
          fun h => hfine k hcomes ⟨exc, hcall, hagain.1, hagain.2, h⟩
        rw [not_or] at hsound
        have hdelay : exc.retryAfter.getD 0 * 1000 + random k * TypeScript.cap (milliseconds l) k =
            delayAt l call random k * 1000 := by
          simp only [delayAt, hcall, delayOf, TypeScript.cap, if_neg hsound.1, milliseconds]
          rw [mul_right_comm, ← min_mul_of_nonneg _ _ (by norm_num), add_mul, mul_assoc]
        have hbudget : waitedAt l call random (k + 1) * 1000 > (milliseconds l).budget ↔
            l.budget < waitedAt l call random (k + 1) := mul_lt_mul_iff_left₀ (by norm_num)
        have hleft : ¬(exc.isRetryable = false ∨ (milliseconds l).maxAttempts ≤ k + 1) := by
          rw [not_or, Bool.not_eq_false, not_le]
          exact hagain
        have hnext := fun hle => ih _ (by omega) (hcomes.succ hcall hagain.1 hle) rfl
        simp only [waitedAt] at hbudget hnext
        rw [if_pos hagain, if_neg hsound.1, if_neg hsound.2, if_neg hleft, hdelay, ← add_mul]
        simp only [hbudget]
        split
        · rfl
        · rename_i hover
          simp [← hnext (not_lt.mp hover), TypeScript.Ended.seconds]
      · rw [if_neg hagain, if_pos]
        · rfl
        · rwa [not_and_or, Bool.not_eq_true, not_lt] at hagain

/-- **The loops of Python and TypeScript agree** in exact arithmetic on calls, sleeps and result, if and only if no call
that they come to derails the one of Python. -/
theorem retries_agree_iff {V X : Type} {l : RetryLimits} {random : Nat → Rat} (hvalid : Valid l random)
    (call : Nat → Except (Raised X) V) :
    (TypeScript.withSessionRetry (milliseconds l) call random).seconds = withSessionRetry l call random ↔
      ∀ k, Comes l call random k → ¬Derails l call random k := by
  constructor
  · intro hagree k hcomes hderails
    obtain ⟨e, he⟩ := loop_derailed hvalid.budget (Nat.zero_le k) hcomes hderails
    -- but TypeScript has no exception of its own
    have hresult := (congrArg Ended.result hagree).trans he
    cases hend : (TypeScript.withSessionRetry (milliseconds l) call random).result <;>
      simp [TypeScript.Ended.seconds, hend, Except.mapError] at hresult
  · intro hfine
    have hstart := loop_agree hfine (k := 0) fun j hj => absurd hj (Nat.not_lt_zero j)
    rwa [waitedAt, zero_mul] at hstart

end Agreement

/-- A server that asks for a negative delay. -/
theorem retries_agree_iff_minus_one_second :
    (TypeScript.withSessionRetry (milliseconds defaultLimits) (refusedOnce (-1)) fun _ => 0).seconds ≠
      withSessionRetry defaultLimits (refusedOnce (-1)) fun _ => 0 := by
  intro hagree
  refine (retries_agree_iff valid_default _).mp hagree 0 (fun j hj => absurd hj (Nat.not_lt_zero j)) ?_
  refine ⟨_, rfl, by decide, by decide, .inr ?_⟩
  rw [delayAt_refusedOnce]
  norm_num

end SeamSdk.SessionRetry
