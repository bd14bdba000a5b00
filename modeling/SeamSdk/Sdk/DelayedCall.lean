import SeamSdk.Lib.ByteCodec
import SeamSdk.Lib.Transducer

/-!
# Signed management calls of the Java SDK

A proof signs the bytes of the request message and travels in the headers, so the interceptor holds a call back until
its message is there (`DelayedSignedCall`). Until then what is asked of the call is queued, and a `cancel` or a
`halfClose` without a message closes the listener. With the message the real call is opened: it gets the signed headers,
what was queued, the message, and then all that is asked later on.

The methods are called one at a time. A call that was not opened yet is waiting, until it is opened or shut:

- `call_opened`, `call_shut`, `call_waiting`: what the methods do in each of these states;
- `run_opened`, `run_shut`, `run_waiting`: what a run does;
- `run_cases`: every run waits, or waits and is opened by a message, or waits and is shut;
- `opened_once_in_order`, `heard_iff_started_first`: what the channel and the listener see.
-/

namespace SeamSdk.Java

open ByteCodec Transducer List

abbrev Metadata := List (String × String)

inductive Status.Code
  | internal
  | cancelled
  deriving DecidableEq, Repr

/-- `C` is for throwables. -/
structure Status (C : Type) where
  code : Status.Code
  description : Option String
  cause : Option C
  deriving DecidableEq, Repr

/-- What is asked of a `ClientCall` once it is started. -/
inductive CallOp (M C : Type)
  | request (numMessages : Int)
  | setMessageCompression (enabled : Bool)
  | sendMessage (message : M)
  | halfClose
  | cancel (message : Option String) (cause : Option C)
  | isReady
  | getAttributes
  deriving DecidableEq, Repr

/-- What the wrapper does outside: on the channel, on the real call, on the listener. -/
inductive Effect (M L C : Type)
  | newCall
  | start (listener : L) (headers : Metadata)
  | real (op : CallOp M C)
  | onClose (listener : L) (status : Status C)
  deriving DecidableEq, Repr

inductive Thrown (C : Type)
  | illegalState (message : String)
  | dpop (message : String)
  | signing (cause : C)
  deriving DecidableEq, Repr

/-- A method with its arguments. With a message comes what `sign` says to each body at that time. -/
inductive Method (M L C : Type)
  | start (listener : L) (headers : Metadata)
  | request (numMessages : Int)
  | setMessageCompression (enabled : Bool)
  | sendMessage (message : M) (sign : Bytes → Except C String)
  | halfClose
  | cancel (message : Option String) (cause : Option C)
  | isReady
  | getAttributes

/-- What a call is made with: the method descriptor and the token of the signer. `streamRequest` fails with the text of
an `IOException`. -/
structure Descriptor (M : Type) where
  fullMethodName : String
  streamRequest : M → Except String Bytes
  token : String

structure DelayedSignedCall (M L C : Type) where
  listener : Option L
  headers : Metadata
  real : Bool
  closed : Bool
  pending : List (CallOp M C)

namespace DelayedSignedCall

variable {M L C : Type}

def new : DelayedSignedCall M L C := ⟨none, [], false, false, []⟩

/-- How a method ends: the state, what was done outside, and what is thrown. -/
structure Ended (M L C : Type) where
  state : DelayedSignedCall M L C
  effects : List (Effect M L C)
  thrown : Option (Thrown C)

section Methods

variable (d : Descriptor M) (c : DelayedSignedCall M L C)

def returns (c : DelayedSignedCall M L C) (effects : List (Effect M L C)) : Ended M L C := ⟨c, effects, none⟩

def throws (c : DelayedSignedCall M L C) (t : Thrown C) : Ended M L C := ⟨c, [], some t⟩

def start (listener : L) (headers : Metadata) : Ended M L C :=
  if c.listener.isSome then throws c (.illegalState "already started")
  else returns { c with listener := some listener, headers } []

/-- `request` and `setMessageCompression`. -/
def queue (op : CallOp M C) : Ended M L C :=
  if c.real then returns c [.real op]
  else if c.closed then returns c []
  else returns { c with pending := c.pending ++ [op] } []

/-- The headers the proof travels in. -/
def signed (headers : Metadata) (proof : String) : Metadata :=
  headers ++ [("authorization", "DPoP " ++ d.token), ("dpop", proof)]

def sendMessage (message : M) (sign : Bytes → Except C String) : Ended M L C :=
  match c.listener with
  | none => throws c (.illegalState "sendMessage before start")
  | some listener =>
    if c.closed then returns c []
    else if c.real then
      throws c (.illegalState (d.fullMethodName ++ ": a DPoP proof binds exactly one request message"))
    else
      match d.streamRequest message with
      | .error e => throws c (.dpop ("cannot encode the request message: " ++ e))
      | .ok body =>
        match sign body with
        | .error e => throws c (.signing e)
        | .ok proof =>
          let headers := signed d c.headers proof
          returns { c with headers, real := true, pending := [] }
            (.newCall :: .start listener headers :: (c.pending ++ [CallOp.sendMessage message]).map .real)

def noMessage : Status C :=
  ⟨.internal, some "a management call must carry exactly one request message (got none)", none⟩

def halfClose : Ended M L C :=
  match c.listener with
  | none => throws c (.illegalState "halfClose before start")
  | some listener =>
    if c.real then returns c [.real .halfClose]
    else if c.closed then returns c []
    else returns { c with closed := true, pending := [] } [.onClose listener noMessage]

def cancel (message : Option String) (cause : Option C) : Ended M L C :=
  if c.real then returns c [.real (.cancel message cause)]
  else if c.closed then returns c []
  else
    returns { c with closed := true, pending := [] }
      (c.listener.map fun listener => .onClose listener ⟨.cancelled, message, cause⟩).toList

/-- `isReady` and `getAttributes`. -/
def ask (op : CallOp M C) : Ended M L C := returns c (if c.real then [.real op] else [])

def call : Method M L C → Ended M L C
  | .start listener headers => start c listener headers
  | .request n => queue c (.request n)
  | .setMessageCompression enabled => queue c (.setMessageCompression enabled)
  | .sendMessage message sign => sendMessage d c message sign
  | .halfClose => halfClose c
  | .cancel message cause => cancel c message cause
  | .isReady => ask c .isReady
  | .getAttributes => ask c .getAttributes

end Methods

/-- Methods called one after the other. -/
def calls (d : Descriptor M) : Transducer (DelayedSignedCall M L C) (Method M L C) (Effect M L C) where
  step c m := ((call d c m).state, (call d c m).effects)

end DelayedSignedCall

/-! ## What becomes of a method -/

namespace Method

variable {M L C : Type}

/-- What is queued while there is no message. -/
def queued : Method M L C → Option (CallOp M C)
  | .request n => some (.request n)
  | .setMessageCompression enabled => some (.setMessageCompression enabled)
  | _ => none

/-- What the open call gets. -/
def forwarded : Method M L C → Option (CallOp M C)
  | .request n => some (.request n)
  | .setMessageCompression enabled => some (.setMessageCompression enabled)
  | .halfClose => some .halfClose
  | .cancel message cause => some (.cancel message cause)
  | .isReady => some .isReady
  | .getAttributes => some .getAttributes
  | .start _ _ | .sendMessage _ _ => none

def started : Method M L C → Option (L × Metadata)
  | .start listener headers => some (listener, headers)
  | _ => none

def isCancel : Method M L C → Bool
  | .cancel _ _ => true
  | _ => false

def isHalfClose : Method M L C → Bool
  | .halfClose => true
  | _ => false

end Method

namespace Effect

variable {M L C : Type}

def isNewCall : Effect M L C → Bool
  | .newCall => true
  | _ => false

def isOnClose : Effect M L C → Bool
  | .onClose _ _ => true
  | _ => false

theorem filter_real {p : Effect M L C → Bool} (hp : ∀ op, p (.real op) = false) (ops : List (CallOp M C)) :
    (ops.map .real).filter p = [] := by
  rw [filter_eq_nil_iff, forall_mem_map]
  intro op _
  simp [hp]

end Effect

namespace DelayedSignedCall

variable {M L C : Type} {d : Descriptor M} {c : DelayedSignedCall M L C}

/-! ## An open call -/

/-- Open, with its listener. -/
def Opened (c : DelayedSignedCall M L C) : Prop := c.real = true ∧ c.closed = false ∧ c.listener.isSome = true

/-- An open call passes on what it is asked; a second start or message is refused. -/
theorem call_opened (hc : Opened c) (m : Method M L C) :
    (call d c m).state = c ∧ (call d c m).effects = (m.forwarded.map .real).toList ∧
      ((call d c m).thrown = none ↔ m.forwarded.isSome = true) := by
  obtain ⟨hreal, hclosed, hlistener⟩ := hc
  obtain ⟨l, hl⟩ := Option.isSome_iff_exists.mp hlistener
  cases m <;>
    simp [call, start, queue, sendMessage, halfClose, cancel, ask, returns, throws, Method.forwarded, hreal, hclosed,
      hl]

theorem run_opened (hc : Opened c) (ms : List (Method M L C)) :
    ((calls d).run c ms).2 = (ms.filterMap Method.forwarded).map .real := by
  rw [effects_of_keeps (P := (· = c)) (f := fun m => (m.forwarded.map .real).toList) ?_ ?_ rfl]
  · induction ms with
    | nil => rfl
    | cons m ms ih =>
      rw [flatMap_cons, ih]
      cases hm : m.forwarded with
      | none => rw [filterMap_cons_none hm]; rfl
      | some op => rw [filterMap_cons_some hm]; rfl
  · rintro _ m rfl
    exact (call_opened hc m).1
  · rintro _ m rfl
    exact (call_opened hc m).2.1

/-! ## A call that was shut -/

/-- Shut before there was a message. -/
def Shut (c : DelayedSignedCall M L C) : Prop := c.real = false ∧ c.closed = true

theorem call_shut (hc : Shut c) (m : Method M L C) : Shut (call d c m).state ∧ (call d c m).effects = [] := by
  obtain ⟨hreal, hclosed⟩ := hc
  cases hl : c.listener <;> cases m <;>
    simp [call, start, queue, sendMessage, halfClose, cancel, ask, returns, throws, Shut, hreal, hclosed, hl]

theorem run_shut (hc : Shut c) (ms : List (Method M L C)) : ((calls d).run c ms).2 = [] := by
  rw [effects_of_keeps (P := Shut) (f := fun _ => []) (fun _ m h => (call_shut h m).1)
    (fun _ m h => (call_shut h m).2) hc]
  simp

/-! ## A call that waits -/

def Waiting (c : DelayedSignedCall M L C) : Prop := c.real = false ∧ c.closed = false

/-- The listener with its headers, once there is one. -/
def told (c : DelayedSignedCall M L C) : Option (L × Metadata) := c.listener.map (·, c.headers)

variable {m : Method M L C} {before after ms : List (Method M L C)}

/-- A method that leaves the call waiting does nothing outside. -/
theorem call_waiting (hc : Waiting c) (hm : Waiting (call d c m).state) :
    (call d c m).effects = [] ∧ (call d c m).state.pending = c.pending ++ m.queued.toList ∧
      (call d c m).state.told = c.told.or m.started ∧ m.isCancel = false := by
  obtain ⟨hreal, hclosed⟩ := hc
  cases m with
  | start l h => cases hl : c.listener <;> simp [call, start, returns, throws, Method.queued, Method.started,
      Method.isCancel, told, hl]
  | request | setMessageCompression | isReady | getAttributes =>
    simp [call, queue, ask, returns, Method.queued, Method.started, Method.isCancel, told, hreal, hclosed]
  | halfClose =>
    cases hl : c.listener <;> simp [call, halfClose, returns, throws, Waiting, Method.queued, Method.started,
      Method.isCancel, told, hreal, hclosed, hl] at hm ⊢
  | cancel => simp [call, cancel, returns, Waiting, hreal, hclosed] at hm
  | sendMessage message sign =>
    revert hm
    simp only [call, sendMessage, hreal, hclosed, Method.queued, Method.started, Method.isCancel]
    cases hl : c.listener with
    | none => simp [throws]
    | some l =>
      cases d.streamRequest message with
      | error e => simp [throws]
      | ok body => cases hsign : sign body <;> simp [throws, returns, Waiting, hsign]

/-- The methods so far are queued or forgotten. -/
theorem run_waiting (hc : Waiting c) (halong : (calls d).Along (fun c m => Waiting (call d c m).state) c ms) :
    ((calls d).run c ms).2 = [] ∧ ((calls d).run c ms).1.pending = c.pending ++ ms.filterMap Method.queued ∧
      ((calls d).run c ms).1.told = c.told.or (ms.findSome? Method.started) ∧ ∀ m ∈ ms, m.isCancel = false := by
  induction ms generalizing c with
  | nil => simp
  | cons m ms ih =>
    obtain ⟨hm, halong⟩ := halong
    obtain ⟨heffects, hpending, htold, hcancel⟩ := call_waiting hc hm
    obtain ⟨hrest, hpending', htold', hcancel'⟩ := ih hm halong
    refine ⟨append_eq_nil_iff.mpr ⟨heffects, hrest⟩, hpending'.trans ?_, htold'.trans ?_, ?_⟩
    · rw [hpending, append_assoc]
      cases hq : m.queued with
      | none => rw [filterMap_cons_none hq]; rfl
      | some op => rw [filterMap_cons_some hq]; rfl
    · rw [htold, List.findSome?_cons]
      cases m.started <;> cases c.told <;> rfl
    · exact forall_mem_cons.mpr ⟨hcancel, hcancel'⟩

/-- How a call stops waiting: it is opened by a message, or shut by a `cancel` or a `halfClose`. -/
theorem call_leaving (hc : Waiting c) (hm : ¬Waiting (call d c m).state) :
    (∃ message sign l body proof, m = .sendMessage message sign ∧ c.listener = some l ∧
      d.streamRequest message = .ok body ∧ sign body = .ok proof ∧ Opened (call d c m).state ∧
      (call d c m).effects = .newCall :: .start l (signed d c.headers proof) ::
        (c.pending ++ [CallOp.sendMessage message]).map .real) ∨
    ((m.isCancel = true ∨ m.isHalfClose = true ∧ c.listener.isSome = true) ∧ Shut (call d c m).state ∧
      ∃ status, (call d c m).effects = (c.listener.map fun l => .onClose l status).toList) := by
  obtain ⟨hreal, hclosed⟩ := hc
  cases m with
  | start l h => cases hl : c.listener <;> simp [call, start, returns, throws, Waiting, hreal, hclosed, hl] at hm
  | request | setMessageCompression | isReady | getAttributes =>
    simp [call, queue, ask, returns, Waiting, hreal, hclosed] at hm
  | halfClose =>
    right
    cases hl : c.listener with
    | none => simp [call, halfClose, throws, Waiting, hreal, hclosed, hl] at hm
    | some l => simp [call, halfClose, returns, Shut, Method.isHalfClose, hreal, hclosed, hl]
  | cancel message cause =>
    right
    simp only [call, cancel, returns, Shut, Method.isCancel, hreal, hclosed, Bool.false_eq_true, if_false]
    exact ⟨.inl trivial, ⟨trivial, trivial⟩, _, rfl⟩
  | sendMessage message sign =>
    left
    revert hm
    simp only [call, sendMessage, hreal, hclosed]
    cases hl : c.listener with
    | none => simp [throws, Waiting, hreal, hclosed]
    | some l =>
      cases hbody : d.streamRequest message with
      | error e => simp [throws, Waiting, hreal, hclosed]
      | ok body =>
        cases hsign : sign body with
        | error e => simp [throws, Waiting, hreal, hclosed, hsign]
        | ok proof =>
          intro _
          simp only [hsign, Bool.false_eq_true, if_false]
          exact ⟨message, sign, l, body, proof, rfl, rfl, hbody, hsign, ⟨rfl, rfl, rfl⟩, rfl⟩

/-! ## Runs -/

theorem waiting_new : Waiting (new : DelayedSignedCall M L C) := ⟨rfl, rfl⟩

/-- Nothing was done outside while the call was waiting, and what was queued is pending. -/
structure Waited (d : Descriptor M) (ms : List (Method M L C)) : Prop where
  waiting : Waiting ((calls d).run new ms).1
  silent : ((calls d).run new ms).2 = []
  pending : ((calls d).run new ms).1.pending = ms.filterMap Method.queued
  told : ((calls d).run new ms).1.told = ms.findSome? Method.started
  uncancelled : ∀ m ∈ ms, m.isCancel = false

theorem Waited.of_along (halong : (calls d).Along (fun c m => Waiting (call d c m).state) new ms)
    (hend : Waiting ((calls d).run new ms).1) : Waited d ms := by
  obtain ⟨hsilent, hpending, htold, huncancelled⟩ := run_waiting waiting_new halong
  exact ⟨hend, hsilent, hpending, by simpa [DelayedSignedCall.told, new] using htold, huncancelled⟩

/-- **Every run** waits, or waits and is opened by a message, or waits and is shut. -/
theorem run_cases (d : Descriptor M) (ms : List (Method M L C)) : Waited d ms ∨
    (∃ before message sign after l headers body proof, ms = before ++ .sendMessage message sign :: after ∧
      Waited d before ∧ before.findSome? Method.started = some (l, headers) ∧ d.streamRequest message = .ok body ∧
      sign body = .ok proof ∧ Opened ((calls d).run new (before ++ [.sendMessage message sign])).1 ∧
      ((calls d).run new ms).2 = .newCall :: .start l (signed d headers proof) ::
        (before.filterMap Method.queued ++ .sendMessage message :: after.filterMap Method.forwarded).map .real) ∨
    ∃ before m after status, ms = before ++ m :: after ∧ Waited d before ∧
      (m.isCancel = true ∨ m.isHalfClose = true ∧ (before.findSome? Method.started).isSome = true) ∧
      Shut ((calls d).run new ms).1 ∧
      ((calls d).run new ms).2 = ((before.findSome? Method.started).map fun l => .onClose l.1 status).toList := by
  rcases keeps_or_leaves Waiting waiting_new ms with ⟨hend, halong⟩ | ⟨before, m, after, rfl, hwaiting,
    halong, hm⟩
  · exact .inl (.of_along halong hend)
  have hbefore : Waited d before := .of_along halong hwaiting
  have hrun : ((calls d).run new (before ++ m :: after)).2 = (call d ((calls d).run new before).1 m).effects ++
      ((calls d).run (call d ((calls d).run new before).1 m).state after).2 := by
    rw [run_append_cons, hbefore.silent]
    rfl
  have htold := hbefore.told
  rcases call_leaving hwaiting hm with ⟨message, sign, l, body, proof, rfl, hl, hbody, hsign, hopened, heffects⟩ |
    ⟨hshuts, hshut, status, heffects⟩
  · refine .inr (.inl ⟨before, message, sign, after, l, ((calls d).run new before).1.headers, body, proof, rfl, hbefore,
      ?_, hbody, hsign, ?_, ?_⟩)
    · rw [← htold, DelayedSignedCall.told, hl, Option.map_some]
    · rw [run_append]
      exact hopened
    · rw [hrun, heffects, run_opened hopened, hbefore.pending]
      simp
  · refine .inr (.inr ⟨before, m, after, status, rfl, hbefore, ?_, ?_, ?_⟩)
    · rw [← htold, DelayedSignedCall.told, Option.isSome_map]
      exact hshuts
    · rw [run_append_cons]
      exact run_keeps (P := Shut) (fun _ m h => (call_shut h m).1) hshut after
    · rw [hrun, heffects, run_shut hshut, ← htold, DelayedSignedCall.told, Option.map_map, append_nil]
      rfl

/-! ## What the channel sees -/

/-- What is not passed on to the open call is refused. -/
theorem thrown_of_not_forwarded {asked : List (Method M L C)} {opening : Method M L C}
    (hopened : Opened ((calls d).run new (before ++ [opening])).1) (hm : m.forwarded = none) :
    (call d ((calls d).run new (before ++ opening :: asked)).1 m).thrown ≠ none := by
  have hstate : ((calls d).run new (before ++ opening :: asked)).1 = ((calls d).run new (before ++ [opening])).1 := by
    rw [append_cons, run_append]
    refine run_keeps (P := (· = _)) ?_ rfl asked
    rintro _ m rfl
    exact (call_opened hopened m).1
  rw [hstate]
  intro hnone
  rw [(call_opened hopened m).2.2, hm] at hnone
  cases hnone

/-- What shuts a call that waits. -/
theorem shut_of_waiting (hc : Waiting c) (hm : m.isCancel = true ∨ m.isHalfClose = true ∧ c.listener.isSome = true) :
    Shut (call d c m).state ∧ .newCall ∉ (call d c m).effects := by
  have hleaves : ¬Waiting (call d c m).state := by
    obtain ⟨hreal, hclosed⟩ := hc
    cases m with
    | cancel => simp [call, cancel, returns, Waiting, hreal, hclosed]
    | halfClose =>
      obtain ⟨l, hl⟩ := Option.isSome_iff_exists.mp (hm.resolve_left nofun).2
      simp [call, halfClose, returns, Waiting, hreal, hclosed, hl]
    | _ => simp [Method.isCancel, Method.isHalfClose] at hm
  rcases call_leaving hc hleaves with ⟨message, sign, -, -, -, rfl, -⟩ | ⟨-, hshut, status, heffects⟩
  · simp [Method.isCancel, Method.isHalfClose] at hm
  · refine ⟨hshut, ?_⟩
    rw [heffects]
    cases c.listener <;> simp

/-- A call that was not opened yet is not opened after a `cancel` or a `halfClose`. -/
theorem newCall_notMem (hbefore : .newCall ∉ ((calls d).run new before).2)
    (hm : m.isCancel = true ∨ m.isHalfClose = true ∧ (before.findSome? Method.started).isSome = true) :
    .newCall ∉ ((calls d).run new (before ++ m :: after)).2 := by
  have hshut : Shut (call d ((calls d).run new before).1 m).state ∧
      .newCall ∉ (call d ((calls d).run new before).1 m).effects := by
    rcases run_cases d before with hwaited | ⟨b, message, sign, a, l, headers, body, proof, -, -, -, -, -, -, heffects⟩ |
      ⟨b, m', a, status, -, -, -, hshut, -⟩
    · refine shut_of_waiting hwaited.waiting ?_
      rw [← hwaited.told, told, Option.isSome_map] at hm
      exact hm
    · rw [heffects] at hbefore
      exact absurd (.head _) hbefore
    · obtain ⟨hshut', heffects⟩ := call_shut (d := d) hshut m
      exact ⟨hshut', by rw [heffects]; exact not_mem_nil⟩
  rw [run_append_cons]
  simp only [mem_append, not_or]
  refine ⟨hbefore, hshut.2, ?_⟩
  rw [show (calls d).run ((calls d).step _ m).1 after = (calls d).run (call d _ m).state after from rfl,
    run_shut hshut.1]
  exact not_mem_nil

/-- What an open call does outside has one new call and no end of the listener. -/
theorem filter_opening (l : L) (headers : Metadata) (ops : List (CallOp M C)) :
    ((.newCall :: .start l headers :: ops.map .real : List (Effect M L C)).filter Effect.isNewCall).length = 1 ∧
      (.newCall :: .start l headers :: ops.map .real : List (Effect M L C)).filter Effect.isOnClose = [] := by
  constructor
  · rw [filter_cons_of_pos rfl, filter_cons_of_neg (by simp [Effect.isNewCall]),
      Effect.filter_real fun _ => rfl]
    rfl
  · rw [filter_cons_of_neg (by simp [Effect.isOnClose]), filter_cons_of_neg (by simp [Effect.isOnClose]),
      Effect.filter_real fun _ => rfl]

/-- **A call is opened and signed at most once, and in order.** -/
theorem opened_once_in_order (d : Descriptor M) (ms : List (Method M L C)) :
    let effects := ((calls d).run new ms).2
    -- One real call, and one end of the listener by the wrapper at most.
    (effects.filter Effect.isNewCall).length ≤ 1 ∧ (effects.filter Effect.isOnClose).length ≤ 1 ∧
    -- A real call sees its start, what was queued, the message that was signed, and all that is asked later on; the
    -- wrapper does nothing else.
    (.newCall ∈ effects ∨ (∃ op, .real op ∈ effects) ∨ (∃ l headers, .start l headers ∈ effects) →
      ∃ before message sign after l headers body proof, ms = before ++ .sendMessage message sign :: after ∧
        before.findSome? Method.started = some (l, headers) ∧ d.streamRequest message = .ok body ∧
        sign body = .ok proof ∧
        effects = .newCall :: .start l (signed d headers proof) ::
          (before.filterMap Method.queued ++ .sendMessage message :: after.filterMap Method.forwarded).map .real ∧
        -- What is not passed on any more is refused.
        ∀ asked m later, after = asked ++ m :: later → m.forwarded = none →
          (call d ((calls d).run new (before ++ .sendMessage message sign :: asked)).1 m).thrown ≠ none) ∧
    -- A call that was cancelled or closed without a message is never opened.
    ∀ before m after, ms = before ++ m :: after → .newCall ∉ ((calls d).run new before).2 →
      m.isCancel = true ∨ m.isHalfClose = true ∧ (before.findSome? Method.started).isSome = true →
      .newCall ∉ effects := by
  intro effects
  have hclosed : ∀ before m after, ms = before ++ m :: after → .newCall ∉ ((calls d).run new before).2 →
      m.isCancel = true ∨ m.isHalfClose = true ∧ (before.findSome? Method.started).isSome = true →
      .newCall ∉ effects := by
    rintro before m after rfl hbefore hm
    exact newCall_notMem hbefore hm
  rcases run_cases d ms with hwaited | ⟨before, message, sign, after, l, headers, body, proof, rfl, hbefore, hstarted,
    hbody, hsign, hopened, heffects⟩ | ⟨before, m, after, status, rfl, hbefore, -, -, heffects⟩
  · simp only [effects, hwaited.silent]
    refine ⟨Nat.zero_le 1, Nat.zero_le 1, ?_, by simp⟩
    simp
  · have hout : effects = _ := heffects
    obtain ⟨hnew, hclose⟩ := filter_opening l (signed d headers proof)
      (before.filterMap Method.queued ++ .sendMessage message :: after.filterMap Method.forwarded)
    rw [← hout] at hnew hclose
    refine ⟨hnew.le, by simp [hclose], fun _ => ?_, hclosed⟩
    refine ⟨before, message, sign, after, l, headers, body, proof, rfl, hstarted, hbody, hsign, heffects, ?_⟩
    rintro asked m later rfl hm
    exact thrown_of_not_forwarded hopened hm
  · have hout : effects = ((before.findSome? Method.started).map fun l => .onClose l.1 status).toList := heffects
    have hlength : effects.length ≤ 1 := by
      rw [hout]
      cases before.findSome? Method.started <;> simp
    refine ⟨(List.length_filter_le _ _).trans hlength, (List.length_filter_le _ _).trans hlength, ?_, hclosed⟩
    rw [hout]
    cases before.findSome? Method.started <;> simp

/-- The request message is empty. -/
def listTenants : Descriptor Unit := ⟨"seam.api.v1.SeamAdmin/ListTenants", fun _ => .ok [], "token"⟩

/-- A first attempt that is not signed, and then a call with its message. -/
theorem opened_once_in_order_second_attempt :
    let ms : List (Method Unit Unit Unit) := [.request 1, .start () [], .sendMessage () fun _ => .error (),
      .setMessageCompression true, .sendMessage () fun _ => .ok "proof", .halfClose]
    let effects := ((calls listTenants).run new ms).2
    effects = [.newCall, .start () [("authorization", "DPoP token"), ("dpop", "proof")], .real (.request 1),
      .real (.setMessageCompression true), .real (.sendMessage ()), .real .halfClose] ∧
    (effects.filter Effect.isNewCall).length ≤ 1 := by
  intro ms effects
  exact ⟨by decide, (opened_once_in_order listTenants ms).1⟩

/-! ## What the listener hears -/

/-- The listener hears of the end: from the real call, which was cancelled, or from the wrapper. -/
def Heard (l : L) (effects : List (Effect M L C)) : Prop :=
  ((∃ headers, .start l headers ∈ effects) ∧ ∃ message cause, .real (.cancel message cause) ∈ effects) ∨
    ∃ status, .onClose l status ∈ effects

theorem isSome_listener_call (h : c.listener.isSome = true ∨ m.started.isSome = true) :
    (call d c m).state.listener.isSome = true := by
  cases hl : c.listener with
  | none =>
    cases m with
    | start => simp [call, start, returns, hl]
    | _ => simp [Method.started, hl] at h
  | some l =>
    cases m with
    | sendMessage message sign =>
      simp only [call, sendMessage, hl]
      repeat' split
      all_goals simp [returns, throws, hl]
    | start => simp [call, start, throws, hl]
    | request | setMessageCompression =>
      simp only [call, queue]
      repeat' split
      all_goals simp [returns, hl]
    | halfClose | cancel =>
      simp only [call, halfClose, cancel, hl]
      repeat' split
      all_goals simp [returns, hl]
    | isReady | getAttributes => simp [call, ask, returns, hl]

/-- A call that was started has its listener. -/
theorem isSome_listener_run (h : c.listener.isSome = true ∨ (ms.findSome? Method.started).isSome = true) :
    ((calls d).run c ms).1.listener.isSome = true := by
  induction ms generalizing c with
  | nil => exact h.resolve_right (by simp)
  | cons m ms ih =>
    rw [run_cons]
    apply ih
    cases hm : m.started with
    | some l => exact .inl (isSome_listener_call (.inr (by simp [hm])))
    | none =>
      rw [List.findSome?_cons, hm] at h
      exact h.imp_left fun hl => isSome_listener_call (.inl hl)

/-- Of two methods in a sequence, one comes first. -/
theorem before_or_behind {b a : List (Method M L C)} {m' : Method M L C} (hne : m ≠ m')
    (h : before ++ m :: after = b ++ m' :: a) :
    (∃ between, b = before ++ m :: between) ∨ ∃ between, before = b ++ m' :: between := by
  rcases append_eq_append_iff.mp h with ⟨x, hb, hx⟩ | ⟨x, hbefore, hx⟩
  · cases x with
    | nil => exact absurd (List.cons.inj hx).1 hne
    | cons y x => exact .inl ⟨x, by rw [hb, (List.cons.inj hx).1]⟩
  · cases x with
    | nil => exact absurd (List.cons.inj hx).1.symm hne
    | cons y x => exact .inr ⟨x, by rw [hbefore, (List.cons.inj hx).1]⟩

/-- A call is started once: a second `start` is refused. -/
theorem unstarted_before {l : L} {headers : Metadata}
    (hsmooth : (calls d).Along (fun c m => (call d c m).thrown = none) new (before ++ .start l headers :: after)) :
    before.findSome? Method.started = none := by
  obtain ⟨-, hnone, -⟩ := along_append.mp hsmooth
  by_contra hstarted
  have hlistener := isSome_listener_run (d := d) (c := new) (.inr (Option.isSome_iff_ne_none.mpr hstarted))
  simp [call, start, throws, hlistener] at hnone

/-- A `cancel` that did not come before the opening message is passed on. -/
theorem cancel_forwarded {opening : Method M L C} (hbefore : ∀ m ∈ before, m.isCancel = false)
    (hopening : opening.isCancel = false) (hm : m ∈ before ++ opening :: after) (hc : m.isCancel = true) :
    ∃ text cause, .cancel text cause ∈ after.filterMap Method.forwarded := by
  rw [mem_append, mem_cons] at hm
  rcases hm with hm | rfl | hm
  · rw [hbefore m hm] at hc
    cases hc
  · rw [hopening] at hc
    cases hc
  · cases m with
    | cancel text cause => exact ⟨text, cause, mem_filterMap.mpr ⟨_, hm, rfl⟩⟩
    | _ => cases hc

/-- **A call that is started and cancelled ends for its listener** if and only if it was not cancelled before it was
started. -/
theorem heard_iff_started_first {d : Descriptor M} {ms before after : List (Method M L C)} {l : L} {headers : Metadata}
    (hsmooth : (calls d).Along (fun c m => (call d c m).thrown = none) new ms)
    (hstart : ms = before ++ .start l headers :: after) (hcancel : ∃ m ∈ ms, m.isCancel = true) :
    Heard l ((calls d).run new ms).2 ↔ ∀ m ∈ before, m.isCancel = false := by
  subst hstart
  have hunstarted := unstarted_before hsmooth
  have hstarted_of (between : List (Method M L C)) :
      (before ++ .start l headers :: between).findSome? Method.started = some (l, headers) := by
    rw [List.findSome?_append, hunstarted]
    rfl
  rcases run_cases d (before ++ .start l headers :: after) with hwaited | ⟨b, message, sign, a, l', headers', body, proof,
    hsplit, hb, hstarted, -, -, -, heffects⟩ | ⟨b, m, a, status, hsplit, hb, hm, -, heffects⟩
  · obtain ⟨m, hm, hc⟩ := hcancel
    rw [hwaited.uncancelled m hm] at hc
    cases hc
  · -- The message opens the call, so it was started before it, and the cancel comes behind it.
    rw [heffects]
    have hne : Method.start l headers ≠ .sendMessage message sign := nofun
    rcases before_or_behind hne hsplit with ⟨between, rfl⟩ | ⟨between, rfl⟩
    · cases (hstarted_of between).symm.trans hstarted
      refine iff_of_true (.inl ⟨⟨_, .tail _ (.head _)⟩, ?_⟩) fun m hm => hb.uncancelled m (List.mem_append_left _ hm)
      obtain ⟨m, hm, hc⟩ := hcancel
      obtain ⟨text, cause, hforwarded⟩ := cancel_forwarded hb.uncancelled rfl (hsplit ▸ hm) hc
      refine ⟨text, cause, .tail _ (.tail _ (List.mem_map_of_mem ?_))⟩
      exact List.mem_append_right _ (.tail _ hforwarded)
    · rw [List.findSome?_append, hstarted] at hunstarted
      cases hunstarted
  · rw [heffects]
    have hne : Method.start l headers ≠ m := by
      rintro rfl
      simp [Method.isCancel, Method.isHalfClose] at hm
    rcases before_or_behind hne hsplit with ⟨between, rfl⟩ | ⟨between, rfl⟩
    · rw [hstarted_of between]
      exact iff_of_true (.inr ⟨status, by simp⟩) fun m hm => hb.uncancelled m (List.mem_append_left _ hm)
    · -- Shut before it was started: by a cancel, which nobody hears of.
      rw [List.findSome?_append, Option.or_eq_none_iff] at hunstarted
      rw [hunstarted.1] at hm ⊢
      refine iff_of_false (by simp [Heard]) fun huncancelled => ?_
      have hc := huncancelled m (by simp)
      simp [hc] at hm

/-- Cancelled before it was started. -/
def cancelledEarly : List (Method Unit Unit Unit) := [.cancel none none, .start () []]

theorem cancelled_early_unheard :
    (calls listTenants).Along (fun c m => (call listTenants c m).thrown = none) new cancelledEarly ∧
      (∃ m ∈ cancelledEarly, m.isCancel = true) ∧ .start () [] ∈ cancelledEarly ∧
      ¬Heard () ((calls listTenants).run new cancelledEarly).2 := by
  refine ⟨⟨rfl, rfl, trivial⟩, ⟨_, .head _, rfl⟩, .tail _ (.head _), ?_⟩
  rintro (⟨⟨headers, h⟩, -⟩ | ⟨status, h⟩)
  · cases h
  · cases h

theorem heard_iff_started_first_one_message :
    let ms : List (Method Unit Unit Unit) :=
      [.request 1, .start () [], .sendMessage () fun _ => .ok "proof", .cancel none none]
    Heard () ((calls listTenants).run new ms).2 := by
  intro ms
  have hsmooth : (calls listTenants).Along (fun c m => (call listTenants c m).thrown = none) new ms :=
    ⟨rfl, rfl, rfl, rfl, trivial⟩
  have hstart : ms = [.request 1] ++ .start () [] :: ms.drop 2 := rfl
  have hheard := heard_iff_started_first hsmooth hstart ⟨.cancel none none, by simp [ms], rfl⟩
  exact hheard.mpr (by simp [Method.isCancel])

end DelayedSignedCall

end SeamSdk.Java
