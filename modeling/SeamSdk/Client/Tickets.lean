import SeamSdk.Lib.Threads
import SeamSdk.Client.Cache
import Mathlib.Algebra.Order.Ring.Unbundled.Rat

/-!
# Admission tickets in the blocking Python client

A client is admitted once and caches its ticket. Calls on one identity share the cache and its lock: a call fetches the
ticket (`ticketFor`), signs with it, and when the server rejects it fetches another one (`refreshTicket`), which is the
one another call has got meanwhile or a new one. A write that the server burns before it refuses costs its ticket
(`forgetBurnedTicket`). `withSessionRetry` repeats a call.

Calls are programs over the operations of `Op`: taking and giving back the lock, reading the clock, the cache, and the
requests to the server. Other threads may come in between any two. What happens is noted in the log of the `World`;
`Mark`s note where a fetch begins and where a call is over.

- `step`: one operation of a thread;
- `ticketFor`, `refreshTicket`, `credentialedCall`, `withSessionRetry`: the calls as programs over the operations.
-/

namespace SeamSdk.PyClient

open ByteCodec Threads Ledger

/-! ## Operations -/

inductive Op
  | acquire
  | release
  | nowMs
  | cacheGet (nowMs : Int)
  | cacheStore (ticket : Bytes) (expiresAtMs nowMs : Int)
  | cacheInvalidate
  | issueChallenge
  | requestAdmit
  | send (rpcFullName : String) (ticket : Bytes)
  | sleep (delay : Rat)
  | random
  | mark (m : Mark)

/-- What an operation answers. `Admit` answers a ticket and its expiry. -/
@[reducible] def Res : Op → Type
  | .nowMs => Int
  | .cacheGet _ => Option Bytes
  | .issueChallenge => Except SeamRpcError Unit
  | .requestAdmit => Except SeamRpcError (Bytes × Int)
  | .send _ _ => Except SeamRpcError Unit
  | .random => Rat
  | _ => Unit

/-- The cache and the lock of one identity, and what has happened so far, newest first. -/
structure World where
  lock : Option Nat
  cache : TicketCache
  log : List Event

def World.initial : World := ⟨none, .invalidate, []⟩

def note (env : Surroundings) (e : Event) (w : World) : Option World :=
  if env w.log e then some { w with log := e :: w.log } else none

/-- The turn of thread `i`. The lock is taken only when it is free. -/
def step (env : Surroundings) (i : Nat) : (o : Op) → Res o → World → Option World
  | .acquire, _, w => if w.lock = none then some { w with lock := some i } else none
  | .release, _, w => some { w with lock := none }
  | .nowMs, (now : Int), w => note env (.clock now) w
  | .cacheGet now, (answer : Option Bytes), w =>
    if answer = w.cache.get now then
      match answer with
      | none => some w
      | some t => note env (.got i now t) w
    else none
  | .cacheStore t exp now, _, w => note env (.stored t exp now) { w with cache := .store t exp now }
  | .cacheInvalidate, _, w =>
    match w.cache.ticket with
    | none => some { w with cache := .invalidate }
    | some t => note env (.dropped t) { w with cache := .invalidate }
  | .issueChallenge, _, w => some w
  | .requestAdmit, (answer : Except SeamRpcError (Bytes × Int)), w =>
    match answer with
    | .ok (t, exp) => note env (.admitted t exp) w
    | .error _ => some w
  | .send rpc t, (answer : Except SeamRpcError Unit), w => note env (.answered i rpc t (errorOf answer)) w
  | .sleep _, _, w => some w
  | .random, _, w => some w
  | .mark m, _, w => note env (.marked i m) w

def client (env : Surroundings) : System Res World := ⟨step env⟩

/-! ## Calls -/

abbrev Client := ExceptT SeamRpcError (Prog Res)

namespace Client

def perform (o : Op) : Prog Res (Res o) := Prog.perform o

/-- An operation that does not raise. -/
def op (o : Op) : Client (Res o) := Prog.liftE (perform o)

def nowMs : Client Int := op .nowMs

def cacheGet (nowMs : Int) : Client (Option Bytes) := op (.cacheGet nowMs)

def issueChallenge : Client Unit := .mk (perform .issueChallenge)

def requestAdmit : Client (Bytes × Int) := .mk (perform .requestAdmit)

def send (rpcFullName : String) (ticket : Bytes) : Client Unit := .mk (perform (.send rpcFullName ticket))

/-- `with lock:`; the lock is given back however the body ends. -/
def withLock (body : Client α) : Client α := .mk do
  perform .acquire
  let r ← body.run
  perform .release
  return r

/-- Notes that a call is over, however it ends. -/
def ending (m : Mark) (body : Client α) : Client α := .mk do
  let r ← body.run
  perform (.mark m)
  return r

/-- `_presentation`: the challenge is answered with a signature, which is dated. -/
def presentation : Client Unit := do
  issueChallenge
  let _ ← nowMs

/-- `_admit_locked`. -/
def admitLocked : Client Bytes := do
  presentation
  let (ticket, expiresAtMs) ← requestAdmit
  let now ← nowMs
  op (.cacheStore ticket expiresAtMs now)
  return ticket

/-- The handshake on request. -/
def admitAgent : Client Bytes := withLock admitLocked

/-- `_ticket_for`. -/
def ticketFor : Client Bytes := do
  op (.mark .fetching)
  let ticket ← withLock do
    match ← cacheGet (← nowMs) with
    | some ticket => return ticket
    | none => admitLocked
  op (.mark (.fetched ticket))
  return ticket

/-- `_refresh_ticket`: the ticket another call has got meanwhile, or a new one. -/
def refreshTicket (failed : Bytes) : Client Bytes := do
  op (.mark .fetching)
  let ticket ← ending (.refreshed failed) <| withLock do
    let current ← cacheGet (← nowMs)
    match current.filter (· ≠ failed) with
    | some ticket => return ticket
    | none =>
      op .cacheInvalidate
      admitLocked
  op (.mark (.fetched ticket))
  return ticket

/-- `_invalidate_ticket`. -/
def invalidateTicket (failed : Bytes) : Client Unit := withLock do
  if (← cacheGet (← nowMs)) = some failed then op .cacheInvalidate else pure ()

/-- `_forget_burned_ticket`. -/
def forgetBurnedTicket (ticket : Bytes) (rpcFullName : String) (e : SeamRpcError) : Client Unit :=
  if burns rpcFullName e then ending (.forgot ticket) (invalidateTicket ticket) else pure ()

/-- The request with its last handler: `except (UnavailableError, FailedPreconditionError)`. -/
def sendLast (rpcFullName : String) (ticket : Bytes) : Client Unit :=
  tryCatch (send rpcFullName ticket) fun e => do
    if e.code = .unavailable ∨ e.code = .failedPrecondition then forgetBurnedTicket ticket rpcFullName e
    throw e

def authorize : Client Unit := do
  let ticket ← ticketFor
  tryCatch (send authorizeRpc ticket) fun e => do
    if e.code = .unauthenticated then
      let ticket ← refreshTicket ticket
      send authorizeRpc ticket
    else throw e

/-- `_signed_once`. -/
def signedOnce (rpcFullName : String) : Client Unit := do
  let ticket ← ticketFor
  sendLast rpcFullName ticket

/-- `_credentialed_call`. -/
def credentialedCall (rpcFullName : String) (retry : Bool) : Client Unit := do
  let ticket ← ticketFor
  tryCatch (send rpcFullName ticket) fun e => do
    if e.code = .unavailable ∨ e.code = .failedPrecondition then
      forgetBurnedTicket ticket rpcFullName e
      throw e
    else if e.code ≠ .unauthenticated then throw e
    else if retry = false then
      invalidateTicket ticket
      throw e
    else
      let ticket ← refreshTicket ticket
      sendLast rpcFullName ticket

end Client

def runCall : Call → Client Unit
  | .admitAgent => do let _ ← Client.admitAgent
  | .authorize => Client.authorize
  | .signedOnce rpc => Client.signedOnce rpc
  | .credentialedCall rpc retry => Client.credentialedCall rpc retry

/-! ## Repeated calls -/

structure RetryLimits where
  budget : Rat
  baseDelay : Rat
  maxDelay : Rat
  maxAttempts : Int

/-- `_next_delay` for an error that is retried while attempts are left. -/
def nextDelay (l : RetryLimits) (e : SeamRpcError) (attempt : Nat) (waited random : Rat) : Option Rat :=
  let delay := e.retryAfter.getD 0 + random * min l.maxDelay (l.baseDelay * 2 ^ (attempt - 1))
  if waited + delay > l.budget then none else some delay

namespace Client

def random : Client Rat := op .random

variable (l : RetryLimits) (call : Client Unit)

/-- The loop of `with_session_retry`, with the number of attempts that are left after this one. -/
def retryFrom : Nat → Nat → Rat → Client Unit
  | 0, attempt, _ => do
    op (.mark (.attempt attempt))
    call
  | left + 1, attempt, waited => do
    op (.mark (.attempt attempt))
    tryCatch call fun e => do
      if e.isRetryable then
        match nextDelay l e attempt waited (← random) with
        | none => throw e
        | some delay =>
          op (.sleep delay)
          retryFrom left (attempt + 1) (waited + delay)
      else throw e

def withSessionRetry : Client Unit := retryFrom l call (l.maxAttempts - 1).toNat 1 0

end Client

/-- What a thread does with the client: a call, or a call with `with_session_retry` around it. -/
inductive Use
  | once (c : Call)
  | retried (l : RetryLimits) (c : Call)

def Use.call : Use → Call
  | .once c => c
  | .retried _ c => c

def Use.run : Use → Prog Res (Except SeamRpcError Unit)
  | .once c => (runCall c).run
  | .retried l c => (Client.withSessionRetry l (runCall c)).run

/-- A thread: any program over such uses, which sees how each of them ends. -/
abbrev User := Prog (fun _ : Use => Except SeamRpcError Unit) Unit

def start (users : Nat → User) : Config Res World Unit := ⟨.initial, fun i => (users i).interp Use.run⟩

/-- Answers at one time: the clock, what the cache gives, what `Admit` gives, and how a request ends. -/
def answers (now : Int) (cached : Option Bytes) (admitted : Bytes × Int) (reply : Except SeamRpcError Unit) :
    (o : Op) → Res o
  | .nowMs => now
  | .cacheGet _ => cached
  | .issueChallenge => .ok ()
  | .requestAdmit => .ok admitted
  | .send _ _ => reply
  | .random => 0
  | .acquire | .release | .cacheStore _ _ _ | .cacheInvalidate | .sleep _ | .mark _ => ()

end SeamSdk.PyClient
