import SeamSdk.Lib.Sections
import SeamSdk.Client.Tickets

/-!
# Admission tickets in the asyncio client

The asyncio client does what the blocking one does, with tasks for threads. The difference is that a task can be
cancelled wherever it awaits something: then `CancelledError` is raised there, no handler of the client catches it, and
every lock is given back on the way out. At which of these places a task can be cancelled is a parameter
(`Await → Bool`).

Tasks take turns at every operation, not only where they await. The runs of the event loop are among these runs.

- `step`: one operation of a task;
- `admitLocked`, `ticketFor`, `refreshTicket`, `credentialedCall`: the functions as programs over the operations;
- `Task`: any program over the calls.
-/

namespace SeamSdk.AioClient

open ByteCodec Threads
open PyClient (TicketCache)

/-! ## Operations -/

/-- What a task raises. `other` is for what the client raises itself, when it cannot make a signature. -/
inductive AioError
  | rpc (e : SeamRpcError)
  | cancelled
  | other (text : String)
  deriving DecidableEq, Repr

/-- `UnauthenticatedError`. -/
def AioError.isUnauthenticated : AioError → Bool
  | .rpc e => e.code = .unauthenticated
  | _ => false

/-- What a locked section is for: `admit`, a fetch, a refresh, and `_invalidate_ticket` after a rejection or to forget a
burned ticket. -/
inductive Purpose
  | admitAgent
  | fetch
  | refresh
  | reject
  | forget
  deriving DecidableEq, Repr

/-- Where a task awaits something: the lock of the registry, the lock of the identity, the replies of `IssueChallenge`
and `Admit`, and the reply to a request. -/
inductive Await
  | registryLock (u : Purpose)
  | lock (u : Purpose)
  | challenge (u : Purpose)
  | admission (u : Purpose)
  | reply
  deriving DecidableEq, Repr

inductive Op
  /-- A call begins, and a task is over. -/
  | enter
  | finish
  | cacheAndLock (u : Purpose)
  | acquire (u : Purpose)
  | release (u : Purpose) (exc : Option AioError)
  | nowMs
  | cacheGet (nowMs : Int)
  | cacheStore (ticket : Bytes) (expiresAtMs nowMs : Int)
  | cacheInvalidate
  | issueChallenge (u : Purpose)
  | requestAdmit (u : Purpose)
  | send (rpcFullName : String) (ticket : Bytes)
  | receive (rpcFullName : String) (ticket : Bytes)

/-- How the wait for a lock ends. -/
inductive Wait
  | granted
  | cancelled
  deriving DecidableEq, Repr

/-- What an operation answers. A request that cannot be signed is not sent. -/
@[reducible] def Res : Op → Type
  | .cacheAndLock _ | .acquire _ => Wait
  | .nowMs => Int
  | .cacheGet _ => Option Bytes
  | .issueChallenge _ => Except AioError Unit
  | .requestAdmit _ => Except AioError (Bytes × Int)
  | .send _ _ => Option String
  | .receive _ _ => Except AioError Unit
  | _ => Unit

inductive Event
  | entered (task : Nat)
  | finished (task : Nat)
  | clock (nowMs : Int)
  | admitted (ticket : Bytes) (expiresAtMs : Int)
  | stored (ticket : Bytes)
  | released (task : Nat) (u : Purpose) (exc : Option AioError) (cache : TicketCache)
  | sent (task : Nat) (rpcFullName : String) (ticket : Bytes)
  | delivered (task : Nat) (rpcFullName : String) (ticket : Bytes) (error : Option SeamRpcError)
  deriving DecidableEq, Repr

namespace Event

/-- The ticket an `Admit` gave. -/
def ticket? : Event → Option Bytes
  | .admitted t _ => some t
  | _ => none

/-- A reading of the clock. -/
def clock? : Event → Option Int
  | .clock now => some now
  | _ => none

end Event

/-- Which reading of the clock or which ticket can come after what has happened. -/
abbrev Surroundings := List Event → Event → Bool

/-- The cache and the lock of one identity, and what has happened so far, newest first. -/
structure World where
  lock : Option Nat
  cache : TicketCache
  log : List Event

def World.initial : World := ⟨none, .invalidate, []⟩

namespace World

def note (w : World) (e : Event) : World := { w with log := e :: w.log }

end World

/-- An answer that may be a cancellation. -/
def resumes {α : Type} (may : Bool) : Except AioError α → Bool
  | .error .cancelled => may
  | _ => true

section Step

variable (may : Await → Bool) (env : Surroundings)

/-- The turn of task `i`. The lock is taken only when it is free. The lock of the registry guards two lookups, and
nothing is awaited under it. -/
def step (i : Nat) : (o : Op) → Res o → World → Option World
  | .enter, _, w => some (w.note (.entered i))
  | .finish, _, w => some (w.note (.finished i))
  | .cacheAndLock u, (r : Wait), w =>
    match r with
    | .granted => some w
    | .cancelled => if may (.registryLock u) then some w else none
  | .acquire u, (r : Wait), w =>
    match r with
    | .granted => if w.lock = none then some { w with lock := some i } else none
    | .cancelled => if may (.lock u) then some w else none
  | .release u exc, _, w => some { w.note (.released i u exc w.cache) with lock := none }
  | .nowMs, (now : Int), w => if env w.log (.clock now) then some (w.note (.clock now)) else none
  | .cacheGet now, (answer : Option Bytes), w => if answer = w.cache.get now then some w else none
  | .cacheStore t exp now, _, w => some { w.note (.stored t) with cache := .store t exp now }
  | .cacheInvalidate, _, w => some { w with cache := .invalidate }
  | .issueChallenge u, (r : Except AioError Unit), w => if resumes (may (.challenge u)) r then some w else none
  | .requestAdmit u, (r : Except AioError (Bytes × Int)), w =>
    match r with
    | .ok (t, exp) => if env w.log (.admitted t exp) then some (w.note (.admitted t exp)) else none
    | .error _ => if resumes (may (.admission u)) r then some w else none
  | .send rpc t, (r : Option String), w =>
    match r with
    | none => some (w.note (.sent i rpc t))
    | some _ => some w
  | .receive rpc t, (r : Except AioError Unit), w =>
    match r with
    | .ok () => some (w.note (.delivered i rpc t none))
    | .error (.rpc e) => some (w.note (.delivered i rpc t (some e)))
    | .error _ => if resumes (may .reply) r then some w else none

def client : System Res World := ⟨step may env⟩

end Step

/-! ## Functions -/

abbrev Aio := ExceptT AioError (Prog Res)

namespace Aio

def perform (o : Op) : Prog Res (Res o) := Prog.perform o

/-- An operation that does not raise. -/
def op (o : Op) : Aio (Res o) := Prog.liftE (perform o)

def nowMs : Aio Int := op .nowMs

def cacheGet (nowMs : Int) : Aio (Option Bytes) := op (.cacheGet nowMs)

def issueChallenge (u : Purpose) : Aio Unit := .mk (perform (.issueChallenge u))

def requestAdmit (u : Purpose) : Aio (Bytes × Int) := .mk (perform (.requestAdmit u))

def receive (rpcFullName : String) (ticket : Bytes) : Aio Unit := .mk (perform (.receive rpcFullName ticket))

def waited : Wait → Except AioError Unit
  | .granted => .ok ()
  | .cancelled => .error .cancelled

/-- `_cache_and_lock`. -/
def cacheAndLock (u : Purpose) : Aio Unit := .mk ((perform (.cacheAndLock u)).bind fun r => .ret (waited r))

def acquire (u : Purpose) : Aio Unit := .mk ((perform (.acquire u)).bind fun r => .ret (waited r))

/-- The exception a section is left with. -/
def exceptionOf {α : Type} : Except AioError α → Option AioError
  | .ok _ => none
  | .error e => some e

/-- The body and the way out of `async with lock:`, whatever is raised. -/
def releasing {α : Type} (u : Purpose) (body : Aio α) : Aio α := .mk do
  let r ← body.run
  perform (.release u (exceptionOf r))
  return r

/-- `cache, lock = await self._cache_and_lock(aid)` and `async with lock:`. -/
def withLock {α : Type} (u : Purpose) (body : Aio α) : Aio α := do
  cacheAndLock u
  acquire u
  releasing u body

/-- `_admit_locked`, with `_presentation`. -/
def admitLocked (u : Purpose) : Aio Bytes := do
  issueChallenge u
  let _ ← nowMs
  let (ticket, expiresAtMs) ← requestAdmit u
  let now ← nowMs
  op (.cacheStore ticket expiresAtMs now)
  return ticket

/-- `admit`. -/
def admitAgent : Aio Bytes := withLock .admitAgent (admitLocked .admitAgent)

/-- `_ticket_for`. -/
def ticketFor : Aio Bytes := withLock .fetch do
  match ← cacheGet (← nowMs) with
  | some ticket => return ticket
  | none => admitLocked .fetch

/-- `_refresh_ticket`. -/
def refreshTicket (failed : Bytes) : Aio Bytes := withLock .refresh do
  let current ← cacheGet (← nowMs)
  match current.filter (· ≠ failed) with
  | some ticket => return ticket
  | none =>
    op .cacheInvalidate
    admitLocked .refresh

/-- `_invalidate_ticket`. -/
def invalidateTicket (u : Purpose) (failed : Bytes) : Aio Unit := withLock u do
  if (← cacheGet (← nowMs)) = some failed then op .cacheInvalidate else pure ()

/-- `_forget_burned_ticket`. -/
def forgetBurnedTicket (ticket : Bytes) (rpcFullName : String) (e : SeamRpcError) : Aio Unit :=
  if burns rpcFullName e then invalidateTicket .forget ticket else pure ()

/-- A request signed under the ticket, and its reply. -/
def sendUnder (rpcFullName : String) (ticket : Bytes) : Aio Unit := do
  match ← op (.send rpcFullName ticket) with
  | some text => throw (.other text)
  | none => receive rpcFullName ticket

/-- `except (UnavailableError, FailedPreconditionError)`: forget a burned ticket and raise again. Any other exception is
not caught. -/
def forgetAndRaise (rpcFullName : String) (ticket : Bytes) : AioError → Aio Unit
  | .rpc e => do
    if e.code = .unavailable ∨ e.code = .failedPrecondition then forgetBurnedTicket ticket rpcFullName e
    throw (.rpc e)
  | exc => throw exc

def sendLast (rpcFullName : String) (ticket : Bytes) : Aio Unit :=
  tryCatch (sendUnder rpcFullName ticket) (forgetAndRaise rpcFullName ticket)

def authorize : Aio Unit := do
  let ticket ← ticketFor
  tryCatch (sendUnder authorizeRpc ticket) fun exc => do
    if exc.isUnauthenticated then
      let ticket ← refreshTicket ticket
      sendUnder authorizeRpc ticket
    else throw exc

/-- `_signed_once`. -/
def signedOnce (rpcFullName : String) : Aio Unit := do
  let ticket ← ticketFor
  sendLast rpcFullName ticket

/-- `_credentialed_call`. -/
def credentialedCall (rpcFullName : String) (retry : Bool) : Aio Unit := do
  let ticket ← ticketFor
  tryCatch (sendUnder rpcFullName ticket) fun exc => do
    if exc.isUnauthenticated then
      if retry = false then
        invalidateTicket .reject ticket
        throw exc
      else
        let ticket ← refreshTicket ticket
        sendLast rpcFullName ticket
    else forgetAndRaise rpcFullName ticket exc

end Aio

def runCall : Call → Aio Unit
  | .admitAgent => do let _ ← Aio.admitAgent
  | .authorize => Aio.authorize
  | .signedOnce rpc => Aio.signedOnce rpc
  | .credentialedCall rpc retry => Aio.credentialedCall rpc retry

/-- What goes with binding and catching, and is true of fetching, dropping and sending. -/
structure Composed (P : (α : Type) → Aio α → Prop) : Prop where
  bind : ∀ {α β : Type} {f : Aio α} {g : α → Aio β}, P α f → (∀ a, P β (g a)) → P β (f >>= g)
  caught : ∀ {α : Type} {f : Aio α} {handler : AioError → Aio α}, P α f → (∀ e, P α (handler e)) →
    P α (tryCatch f handler)
  pure : ∀ {α : Type} (a : α), P α (Pure.pure a)
  throw : ∀ {α : Type} (e : AioError), P α (MonadExcept.throw e)
  admitAgent : P _ Aio.admitAgent
  ticketFor : P _ Aio.ticketFor
  refreshTicket : ∀ failed, P _ (Aio.refreshTicket failed)
  invalidateTicket : ∀ u, u ≠ .refresh → ∀ failed, P _ (Aio.invalidateTicket u failed)
  send : ∀ rpc ticket, P _ (Aio.op (.send rpc ticket))
  receive : ∀ rpc ticket, P _ (Aio.receive rpc ticket)

namespace Composed

variable {P : (α : Type) → Aio α → Prop} (h : Composed P)

include h

theorem sendUnder (rpc : String) (ticket : Bytes) : P _ (Aio.sendUnder rpc ticket) := by
  refine h.bind (h.send rpc ticket) fun r => ?_
  cases r with
  | some text => exact h.throw _
  | none => exact h.receive rpc ticket

theorem forgetAndRaise (rpc : String) (ticket : Bytes) (exc : AioError) : P _ (Aio.forgetAndRaise rpc ticket exc) := by
  cases exc with
  | rpc e =>
    unfold Aio.forgetAndRaise
    dsimp only
    split
    · refine h.bind ?_ fun _ => h.throw _
      unfold Aio.forgetBurnedTicket
      split
      · exact h.invalidateTicket .forget nofun _
      · exact h.pure _
    · exact h.throw _
  | cancelled | other => exact h.throw _

theorem sendLast (rpc : String) (ticket : Bytes) : P _ (Aio.sendLast rpc ticket) :=
  h.caught (h.sendUnder rpc ticket) (h.forgetAndRaise rpc ticket)

/-- **It is true of every call.** -/
theorem runCall (c : Call) : P _ (runCall c) := by
  cases c with
  | admitAgent => exact h.bind h.admitAgent fun _ => h.pure _
  | authorize =>
    refine h.bind h.ticketFor fun ticket => h.caught (h.sendUnder _ _) fun exc => ?_
    split
    · exact h.bind (h.refreshTicket _) fun _ => h.sendUnder _ _
    · exact h.throw _
  | signedOnce rpc => exact h.bind h.ticketFor fun _ => h.sendLast _ _
  | credentialedCall rpc retry =>
    refine h.bind h.ticketFor fun ticket => h.caught (h.sendUnder _ _) fun exc => ?_
    split
    · split
      · exact h.bind (h.invalidateTicket .reject nofun _) fun _ => h.throw _
      · exact h.bind (h.refreshTicket _) fun _ => h.sendLast _ _
    · exact h.forgetAndRaise _ _ _

end Composed

/-- A task: any program over such calls, which sees how each of them ends. -/
abbrev Task := Prog (fun _ : Call => Except AioError Unit) Unit

def enterCall (c : Call) : Prog Res (Except AioError Unit) := (Aio.perform .enter).bind fun _ => (runCall c).run

def Task.run (t : Task) : Prog Res Unit := (t.interp enterCall).bind fun _ => Aio.perform .finish

def start (tasks : Nat → Task) : Config Res World Unit := ⟨.initial, fun i => (tasks i).run⟩

/-- Answers at one time: the clock, what the cache gives, what `Admit` gives, how a request ends, and how a wait for a
lock does. -/
def answers (now : Int) (cached : Option Bytes) (admitted : Except AioError (Bytes × Int))
    (reply : Except AioError Unit) (wait : Wait) : (o : Op) → Res o
  | .cacheAndLock _ | .acquire _ => wait
  | .nowMs => now
  | .cacheGet _ => cached
  | .issueChallenge _ => .ok ()
  | .requestAdmit _ => admitted
  | .send _ _ => none
  | .receive _ _ => reply
  | .enter | .finish | .release _ _ | .cacheStore _ _ _ | .cacheInvalidate => ()

end SeamSdk.AioClient
