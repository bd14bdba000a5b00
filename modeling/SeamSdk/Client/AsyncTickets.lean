import SeamSdk.Lib.Binary64
import SeamSdk.Lib.EventLoop
import SeamSdk.Client.Ledger

/-!
# Admission tickets in the TypeScript client

There is no lock here: calls are asynchronous functions on one event loop, and each of them runs on until its next
`await`. Besides the cache of tickets there is a map of the handshakes in flight. A call that needs a ticket awaits the
handshake that is there, or begins one (`admitAgent`).

The function in `admit` that does the handshake is awaited by the call that begins it and by nobody else first; both are
one program here. The call enters the promise in the map before the challenge is asked for, and nothing can come in
between.

- `step`: one operation of the client;
- `handshake`, `refreshTicket`, `credentialedCall`: the functions as programs over the operations.
-/

namespace SeamSdk.AsyncClient

open ByteCodec Threads Ledger EventLoop Binary64

/-! ## State -/

/-- `Number(t.expiresAtMs) - nowMs`. -/
def ttlMs (expiresAtMs nowMs : Int) : Int := roundInt (roundInt expiresAtMs - nowMs)

/-- `nowMs + ttlMs * 0.8`. The literal is read as `3602879701896397 / 2 ^ 52`, and both operations round. -/
def refreshPoint (expiresAtMs nowMs : Int) : Rat :=
  roundInt (nowMs * 2 ^ 52 + roundInt (ttlMs expiresAtMs nowMs * 3602879701896397)) / 2 ^ 52

structure CachedTicket where
  ticket : Bytes
  refreshAtMs : Rat
  deriving DecidableEq, Repr

/-- The entries of one identity in the two maps, and what has happened so far, newest first. -/
structure State where
  tickets : Option CachedTicket
  admitting : Option Nat
  log : List Event

inductive Sync
  | dateNow
  | ticketsGet
  | ticketsSet (ticket : Bytes) (expiresAtMs nowMs : Int)
  | ticketsDelete
  | admittingGet
  | admittingSet (p : Nat)
  | admittingDelete

@[reducible] def Ans : Sync → Type
  | .dateNow => Int
  | .ticketsGet => Option CachedTicket
  | .admittingGet => Option Nat
  | _ => Unit

inductive Req
  | issueChallenge
  | requestAdmit
  | send (rpcFullName : String) (ticket : Bytes)

/-- What a request is answered. `Admit` answers a ticket and its expiry. -/
@[reducible] def Reply : Req → Type
  | .requestAdmit => Except SeamRpcError (Bytes × Int)
  | _ => Except SeamRpcError Unit

def note (env : Surroundings) (e : Event) (s : State) : Option State :=
  if env s.log e then some { s with log := e :: s.log } else none

/-- The largest time value of the language, in milliseconds. -/
def maxTime : Nat := 8640000000000000

def sync (env : Surroundings) : (o : Sync) → Ans o → State → Option State
  | .dateNow, (now : Int), s => if now.natAbs ≤ maxTime then note env (.clock now) s else none
  | .ticketsGet, (answer : Option CachedTicket), s => if answer = s.tickets then some s else none
  | .ticketsSet t exp now, _, s => note env (.stored t exp now) { s with tickets := some ⟨t, refreshPoint exp now⟩ }
  | .ticketsDelete, _, s =>
    match s.tickets with
    | none => some s
    | some c => note env (.dropped c.ticket) { s with tickets := none }
  | .admittingGet, (answer : Option Nat), s => if answer = s.admitting then some s else none
  | .admittingSet p, _, s => some { s with admitting := some p }
  | .admittingDelete, _, s => some { s with admitting := none }

def deliver (env : Surroundings) (i : Nat) : (q : Req) → Reply q → State → Option State
  | .issueChallenge, _, s => some s
  | .requestAdmit, (answer : Except SeamRpcError (Bytes × Int)), s =>
    match answer with
    | .ok (t, exp) => note env (.admitted t exp) s
    | .error _ => some s
  | .send rpc t, (answer : Except SeamRpcError Unit), s => note env (.answered i rpc t (errorOf answer)) s

def machine (env : Surroundings) : Machine Ans Reply State := ⟨fun _ => sync env, deliver env⟩

/-- What a handshake ends with. -/
abbrev Outcome := Except SeamRpcError Bytes

abbrev World := Loop Outcome State

abbrev Operation := Op Sync Req Outcome

abbrev Answer : Operation → Type := Res Ans Reply

def client (env : Surroundings) : System Answer World := system (machine env)

/-! ## Functions -/

abbrev Client := ExceptT SeamRpcError (Prog Answer)

namespace Client

def perform (o : Operation) : Prog Answer (Answer o) := Prog.perform o

/-- An operation that does not raise. -/
def op (o : Operation) : Client (Answer o) := Prog.liftE (perform o)

def dateNow : Client Int := op (.sync .dateNow)

def ticketsGet : Client (Option CachedTicket) := op (.sync .ticketsGet)

def ticketsDelete : Client Unit := op (.sync .ticketsDelete)

def admittingGet : Client (Option Nat) := op (.sync .admittingGet)

/-- `await` of a request. -/
def issueChallenge : Client Unit := .mk do
  perform (.request .issueChallenge)
  perform (.deliver .issueChallenge)

@[inherit_doc issueChallenge]
def requestAdmit : Client (Bytes × Int) := .mk do
  perform (.request .requestAdmit)
  perform (.deliver .requestAdmit)

@[inherit_doc issueChallenge]
def send (rpcFullName : String) (ticket : Bytes) : Client Unit := .mk do
  perform (.request (.send rpcFullName ticket))
  perform (.deliver (.send rpcFullName ticket))

/-- `await` of a promise. -/
def join (p : Nat) : Client Bytes := .mk do
  perform (.suspendOn p)
  perform (.resume p)

/-- The others may come in. -/
def hop : Prog Answer Unit := do
  perform .yield
  perform .wake

/-- `await` of a function of the client. -/
def awaited (body : Client α) : Client α := .mk do
  let r ← body.run
  hop
  return r

def presentation : Client Unit := do
  issueChallenge
  let _ ← dateNow

/-- The function that `admit` begins: a ticket that is empty or has expired is not kept. -/
def handshake : Client Bytes := do
  awaited presentation
  let (ticket, expiresAtMs) ← requestAdmit
  let nowMs ← dateNow
  if 0 < ttlMs expiresAtMs nowMs ∧ 0 < ticket.length then op (.sync (.ticketsSet ticket expiresAtMs nowMs))
  else ticketsDelete
  return ticket

/-- A handshake whose promise is in the map until it is settled; the entry is deleted however it ends. -/
def lead : Client Bytes := .mk do
  let p ← perform .promise
  perform (.sync (.admittingSet p))
  let r ← handshake.run
  perform (.settle p r)
  hop
  perform (.sync .admittingDelete)
  return r

/-- `admit`: everyone awaits the handshake that is in flight. -/
def admitAgent : Client Bytes := do
  match ← admittingGet with
  | some inFlight => join inFlight
  | none => lead

/-- `cached && Date.now() < cached.refreshAtMs`, with the ticket if so. -/
def fresh : Client (Option Bytes) := do
  match ← ticketsGet with
  | none => return none
  | some cached => return if (← dateNow) < cached.refreshAtMs then some cached.ticket else none

def ticketFor : Client Bytes := do
  match ← fresh with
  | some ticket => return ticket
  | none => admitAgent

/-- The ticket another call has got meanwhile, or a new one. -/
def refreshTicket (failed : Bytes) : Client Bytes := do
  match (← fresh).filter (· ≠ failed) with
  | some ticket => return ticket
  | none =>
    ticketsDelete
    admitAgent

def invalidateTicket (failed : Bytes) : Client Unit := do
  match ← ticketsGet with
  | none => return ()
  | some cached => if cached.ticket = failed then ticketsDelete else return ()

def forgetBurnedTicket (ticket : Bytes) (rpcFullName : String) (e : SeamRpcError) : Client Unit :=
  if burns rpcFullName e then invalidateTicket ticket else pure ()

/-- The last request of a call. -/
def sendLast (rpcFullName : String) (ticket : Bytes) : Client Unit :=
  tryCatch (send rpcFullName ticket) fun e => do
    forgetBurnedTicket ticket rpcFullName e
    throw e

/-- A cached ticket is used without an `await`. -/
def authorize : Client Unit := do
  let ticket ← match ← fresh with
    | some ticket => pure ticket
    | none => awaited admitAgent
  tryCatch (send authorizeRpc ticket) fun e => do
    if e.code = .unauthenticated then
      let ticket ← awaited (refreshTicket ticket)
      send authorizeRpc ticket
    else throw e

def signedOnce (rpcFullName : String) : Client Unit := do
  let ticket ← awaited ticketFor
  sendLast rpcFullName ticket

def credentialedCall (rpcFullName : String) (retry : Bool) : Client Unit := do
  let ticket ← awaited ticketFor
  tryCatch (send rpcFullName ticket) fun e => do
    forgetBurnedTicket ticket rpcFullName e
    if e.code ≠ .unauthenticated then throw e
    else if retry = false then
      invalidateTicket ticket
      throw e
    else
      let ticket ← awaited (refreshTicket ticket)
      sendLast rpcFullName ticket

end Client

def runCall : Call → Client Unit
  | .admitAgent => do let _ ← Client.admitAgent
  | .authorize => Client.authorize
  | .signedOnce rpc => Client.signedOnce rpc
  | .credentialedCall rpc retry => Client.credentialedCall rpc retry

/-- A call may begin whenever nothing runs. -/
def run (c : Call) : Prog Answer (Except SeamRpcError Unit) := do
  Client.perform .enter
  let r ← (runCall c).run
  Client.perform .leave
  return r

/-- Any program over such calls, which sees how each of them ends. -/
abbrev User := Prog (fun _ : Call => Except SeamRpcError Unit) Unit

def initial : World := ⟨none, [], [], [], ⟨none, none, []⟩⟩

def start (users : Nat → User) : Config Answer World Unit := ⟨initial, fun i => (users i).interp run⟩

end SeamSdk.AsyncClient
