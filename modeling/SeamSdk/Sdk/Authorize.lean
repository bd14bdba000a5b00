import Mathlib.Data.List.AList
import SeamSdk.Client.Tickets
import SeamSdk.Lib.Histories
import SeamSdk.Sdk.AgentKey
import SeamSdk.Sdk.Jcs

/-!
# Authorize requests of the Python SDK

`build_authorize_request` takes the canonical bytes of the tool input, signs their digest with the rest of the call and
assembles the request. The signature and the request are built side by side from the same arguments. The features are
a map field, which keeps no order. `authorize` takes the canonical bytes once, and builds a second request when the
server does not accept the ticket of the first.

- `buildAuthorizeRequest_ok`: what a request is built of;
- `callSigV3Payload_perm`: the payload does not depend on the order of the features;
- `authorize_in_order`: each operation of a call is permitted after those before it;
- `signed_as_sent`: the payload that was signed is the payload of the request.
-/

namespace SeamSdk.Python

open ByteCodec Comparison Checked Threads

/-! ## Maps of strings -/

/-- A mapping from strings to strings, as an argument and as a field of a message. -/
abbrev StrMap := AList fun _ : String => String

/-- The items, in the order of some enumeration. -/
def StrMap.items (m : StrMap) : List (String × String) := m.entries.map fun s => (s.1, s.2)

def StrMap.update (m other : StrMap) : StrMap := other.entries.foldl (fun m s => m.insert s.1 s.2) m

/-! ## Canonical bytes -/

/-- The exceptions of a request that is not built. -/
inductive Refusal
  | canonicalizationError (message : String)
  | valueError (message : String)
  | structError (message : String)
  deriving DecidableEq, Repr

/-- What writing canonical JSON takes from elsewhere. -/
structure Canonicalizer (F : Type) where
  floats : Floats F
  /-- `type(e).__name__` of the exception that has this text. -/
  errorName : String → String

/-- An argument that should be bytes. -/
inductive BytesArg
  | bytes (b : Bytes)
  | other (typeName : String)

variable {F : Type}

def canonicalizeToolInput (c : Canonicalizer F) (toolInput : Value F) : Except Refusal Bytes :=
  let obj :=
    match toolInput with
    | .none => .dict []
    | v => v
  (jcsCanonicalize c.floats obj).mapError fun e =>
    .canonicalizationError ("tool_input could not be JCS-canonicalized (" ++ c.errorName e ++ ": " ++ e ++ ")")

def resolveCanonical (c : Canonicalizer F) (toolInput : Value F) (canonical : Option BytesArg) :
    Except Refusal Bytes :=
  match canonical with
  | none => canonicalizeToolInput c toolInput
  | some canonical =>
    match toolInput with
    | .none =>
      match canonical with
      | .other typeName =>
        .error (.canonicalizationError ("canonical must be bytes, got " ++ typeName ++ ". A str would have to be " ++
          "encoded here, and a bytearray/memoryview could still change after the digest is taken."))
      | .bytes [] =>
        .error (.canonicalizationError ("canonical is empty; JCS never produces zero bytes (a no-argument call is " ++
          "b'\x7b\x7d'). An empty value would digest to something no re-derivation can reproduce."))
      | .bytes b => .ok b
    | _ =>
      .error (.canonicalizationError ("tool_input and canonical are mutually exclusive — pass the object OR the " ++
        "bytes you already derived from it, never both. Accepting both would mean choosing one silently, " ++
        "which is the failure this parameter exists to remove (seam-sdk#60)."))

def toolInputDigest (x : Python) (canonical : Bytes) : String := "sha256:" ++ RustText.hex (x.sha256 canonical)

/-! ## The request -/

structure AuthorizeRequest where
  ticket : Bytes
  toolName : String
  toolInputDigest : String
  callSig : Bytes
  sessionId : String
  subject : String
  subjects : List String
  agentId : String
  clientRequestId : String
  toolInput : Bytes
  features : StrMap

/-- The arguments of a call, without the ticket. -/
structure AuthorizeArgs (F : Type) where
  agentSeed : Bytes
  toolName : String
  toolInput : Value F
  canonical : Option BytesArg
  digestOnly : Bool
  features : Option StrMap
  sessionId : String
  subject : String
  subjects : List String
  agentId : String
  clientRequestId : String

def callSigV3 (k : Signer) (agentSeed : Bytes) (f : CallSigV3Fields) : Except Refusal Bytes := do
  let _ ← demand (k.publicKey agentSeed) (.valueError "An Ed25519 private key is 32 bytes long")
  let payload ← demand (callSigV3Payload f) (.structError "'I' format requires 0 <= number <= 4294967295")
  return k.sign agentSeed payload

section Build

variable (x : Python) (k : Signer) (c : Canonicalizer F)

/-- What is handed to `call_sig_v3`. -/
def AuthorizeArgs.signed (a : AuthorizeArgs F) (ticket : Bytes) (digest : String) : CallSigV3Fields where
  ticket := ticket
  toolInputDigest := digest
  toolName := a.toolName
  agentId := a.agentId
  subject := a.subject
  subjects := a.subjects
  clientRequestId := a.clientRequestId
  sessionId := a.sessionId
  -- `(features or {}).items()`
  features := (a.features.getD ∅).items

def buildAuthorizeRequest (ticket : Bytes) (a : AuthorizeArgs F) : Except Refusal AuthorizeRequest := do
  let canonical ← resolveCanonical c a.toolInput a.canonical
  let digest := toolInputDigest x canonical
  let callSig ← callSigV3 k a.agentSeed (a.signed ticket digest)
  let req : AuthorizeRequest := {
    ticket, toolName := a.toolName, toolInputDigest := digest, callSig, sessionId := a.sessionId
    subject := a.subject, subjects := a.subjects, agentId := a.agentId, clientRequestId := a.clientRequestId
    toolInput := [], features := ∅ }
  let req := if a.digestOnly then req else { req with toolInput := canonical }
  match a.features with
  | none => return req
  | some features =>
    if features.entries = [] then return req
    else return { req with features := req.features.update features }

end Build

/-- The fields of a request that `call_sig_v3_payload` takes, with the features as an enumeration gives them. -/
def AuthorizeRequest.signed (r : AuthorizeRequest) (features : List (String × String)) : CallSigV3Fields where
  ticket := r.ticket
  toolInputDigest := r.toolInputDigest
  toolName := r.toolName
  agentId := r.agentId
  subject := r.subject
  subjects := r.subjects
  clientRequestId := r.clientRequestId
  sessionId := r.sessionId
  features := features

/-! ## The call -/

inductive AuthorizeOp
  | ticketFor
  | refreshTicket (failed : Bytes)
  | send (req : AuthorizeRequest)

@[reducible] def AuthorizeOp.Res : AuthorizeOp → Type
  | .ticketFor => Except SeamRpcError Bytes
  | .refreshTicket _ => Except SeamRpcError Bytes
  | .send _ => Except SeamRpcError Unit

inductive AuthorizeFailure
  | refused (r : Refusal)
  | rpc (e : SeamRpcError)

abbrev AuthorizeCall := ExceptT AuthorizeFailure (Prog AuthorizeOp.Res)

namespace AuthorizeCall

def ask (o : AuthorizeOp) : Prog AuthorizeOp.Res o.Res := Prog.perform o

/-- An answer of the server; an error status is raised. -/
def raising {α : Type} (p : Prog AuthorizeOp.Res (Except SeamRpcError α)) : AuthorizeCall α :=
  .mk (p.bind fun r => .ret (r.mapError .rpc))

/-- A computation without the server. -/
def evaluate {α : Type} (r : Except Refusal α) : AuthorizeCall α := .mk (.ret (r.mapError .refused))

def ticketFor : AuthorizeCall Bytes := raising (ask .ticketFor)

def refreshTicket (failed : Bytes) : AuthorizeCall Bytes := raising (ask (.refreshTicket failed))

def send (req : AuthorizeRequest) : AuthorizeCall Unit := raising (ask (.send req))

end AuthorizeCall

section Call

variable (x : Python) (k : Signer) (c : Canonicalizer F)

open AuthorizeCall in
/-- The canonical bytes are taken before there is a ticket, and both requests are built of them. -/
def authorize (a : AuthorizeArgs F) : AuthorizeCall Unit := do
  let canonical ← evaluate (resolveCanonical c a.toolInput a.canonical)
  let ticket ← ticketFor
  let build (t : Bytes) : AuthorizeCall AuthorizeRequest :=
    evaluate (buildAuthorizeRequest x k c t { a with toolInput := .none, canonical := some (.bytes canonical) })
  tryCatch (do send (← build ticket)) fun
    | .rpc e => do
      if e.code = .unauthenticated then
        let ticket ← refreshTicket ticket
        send (← build ticket)
      else throw (.rpc e)
    | .refused r => throw (.refused r)

/-- The requests of a run. -/
def requests (ops : List AuthorizeOp) : List AuthorizeRequest :=
  ops.filterMap fun
    | .send req => some req
    | _ => none

end Call

/-! ## The features -/

/-- Inserting what has other keys adds it. -/
theorem StrMap.entries_foldl_insert : ∀ {l : List (Sigma fun _ : String => String)} {m : StrMap}, l.NodupKeys →
    (∀ s ∈ l, s.1 ∉ m) → ((l.foldl (fun m s => m.insert s.1 s.2) m).entries).Perm (l ++ m.entries)
  | [], _, _, _ => .refl _
  | s :: l, m, hnd, hm => by
    rw [List.nodupKeys_cons] at hnd
    have hs : s.1 ∉ m := hm s List.mem_cons_self
    have hinsert : (m.insert s.1 s.2).entries = s :: m.entries := AList.entries_insert_of_notMem hs
    have hrest : ∀ s' ∈ l, s'.1 ∉ m.insert s.1 s.2 := by
      intro s' hs' hmem
      rcases (AList.mem_insert m).mp hmem with heq | hmem
      · exact hnd.1 (heq ▸ List.mem_keys_of_mem hs')
      · exact hm s' (List.mem_cons_of_mem _ hs') hmem
    have hperm := StrMap.entries_foldl_insert hnd.2 hrest
    rw [hinsert] at hperm
    exact hperm.trans List.perm_middle

/-- A map updated from nothing has the items it is updated with. -/
theorem StrMap.items_update_empty (m : StrMap) : (StrMap.update ∅ m).items.Perm m.items := by
  have hperm := StrMap.entries_foldl_insert (m := ∅) m.nodupKeys fun s _ => AList.notMem_empty s.1
  exact (hperm.trans (by rw [AList.empty_entries, List.append_nil])).map _

/-- **The payload does not depend on the order of the features.** -/
theorem callSigV3Payload_perm (f : CallSigV3Fields) {features : List (String × String)}
    (h : features.Perm f.features) : callSigV3Payload { f with features } = callSigV3Payload f := by
  have hbytes : (featureBytes features).Perm (featureBytes f.features) := h.map _
  have hsorted : sortLess tupleLt (featureBytes features) = sortLess tupleLt (featureBytes f.features) := by
    rw [sorted_eq, sorted_eq]
    exact featureOrder_lawful.sortBy_eq_of_perm hbytes
  unfold callSigV3Payload
  rw [hsorted]
  rfl

/-! ## What is sent -/

section Sent

variable {x : Python} {k : Signer} {c : Canonicalizer F} {ticket : Bytes} {a : AuthorizeArgs F}

/-- The request of the arguments, with the canonical bytes and the signature. -/
def AuthorizeArgs.request (a : AuthorizeArgs F) (x : Python) (ticket canonical callSig : Bytes) : AuthorizeRequest where
  ticket := ticket
  toolName := a.toolName
  toolInputDigest := toolInputDigest x canonical
  callSig := callSig
  sessionId := a.sessionId
  subject := a.subject
  subjects := a.subjects
  agentId := a.agentId
  clientRequestId := a.clientRequestId
  toolInput := if a.digestOnly then [] else canonical
  features := StrMap.update ∅ (a.features.getD ∅)

theorem callSigV3_ok {agentSeed sig : Bytes} {f : CallSigV3Fields} (h : callSigV3 k agentSeed f = .ok sig) :
    ∃ payload, callSigV3Payload f = some payload ∧ sig = k.sign agentSeed payload := by
  simp only [callSigV3, bind_ok, demand_ok, pure_ok] at h
  obtain ⟨_, -, payload, hpayload, rfl⟩ := h
  exact ⟨payload, hpayload, rfl⟩

/-- **What a request is built of.** -/
theorem buildAuthorizeRequest_ok {req : AuthorizeRequest} (h : buildAuthorizeRequest x k c ticket a = .ok req) :
    ∃ canonical payload, resolveCanonical c a.toolInput a.canonical = .ok canonical ∧
      callSigV3Payload (a.signed ticket (toolInputDigest x canonical)) = some payload ∧
      req = a.request x ticket canonical (k.sign a.agentSeed payload) := by
  simp only [buildAuthorizeRequest, bind_ok] at h
  obtain ⟨canonical, hcanonical, callSig, hsig, h⟩ := h
  obtain ⟨payload, hpayload, rfl⟩ := callSigV3_ok hsig
  refine ⟨canonical, payload, hcanonical, hpayload, ?_⟩
  unfold AuthorizeArgs.request
  split at h
  case h_1 hf =>
    rw [← pure_ok.mp h, hf]
    cases a.digestOnly <;> rfl
  case h_2 features hf =>
    rw [hf]
    split at h
    case isTrue hempty =>
      obtain rfl : features = ∅ := AList.ext hempty
      rw [← pure_ok.mp h]
      cases a.digestOnly <;> rfl
    case isFalse =>
      rw [← pure_ok.mp h]
      cases a.digestOnly <;> rfl

/-- The payload of a request is the payload of its arguments, in whatever order the map gives the features. -/
theorem AuthorizeArgs.request_payload {canonical callSig : Bytes} {order : List (String × String)}
    (h : order.Perm (a.request x ticket canonical callSig).features.items) :
    callSigV3Payload ((a.request x ticket canonical callSig).signed order) =
      callSigV3Payload (a.signed ticket (toolInputDigest x canonical)) :=
  callSigV3Payload_perm (a.signed ticket (toolInputDigest x canonical)) (h.trans (StrMap.items_update_empty _))

/-! ## Requests of one call -/

/-- The requests agree on everything but the ticket and the signature. -/
def AuthorizeRequest.SameBut (r r' : AuthorizeRequest) : Prop :=
  { r with ticket := r'.ticket, callSig := r'.callSig } = r'

/-- A request of the call: it is built of the canonical bytes the call has taken. -/
def Built (x : Python) (k : Signer) (c : Canonicalizer F) (a : AuthorizeArgs F) : AuthorizeOp → Prop
  | .send req => ∃ canonical ticket, resolveCanonical c a.toolInput a.canonical = .ok canonical ∧
    buildAuthorizeRequest x k c ticket { a with toolInput := .none, canonical := some (.bytes canonical) } = .ok req
  | _ => True

theorem all_evaluate_bind {α β : Type} {ok : AuthorizeOp → Prop} {r : Except Refusal α} {f : α → AuthorizeCall β}
    (h : ∀ v, r = .ok v → (f v).run.All ok) : (AuthorizeCall.evaluate r >>= f).run.All ok := by
  cases r with
  | error e => exact trivial
  | ok v => exact h v rfl

theorem all_raising {α : Type} {ok : AuthorizeOp → Prop} {p : Prog AuthorizeOp.Res (Except SeamRpcError α)}
    (h : p.All ok) : (AuthorizeCall.raising p).run.All ok := h.bind fun _ => trivial

/-- Whatever the answers are, a call sends only requests it has built. -/
theorem authorize_built : (authorize x k c a).run.All (Built x k c a) := by
  refine all_evaluate_bind ?_
  intro canonical hcanonical
  have hbuild : ∀ t, (AuthorizeCall.evaluate (buildAuthorizeRequest x k c t
      { a with toolInput := .none, canonical := some (.bytes canonical) }) >>=
        AuthorizeCall.send).run.All (Built x k c a) := by
    intro t
    refine all_evaluate_bind ?_
    intro req hreq
    exact all_raising ⟨⟨canonical, t, hcanonical, hreq⟩, fun _ => trivial⟩
  refine Prog.All.bindE (all_raising ⟨trivial, fun _ => trivial⟩) ?_
  intro ticket
  refine Prog.All.catchE (hbuild ticket) ?_
  intro e
  cases e with
  | refused r => exact trivial
  | rpc e =>
    dsimp only
    split
    · exact Prog.All.bindE (all_raising ⟨trivial, fun _ => trivial⟩) hbuild
    · exact trivial

theorem Built.sameBut {r r' : AuthorizeRequest} (h : Built x k c a (.send r)) (h' : Built x k c a (.send r')) :
    r.SameBut r' := by
  obtain ⟨canonical, ticket, hcanonical, hr⟩ := h
  obtain ⟨canonical', ticket', hcanonical', hr'⟩ := h'
  obtain rfl : canonical = canonical' := Except.ok.inj (hcanonical.symm.trans hcanonical')
  obtain ⟨b, payload, hb, -, rfl⟩ := buildAuthorizeRequest_ok hr
  obtain ⟨b', payload', hb', -, rfl⟩ := buildAuthorizeRequest_ok hr'
  obtain rfl : b = b' := Except.ok.inj (hb.symm.trans hb')
  rfl

theorem built_of_mem_requests {answers : List ((o : AuthorizeOp) → o.Res)} {r : AuthorizeRequest}
    (h : r ∈ requests ((authorize x k c a).run.asked answers)) : Built x k c a (.send r) := by
  obtain ⟨o, ho, hr⟩ := List.mem_filterMap.mp h
  cases o with
  | send req =>
    obtain rfl : req = r := Option.some.inj hr
    exact authorize_built.asked ho
  | ticketFor => cases hr
  | refreshTicket failed => cases hr

end Sent

/-! ## The order of a call -/

section Order

/-- What a call may do after what it has done: fetch a ticket and send a request under it; and once, if the server does
not accept the ticket, refresh it and send a request under the new one. -/
def Permitted (h : List (Done AuthorizeOp.Res)) : AuthorizeOp → Prop
  | .ticketFor => h = []
  | .refreshTicket failed =>
    ∃ r e, h = [⟨.ticketFor, .ok failed⟩, ⟨.send r, .error e⟩] ∧ r.ticket = failed ∧ e.code = .unauthenticated
  | .send req => h = [⟨.ticketFor, .ok req.ticket⟩] ∨ ∃ failed r e,
    h = [⟨.ticketFor, .ok failed⟩, ⟨.send r, .error e⟩, ⟨.refreshTicket failed, .ok req.ticket⟩] ∧
      r.ticket = failed ∧ e.code = .unauthenticated

variable (x : Python) (k : Signer) (c : Canonicalizer F) (a : AuthorizeArgs F)

/-- A request under a ticket is refused before it is sent, or it is sent. -/
theorem send_cases (ticket : Bytes) :
    (∃ e, (AuthorizeCall.evaluate (buildAuthorizeRequest x k c ticket a) >>= AuthorizeCall.send).run =
      .ret (.error (.refused e))) ∨
    ∃ req, req.ticket = ticket ∧ (AuthorizeCall.evaluate (buildAuthorizeRequest x k c ticket a) >>=
      AuthorizeCall.send).run = .call (.send req) fun reply => .ret (reply.mapError .rpc) := by
  cases h : buildAuthorizeRequest x k c ticket a with
  | error e => exact .inl ⟨e, rfl⟩
  | ok req =>
    obtain ⟨_, _, -, -, rfl⟩ := buildAuthorizeRequest_ok h
    exact .inr ⟨_, rfl, rfl⟩

/-- **The order of a call.** Whatever is answered, each operation of `authorize` is permitted after those before it. -/
theorem authorize_in_order : (authorize x k c a).run.Guarded (fun h o _ => Permitted h o) [] := by
  unfold authorize
  cases resolveCanonical c a.toolInput a.canonical with
  | error e => exact trivial
  | ok canonical =>
    refine ⟨rfl, fun r => ?_⟩
    cases r with
    | error e => exact trivial
    | ok ticket =>
      have hsend := send_cases x k c { a with toolInput := .none, canonical := some (.bytes canonical) }
      show Prog.Guarded _ _ ((AuthorizeCall.evaluate (buildAuthorizeRequest x k c ticket _) >>=
        AuthorizeCall.send).run.bind _)
      obtain ⟨e, hfirst⟩ | ⟨req, hticket, hfirst⟩ := hsend ticket <;> rw [hfirst]
      · exact trivial
      refine ⟨.inl (hticket ▸ rfl), fun reply => ?_⟩
      cases reply with
      | ok _ => exact trivial
      | error e =>
        show Prog.Guarded _ _ (ExceptT.run (if e.code = .unauthenticated then _ else _))
        split
        next hcode =>
          refine ⟨⟨req, e, rfl, hticket, hcode⟩, fun r => ?_⟩
          cases r with
          | error e => exact trivial
          | ok fresh =>
            show Prog.Guarded _ _ (AuthorizeCall.evaluate (buildAuthorizeRequest x k c fresh _) >>=
              AuthorizeCall.send).run
            obtain ⟨e', hsecond⟩ | ⟨req', hticket', hsecond⟩ := hsend fresh <;> rw [hsecond]
            · exact trivial
            · exact ⟨.inr ⟨ticket, req, e, hticket' ▸ rfl, hticket, hcode⟩, fun _ => trivial⟩
        next => exact trivial

end Order

/-- **What is signed is what is sent.** The payload that was signed is the payload of the request, in whatever order
its map gives the features; the digest is that of the canonical bytes, which are the tool input, if any is sent. The
requests of one call to `authorize` agree on everything but the ticket and the signature. -/
theorem signed_as_sent (x : Python) (k : Signer) (c : Canonicalizer F) (a : AuthorizeArgs F) :
    (∀ ticket req, buildAuthorizeRequest x k c ticket a = .ok req →
      ∃ canonical payload, resolveCanonical c a.toolInput a.canonical = .ok canonical ∧
        callSigV3Payload (a.signed ticket (toolInputDigest x canonical)) = some payload ∧
        req.callSig = k.sign a.agentSeed payload ∧
        (∀ order, order.Perm req.features.items → callSigV3Payload (req.signed order) = some payload) ∧
        req.toolInputDigest = "sha256:" ++ RustText.hex (x.sha256 canonical) ∧
        (req.toolInput = [] ∨ req.toolInput = canonical)) ∧
    ∀ answers, ∀ r ∈ requests ((authorize x k c a).run.asked answers),
      ∀ r' ∈ requests ((authorize x k c a).run.asked answers), r.SameBut r' := by
  constructor
  · intro ticket req h
    obtain ⟨canonical, payload, hcanonical, hpayload, rfl⟩ := buildAuthorizeRequest_ok h
    refine ⟨canonical, payload, hcanonical, hpayload, rfl, ?_, rfl, ?_⟩
    · intro order horder
      rw [AuthorizeArgs.request_payload horder, hpayload]
    · unfold AuthorizeArgs.request
      cases a.digestOnly
      · exact .inr rfl
      · exact .inl rfl
  · intro answers r hr r' hr'
    exact (built_of_mem_requests hr).sameBut (built_of_mem_requests hr')


/-! ## A call that is repeated -/

/-- No double but zero. -/
def noFloats : Canonicalizer Empty := ⟨⟨nofun, fun _ => none⟩, fun _ => "ValueError"⟩

def payCall : AuthorizeArgs Empty where
  agentSeed := [7]
  toolName := "pay"
  toolInput := .dict [(.str "amount".toList, .int 3)]
  canonical := none
  digestOnly := false
  features := some ((AList.singleton "tier" "gold").insert "region" "eu")
  sessionId := ""
  subject := ""
  subjects := ["s"]
  agentId := "agent"
  clientRequestId := "r"

def answering (ticket : Bytes) (reply : Except SeamRpcError Unit) : (o : AuthorizeOp) → o.Res
  | .ticketFor => .ok ticket
  | .refreshTicket _ => .ok ticket
  | .send _ => reply

/-- The server does not accept the first ticket. -/
def refusedOnce : List ((o : AuthorizeOp) → o.Res) :=
  [answering [1] (.ok ()), answering [1] (.error ⟨.unauthenticated, none, none⟩), answering [2] (.ok ()),
    answering [2] (.ok ())]

theorem signed_as_sent_refusedOnce :
    let sent := requests ((authorize seedPlatform seedSigner noFloats payCall).run.asked refusedOnce)
    sent.map AuthorizeRequest.ticket = [[1], [2]] ∧ ∀ r ∈ sent, ∀ r' ∈ sent, r.SameBut r' :=
  ⟨by decide +kernel, (signed_as_sent seedPlatform seedSigner noFloats payCall).2 refusedOnce⟩

end SeamSdk.Python
