import SeamSdk.Client.Registry

/-!
# The credentialed call of the Python client

`_credentialed_call` signs a request under the ticket of the signer. When the server does not accept the ticket, it has
the ticket refreshed and sends the request once more.

- `credentialedCall_guarded`: which step can come after which, and which answers settle the call;
- `credentialedCall_protocol`: what a thread among others has done at any time.
-/

namespace SeamSdk.PyClient

open ByteCodec Threads Ledger Checked List

/-! ## The credential -/

section Credential

variable (x : Python) (k : Signer)

/-- `request_sig`. -/
def requestSig (agentSeed : Bytes) (f : Python.RequestSigFields) : Except Python.Refusal Bytes := do
  let _ ← demand (k.publicKey agentSeed) (.valueError "An Ed25519 private key is 32 bytes long")
  let payload ← demand (Python.requestSigPayload f) (.structError "'I' format requires 0 <= number <= 4294967295")
  return k.sign agentSeed payload

def bodyDigest : Option Bytes → String
  | none => ""
  | some body => Python.toolInputDigest x body

/-- `credential_metadata`, with the serialized body. -/
def credentialMetadata (agentSeed ticket : Bytes) (rpcFullName resourceId : String) (body : Option Bytes) :
    Except Python.Refusal Metadata := do
  let sig ← requestSig k agentSeed ⟨ticket, rpcFullName, resourceId, bodyDigest x body⟩
  return [("x-seam-ticket-bin", ticket), ("x-seam-call-sig-bin", sig)]

/-- `_signer`: an explicit credential wins over the agent the client is bound to. -/
def signer (credential bound : Option Agent) : Option Agent :=
  match credential with
  | some agent => some agent
  | none => bound

end Credential

/-! ## The call -/

/-- `UnauthenticatedError`. -/
def CallError.isUnauthenticated {X : Type} : CallError X → Bool
  | .rpc e => e.code = .unauthenticated
  | _ => false

abbrev CallM (X V : Type) := ExceptT (CallError X) (Prog (CallOp.Ans X V))

namespace CallM

variable {X V α : Type}

def ask (o : CallOp) : Prog (CallOp.Ans X V) (o.Ans X V) := Prog.perform o

def evaluate (r : Except Python.Refusal α) : CallM X V α := .mk (.ret (r.mapError .refused))

def ticketFor (s : Agent) : CallM X V Bytes := .mk (ask (.ticketFor s.aid))

def refreshTicket (s : Agent) (failed : Bytes) : CallM X V Bytes := .mk (ask (.refreshTicket s.aid failed))

def invalidateTicket (s : Agent) (failed : Bytes) : CallM X V Unit := Prog.liftE (ask (.invalidateTicket s.aid failed))

def forgetBurnedTicket (s : Agent) (ticket : Bytes) (rpcFullName : String) (exc : SeamRpcError) : CallM X V Unit :=
  Prog.liftE (ask (.forgetBurnedTicket s.aid ticket rpcFullName exc))

def send (metadata : Option Metadata) : CallM X V V := .mk (ask (.send metadata))

end CallM

/-- What is signed, except for the ticket. -/
structure CallArgs where
  rpcFullName : String
  resourceId : String
  body : Option Bytes

section Call

variable {X V : Type} (x : Python) (k : Signer) (a : CallArgs)

/-- The credential of the signer under a ticket. -/
def CallArgs.credential (s : Agent) (ticket : Bytes) : Except Python.Refusal Metadata :=
  credentialMetadata x k s.seed ticket a.rpcFullName a.resourceId a.body

/-- `send(credential_metadata(…))`. -/
def sendUnder (s : Agent) (ticket : Bytes) : CallM X V V := do
  let metadata ← CallM.evaluate (a.credential x k s ticket)
  CallM.send (some metadata)

/-- `except (UnavailableError, FailedPreconditionError)`: forget a burned ticket and raise again. Any other exception is
not caught. -/
def forgetAndRaise (s : Agent) (ticket : Bytes) : CallError X → CallM X V V
  | .rpc e => do
    if e.code = .unavailable ∨ e.code = .failedPrecondition then
      CallM.forgetBurnedTicket s ticket a.rpcFullName e
    throw (.rpc e)
  | exc => throw exc

def resend (s : Agent) (ticket : Bytes) : CallM X V V :=
  tryCatch (sendUnder x k a s ticket) (forgetAndRaise a s ticket)

/-- `except UnauthenticatedError` as well. -/
def refreshAndResend (s : Agent) (ticket : Bytes) (retry : Bool) (exc : CallError X) : CallM X V V :=
  if exc.isUnauthenticated then
    if retry = false then do
      CallM.invalidateTicket s ticket
      throw exc
    else do
      let ticket ← CallM.refreshTicket s ticket
      resend x k a s ticket
  else forgetAndRaise a s ticket exc

def credentialedCall (credential bound : Option Agent) (retry : Bool) : CallM X V V :=
  match signer credential bound with
  | none => CallM.send none
  | some s => do
    let ticket ← CallM.ticketFor s
    tryCatch (sendUnder x k a s ticket) (refreshAndResend x k a s ticket retry)

end Call

/-! ## The order of the steps -/

variable {metadata : Option Metadata}

section Protocol

variable {X V : Type} (x : Python) (k : Signer) (a : CallArgs) (s : Agent)

/-- The request was sent under `ticket`, and the ticket was not accepted. -/
def RejectedUnder (ticket : Bytes) (h : List (Done (CallOp.Ans X V))) : Prop :=
  ∃ metadata exc, a.credential x k s ticket = .ok metadata ∧ exc.isUnauthenticated = true ∧
    h = [⟨.ticketFor s.aid, .ok ticket⟩, ⟨.send (some metadata), .error exc⟩]

/-- The steps that can come after what was done. -/
def ByProtocol (h : List (Done (CallOp.Ans X V))) : CallOp → Prop
  | .admitAgent _ => False
  | .ticketFor aid => aid = s.aid ∧ h = []
  | .refreshTicket aid failed => aid = s.aid ∧ RejectedUnder x k a s failed h
  | .invalidateTicket aid _ | .forgetBurnedTicket aid _ _ _ => aid = s.aid
  | .send metadata => ∃ ticket m, metadata = some m ∧ a.credential x k s ticket = .ok m ∧
      (h = [⟨.ticketFor s.aid, .ok ticket⟩] ∨ ∃ failed h', RejectedUnder x k a s failed h' ∧
        h = h' ++ [⟨.refreshTicket s.aid failed, .ok ticket⟩])

/-- The outcome of a call in which this is the last word. -/
def settles : Done (CallOp.Ans X V) → Option (Except (CallError X) V)
  | ⟨.send _, r⟩ => some r
  | ⟨.ticketFor _, .error exc⟩ | ⟨.refreshTicket _ _, .error exc⟩ => some (.error exc)
  | _ => none

/-- What is done after that. -/
def tidies : CallOp → Prop
  | .invalidateTicket aid _ | .forgetBurnedTicket aid _ _ _ => aid = s.aid
  | _ => False

/-- A step by the protocol. Its answer settles the call unless it is the first rejection. -/
def Ruled (h : List (Done (CallOp.Ans X V))) (o : CallOp)
    (rest : o.Ans X V → Prog (CallOp.Ans X V) (Except (CallError X) V)) : Prop :=
  ByProtocol x k a s h o ∧ ∀ r b, settles ⟨o, r⟩ = some b → (∀ t, ¬RejectedUnder x k a s t (h ++ [⟨o, r⟩])) →
    (rest r).Quits (tidies s) b

variable {x k a s}
variable {h : List (Done (CallOp.Ans X V))} {ticket : Bytes}

theorem sendUnder_ok {m : Metadata} (hm : a.credential x k s ticket = .ok m) :
    (sendUnder x k a s ticket : CallM X V V) = CallM.send (some m) := by
  unfold sendUnder
  rw [hm]
  rfl

theorem sendUnder_error {refusal : Python.Refusal} (hm : a.credential x k s ticket = .error refusal) :
    (sendUnder x k a s ticket : CallM X V V) = throw (.refused refusal) := by
  unfold sendUnder
  rw [hm]
  rfl

theorem quits_forgetAndRaise (exc : CallError X) :
    (forgetAndRaise a s ticket exc : CallM X V V).run.Quits (tidies s) (.error exc) := by
  cases exc with
  | rpc e =>
    unfold forgetAndRaise
    dsimp only
    split
    · exact ⟨rfl, fun _ => rfl⟩
    · rfl
  | refused | other => rfl

variable {b : Except (CallError X) V} {credential bound : Option Agent}

theorem guarded_of_quits {p : Prog (CallOp.Ans X V) (Except (CallError X) V)} (hp : p.Quits (tidies s) b) :
    p.Guarded (Ruled x k a s) h := by
  induction p generalizing h with
  | ret c => exact trivial
  | call o rest ih =>
    refine ⟨⟨?_, ?_⟩, fun r => ih r (hp.2 r)⟩
    · cases o with
      | invalidateTicket | forgetBurnedTicket => exact hp.1
      | admitAgent | ticketFor | refreshTicket | send => exact hp.1.elim
    · cases o with
      | invalidateTicket | forgetBurnedTicket => exact nofun
      | admitAgent | ticketFor | refreshTicket | send => exact hp.1.elim

/-- A request under a ticket that may be sent now, and a handler for its exceptions. -/
theorem guarded_sendUnder {handler : CallError X → CallM X V V}
    (hnow : ∀ m, a.credential x k s ticket = .ok m → ByProtocol x k a s h (.send (some m)))
    (hhandler : ∀ m exc, a.credential x k s ticket = .ok m →
      (handler exc).run.Guarded (Ruled x k a s) (h ++ [⟨.send (some m), .error exc⟩]) ∧
      ((∀ t, ¬RejectedUnder x k a s t (h ++ [⟨.send (some m), .error exc⟩])) →
        (handler exc).run.Quits (tidies s) (.error exc)))
    (hrefused : ∀ refusal, (handler (.refused refusal)).run.Quits (tidies s) (.error (.refused refusal))) :
    (tryCatch (sendUnder x k a s ticket) handler).run.Guarded (Ruled x k a s) h := by
  cases hm : a.credential x k s ticket with
  | error refusal =>
    rw [sendUnder_error hm]
    exact guarded_of_quits (hrefused refusal)
  | ok m =>
    rw [sendUnder_ok hm]
    refine ⟨⟨hnow m hm, ?_⟩, ?_⟩
    · intro r b hb hfirst
      cases hb
      cases r with
      | ok v => rfl
      | error exc => exact (hhandler m exc hm).2 hfirst
    · intro r
      cases r with
      | ok v => exact trivial
      | error exc => exact (hhandler m exc hm).1

theorem guarded_resend {failed : Bytes} {h' : List (Done (CallOp.Ans X V))}
    (hrejected : RejectedUnder x k a s failed h') :
    (resend x k a s ticket).run.Guarded (Ruled x k a s) (h' ++ [⟨.refreshTicket s.aid failed, .ok ticket⟩]) := by
  refine guarded_sendUnder ?_ ?_ fun refusal => quits_forgetAndRaise (.refused refusal)
  · exact fun m hm => ⟨ticket, m, rfl, hm, .inr ⟨failed, h', hrejected, rfl⟩⟩
  · exact fun m exc _ => ⟨guarded_of_quits (quits_forgetAndRaise exc), fun _ => quits_forgetAndRaise exc⟩

/-- **The order of the steps** when a rejected ticket is refreshed. -/
theorem credentialedCall_guarded (hs : signer credential bound = some s) :
    (credentialedCall x k a credential bound true : CallM X V V).run.Guarded (Ruled x k a s) [] := by
  unfold credentialedCall
  rw [hs]
  refine ⟨⟨⟨rfl, rfl⟩, ?_⟩, ?_⟩
  · intro r b hb _
    cases r with
    | ok ticket => cases hb
    | error exc =>
      cases hb
      rfl
  intro r
  cases r with
  | error exc => exact trivial
  | ok ticket =>
    refine guarded_sendUnder ?_ ?_ ?_
    · exact fun m hm => ⟨ticket, m, rfl, hm, .inl rfl⟩
    · intro m exc hm
      by_cases hexc : exc.isUnauthenticated = true
      · have hrejected : RejectedUnder x k a s ticket
            [⟨.ticketFor s.aid, .ok ticket⟩, (⟨.send (some m), .error exc⟩ : Done (CallOp.Ans X V))] :=
          ⟨m, exc, hm, hexc, rfl⟩
        refine ⟨?_, fun hfirst => absurd hrejected (hfirst ticket)⟩
        unfold refreshAndResend
        rw [if_pos hexc]
        refine ⟨⟨⟨rfl, hrejected⟩, ?_⟩, ?_⟩
        · intro r b hb _
          cases r with
          | ok ticket => cases hb
          | error exc =>
            cases hb
            rfl
        · intro r
          cases r with
          | error exc => exact trivial
          | ok ticket => exact guarded_resend hrejected
      · have hquits : (refreshAndResend x k a s ticket true exc : CallM X V V).run.Quits (tidies s) (.error exc) := by
          unfold refreshAndResend
          rw [if_neg hexc]
          exact quits_forgetAndRaise exc
        exact ⟨guarded_of_quits hquits, fun _ => hquits⟩
    · exact fun refusal => rfl

/-- A program without a signer. -/
theorem credentialedCall_unsigned (hs : signer credential bound = none) :
    (credentialedCall x k a credential bound true : CallM X V V).run = .call (.send none) .ret := by
  unfold credentialedCall
  rw [hs]
  rfl

/-- The steps of the call are on the cache of the signer, and what it refreshes it has fetched. -/
theorem credentialedCall_proper (credential bound : Option Agent) :
    Proper (credentialedCall x k a credential bound true : CallM X V V).run
      fun aid => ∃ s, signer credential bound = some s ∧ s.aid = aid := by
  cases hs : signer credential bound with
  | none =>
    rw [credentialedCall_unsigned hs]
    have hsend : ∀ {h o rest}, (Prog.call (.send none) .ret : Prog (CallOp.Ans X V) (Except (CallError X) V)).Goes h
        (.call o rest) → o = .send none := by
      intro h o rest hgoes
      rcases Prog.goes_call.mp hgoes with ⟨-, hcall⟩ | ⟨r, h', -, hrest⟩
      · cases hcall
        rfl
      · cases (Prog.goes_ret.mp hrest).2
    refine ⟨fun hgoes haid => ?_, fun hgoes => ?_⟩
    · cases hsend hgoes
      cases haid
    · cases hsend hgoes
  | some s =>
    have hruled := fun {h o rest} hgoes =>
      ((credentialedCall_guarded (x := x) (k := k) (a := a) (X := X) (V := V) hs).of_goes
        (h := h) (q := .call o rest) hgoes).1.1
    refine ⟨fun {h o rest aid} hgoes haid => ⟨s, rfl, ?_⟩, fun {h aid failed rest} hgoes => ?_⟩
    · have hby := hruled hgoes
      cases o with
      | ticketFor | refreshTicket =>
        cases haid
        exact hby.1.symm
      | invalidateTicket | forgetBurnedTicket =>
        cases haid
        exact hby.symm
      | admitAgent => exact hby.elim
      | send => cases haid
    · obtain ⟨rfl, m, exc, -, -, hh⟩ := hruled hgoes
      rw [nil_append] at hh
      rw [hh]
      exact .head _

/-! ## What a thread has done -/

/-- The requests that were begun. -/
def sends : List (Note X V) → List (Option Metadata) :=
  begins fun
    | .send metadata => some metadata
    | _ => none

theorem sends_append_send (before after : List (Note X V)) (metadata : Option Metadata) :
    sends (before ++ .began (.send metadata) :: after) = sends before ++ metadata :: sends after :=
  begins_append before (.began (.send metadata) :: after)

/-- The refreshes that were begun. -/
def refreshes : List (Note X V) → List (String × Bytes) :=
  begins fun
    | .refreshTicket aid failed => some (aid, failed)
    | _ => none

/-- The answer to the first request: the server does not accept its ticket. -/
def FirstRejection (before : List (Note X V)) (d : Done (CallOp.Ans X V)) : Prop :=
  ∃ m exc, d = ⟨.send (some m), .error exc⟩ ∧ exc.isUnauthenticated = true ∧ sends before = [some m]

variable (x k a s) in
/-- The metadata carry the ticket and a signature by the signer over ticket, method, resource and digest of the body. -/
def SignedUnder (ticket : Bytes) (m : Metadata) : Prop :=
  ∃ payload, Python.requestSigPayload ⟨ticket, a.rpcFullName, a.resourceId, bodyDigest x a.body⟩ = some payload ∧
    m = [("x-seam-ticket-bin", ticket), ("x-seam-call-sig-bin", k.sign s.seed payload)]

theorem signedUnder_of_credential {m : Metadata} (h : a.credential x k s ticket = .ok m) :
    SignedUnder x k a s ticket m := by
  simp only [CallArgs.credential, credentialMetadata, requestSig, bind_ok, demand_ok, pure_ok] at h
  obtain ⟨sig, ⟨pub, -, payload, hpayload, rfl⟩, rfl⟩ := h
  exact ⟨payload, hpayload, rfl⟩

section Signed

variable {notes before after : List (Note X V)} {p : Prog (CallOp.Ans X V) (Except (CallError X) V)}
  (hp : p.Guarded (Ruled x k a s) [])

include hp

/-- A step, and what was done before it. -/
theorem byProtocol {o : CallOp} (hcourse : Course p (before ++ .began o :: after)) :
    ∃ h, before = noted h ∧ ByProtocol x k a s h o := by
  obtain ⟨h, rest, hgoes, rfl⟩ := hcourse.began
  exact ⟨h, rfl, (hp.of_goes hgoes).1.1⟩

theorem length_sends_le (hcourse : Course p notes) : (sends notes).length ≤ 2 := by
  refine length_begins_le ?_
  rintro before o after rfl ho
  obtain ⟨h, rfl, hby⟩ := byProtocol hp hcourse
  cases o with
  | send metadata =>
    obtain ⟨ticket, m, -, -, rfl | ⟨failed, _, ⟨_, _, -, -, rfl⟩, rfl⟩⟩ := hby
    · exact Nat.zero_le 1
    · exact le_refl 1
  | admitAgent | ticketFor | refreshTicket | invalidateTicket | forgetBurnedTicket => cases ho

theorem length_refreshes_le (hcourse : Course p notes) : (refreshes notes).length ≤ 1 := by
  refine length_begins_le ?_
  rintro before o after rfl ho
  obtain ⟨h, rfl, hby⟩ := byProtocol hp hcourse
  cases o with
  | refreshTicket aid failed =>
    obtain ⟨-, _, _, -, -, rfl⟩ := hby
    exact le_refl 0
  | admitAgent | ticketFor | send | invalidateTicket | forgetBurnedTicket => cases ho

/-- The second request comes after the first was rejected and its ticket refreshed. -/
theorem resent_after_rejection (hcourse : Course p (before ++ .began (.send metadata) :: after))
    (hsecond : sends before ≠ []) :
    ∃ t₁ t₂ m₁ m₂ exc, SignedUnder x k a s t₁ m₁ ∧ SignedUnder x k a s t₂ m₂ ∧ exc.isUnauthenticated = true ∧
      metadata = some m₂ ∧ before = noted [⟨.ticketFor s.aid, .ok t₁⟩, ⟨.send (some m₁), .error exc⟩,
        ⟨.refreshTicket s.aid t₁, .ok t₂⟩] := by
  obtain ⟨h, rfl, t₂, m₂, rfl, hm₂, rfl | ⟨t₁, _, ⟨m₁, exc, hm₁, hexc, rfl⟩, rfl⟩⟩ := byProtocol hp hcourse
  · exact absurd rfl hsecond
  · exact ⟨t₁, t₂, m₁, m₂, exc, signedUnder_of_credential hm₁, signedUnder_of_credential hm₂, hexc, rfl, rfl⟩

/-- And the refresh gave another ticket, as far as the answers so far are known. -/
theorem resent_under_another {w : Registry X V} (hcourse : Course p (before ++ .began (.send metadata) :: after))
    (hanswered : ∀ d, .ended d ∈ before ++ .began (.send metadata) :: after → AnswerKnown d w)
    (hsecond : sends before ≠ []) : ∃ t₁ t₂ m₁ m₂ exc, t₁ ≠ t₂ ∧ SignedUnder x k a s t₁ m₁ ∧ SignedUnder x k a s t₂ m₂ ∧
      exc.isUnauthenticated = true ∧ metadata = some m₂ ∧ before = noted [⟨.ticketFor s.aid, .ok t₁⟩,
        ⟨.send (some m₁), .error exc⟩, ⟨.refreshTicket s.aid t₁, .ok t₂⟩] := by
  obtain ⟨t₁, t₂, m₁, m₂, exc, hm₁, hm₂, hexc, hmetadata, rfl⟩ := resent_after_rejection hp hcourse hsecond
  refine ⟨t₁, t₂, m₁, m₂, exc, ?_, hm₁, hm₂, hexc, hmetadata, rfl⟩
  -- The refresh was asked for a ticket other than the first.
  have hended : .ended ⟨.refreshTicket s.aid t₁, .ok t₂⟩ ∈ noted [⟨.ticketFor s.aid, .ok t₁⟩,
      ⟨.send (some m₁), .error exc⟩, ⟨.refreshTicket s.aid t₁, .ok t₂⟩] ++ .began (.send metadata) :: after := by
    simp [noted]
  have hfresh := (hanswered _ hended t₂ rfl).2
  exact fun heq => hfresh (mem_singleton.mpr heq.symm)

/-- Any other answer of a request, and any error of a fetch, is the outcome. -/
theorem settled {d : Done (CallOp.Ans X V)} (hcourse : Course p (before ++ .ended d :: after))
    (hd : settles d = some b) (hfirst : ¬FirstRejection before d) :
    sends after = [] ∧ ∀ b', Finished p (before ++ .ended d :: after) b' → b' = b := by
  obtain ⟨o, r⟩ := d
  obtain ⟨h, rest, hgoes, rfl, hafter, hfinished⟩ := hcourse.ended
  have hruled : Ruled x k a s h o rest := (hp.of_goes hgoes).1
  have hquits : (rest r).Quits (tidies s) b := by
    refine hruled.2 r b hd ?_
    rintro t ⟨m, exc, -, hexc, hh⟩
    refine hfirst ⟨m, exc, ?_⟩
    have hh : h ++ [⟨o, r⟩] = [⟨.ticketFor s.aid, .ok t⟩] ++ [⟨.send (some m), .error exc⟩] := hh
    obtain ⟨rfl, hlast⟩ := append_inj' hh rfl
    cases hlast
    exact ⟨rfl, hexc, rfl⟩
  refine ⟨?_, fun b' hb' => (hfinished b' hb').quits hquits⟩
  refine filterMap_eq_nil_iff.mpr ?_
  intro n hn
  cases n with
  | ended d => rfl
  | began o =>
    have htidies := hafter.quits hquits hn
    cases o with
    | send => cases htidies
    | admitAgent | ticketFor | refreshTicket | invalidateTicket | forgetBurnedTicket => rfl

end Signed

/-- Whatever is begun on a cache is on that of the signer. -/
theorem Course.aid_eq {notes : List (Note X V)} {o : CallOp} {aid : String}
    (hcourse : Course (credentialedCall x k a credential bound true : CallM X V V).run notes) (ho : .began o ∈ notes)
    (haid : o.aid? = some aid) : ∃ s, signer credential bound = some s ∧ s.aid = aid := by
  obtain ⟨before, after, rfl⟩ := append_of_mem ho
  obtain ⟨h, rest, hgoes, -⟩ := hcourse.began
  exact (credentialedCall_proper credential bound).uses hgoes haid

section Unsigned

variable {notes before after : List (Note X V)}

/-- A call without a signer sends one request. -/
theorem course_unsigned (hcourse : Course (.call (.send none) .ret) notes) :
    sends notes <+: [none] ∧ refreshes notes = [] := by
  rcases course_call.mp hcourse with rfl | rfl | ⟨r, rest, rfl, hrest⟩
  · exact ⟨ nil_prefix, rfl⟩
  · exact ⟨prefix_refl _, rfl⟩
  · obtain rfl := course_ret.mp hrest
    exact ⟨prefix_refl _, rfl⟩

theorem sends_of_finished_unsigned (h : Finished (.call (.send none) .ret) notes b) : sends notes = [none] := by
  obtain ⟨r, rest, rfl, h, hgoes, rfl⟩ := finished_call.mp h
  obtain ⟨rfl, -⟩ := Prog.goes_ret.mp hgoes
  rfl

/-- Nothing is sent before the one request. -/
theorem sends_before_unsigned
    (hcourse : Course (.call (.send none) .ret) (before ++ .began (.send metadata) :: after)) : sends before = [] := by
  have hlength := (course_unsigned hcourse).1.length_le
  rw [sends_append_send, length_append, length_cons, length_singleton] at hlength
  exact length_eq_zero_iff.mp (by omega)

/-- And its answer is the outcome. -/
theorem settled_unsigned {d : Done (CallOp.Ans X V)}
    (hcourse : Course (.call (.send none) .ret) (before ++ .ended d :: after)) (hd : settles d = some b) :
    sends after = [] ∧ ∀ b', Finished (.call (.send none) .ret) (before ++ .ended d :: after) b' → b' = b := by
  obtain ⟨o, r⟩ := d
  obtain ⟨h, rest, hgoes, -, hafter, hfinished⟩ := hcourse.ended
  rcases Prog.goes_call.mp hgoes with ⟨-, hcall⟩ | ⟨r', h', -, hrest⟩
  · cases hcall
    cases hd
    obtain rfl := course_ret.mp hafter
    refine ⟨rfl, fun b' hb' => ?_⟩
    obtain ⟨h, hgoes, -⟩ := hfinished b' hb'
    cases (Prog.goes_ret.mp hgoes).2
    rfl
  · cases (Prog.goes_ret.mp hrest).2

end Unsigned

variable (x k a) in
/-- **The credentialed call.** At any time of a run with other threads, the thread has sent at most two requests and
begun at most one refresh. Without a signer it sends one request without a credential. A second request is sent only
after the server rejected the ticket of the first, under another ticket, with a signature over the same method,
resource and body. Any other answer to a request and any error of a fetch is the outcome, and nothing is sent after it.
Only the cache of the signer is touched. -/
theorem credentialedCall_protocol {threads : Nat → Prog (CallOp.Ans X V) (Except (CallError X) V)} {i : Nat}
    {credential bound : Option Agent} (hthread : threads i = (credentialedCall x k a credential bound true).run)
    {c : Config (RegistryRes X V) (Registry X V) (Except (CallError X) V)}
    (hreach : (registry X V freshTickets).Reaches (beginning threads) c) :
    let notes := notesOf i c.world.2
    (sends notes).length ≤ 2 ∧ (refreshes notes).length ≤ 1 ∧
    (signer credential bound = none →
      sends notes <+: [none] ∧ ∀ b, c.threads i = .ret b → sends notes = [none]) ∧
    (∀ before metadata after, notes = before ++ .began (.send metadata) :: after → sends before ≠ [] →
      ∃ s t₁ t₂ m₁ m₂ exc, signer credential bound = some s ∧ t₁ ≠ t₂ ∧
        SignedUnder x k a s t₁ m₁ ∧ SignedUnder x k a s t₂ m₂ ∧ exc.isUnauthenticated = true ∧
        metadata = some m₂ ∧ before = noted [⟨.ticketFor s.aid, .ok t₁⟩, ⟨.send (some m₁), .error exc⟩,
          ⟨.refreshTicket s.aid t₁, .ok t₂⟩]) ∧
    (∀ before d after b, notes = before ++ .ended d :: after → settles d = some b → ¬FirstRejection before d →
      sends after = [] ∧ ∀ b', c.threads i = .ret b' → b' = b) ∧
    (∀ o aid, .began o ∈ notes → o.aid? = some aid → ∃ s, signer credential bound = some s ∧ s.aid = aid) ∧
    ∀ o rest r w, c.threads i = .call o rest → (registry X V freshTickets).step i o r c.world = some w →
      ∀ aid, (∀ s, signer credential bound = some s → s.aid ≠ aid) → w.1 aid = c.world.1 aid := by
  intro notes
  have hproper := credentialedCall_proper (x := x) (k := k) (a := a) (X := X) (V := V) credential bound
  rw [← hthread] at hproper
  obtain ⟨hcourse, hanswered, hover, hothers⟩ : Course (threads i) notes ∧
      (∀ d, .ended d ∈ notes → AnswerKnown d c.world) ∧
      (∀ b, c.threads i = .ret b → Finished (threads i) notes b) ∧ _ := follows_of_reaches hproper hreach
  clear_value notes
  rw [hthread] at hcourse hover
  have hothers' : ∀ o rest r w, c.threads i = .call o rest → (registry X V freshTickets).step i o r c.world = some w →
      ∀ aid, (∀ s, signer credential bound = some s → s.aid ≠ aid) → w.1 aid = c.world.1 aid := by
    intro o rest r w hcall hstep aid haid
    refine hothers o rest r w hcall hstep aid ?_
    rintro ⟨s, hs, hsaid⟩
    exact haid s hs hsaid
  have huses : ∀ o aid, .began o ∈ notes → o.aid? = some aid → ∃ s, signer credential bound = some s ∧ s.aid = aid :=
    fun _ _ => hcourse.aid_eq
  cases hs : signer credential bound with
  | none =>
    rw [credentialedCall_unsigned hs] at hcourse hover
    obtain ⟨hsends, hrefreshes⟩ := course_unsigned hcourse
    refine ⟨hsends.length_le.trans (by decide), by simp [hrefreshes], fun _ => ⟨hsends, ?_⟩, ?_, ?_, hs ▸ huses,
      hs ▸ hothers'⟩
    · exact fun b hb => sends_of_finished_unsigned (hover b hb)
    · rintro before metadata after rfl hsecond
      exact absurd (sends_before_unsigned hcourse) hsecond
    · rintro before d after b rfl hd -
      obtain ⟨hafter, hresult⟩ := settled_unsigned hcourse hd
      exact ⟨hafter, fun b' hb' => hresult b' (hover b' hb')⟩
  | some s =>
    have hruled := credentialedCall_guarded (x := x) (k := k) (a := a) (X := X) (V := V) hs
    refine ⟨length_sends_le hruled hcourse, length_refreshes_le hruled hcourse, nofun, ?_, ?_, hs ▸ huses, hs ▸ hothers'⟩
    · rintro before metadata after rfl hsecond
      obtain ⟨t₁, t₂, m₁, m₂, exc, hrest⟩ := resent_under_another hruled hcourse hanswered hsecond
      exact ⟨s, t₁, t₂, m₁, m₂, exc, rfl, hrest⟩
    · rintro before d after b rfl hd hfirst
      obtain ⟨hafter, hresult⟩ := settled hruled hcourse hd hfirst
      exact ⟨hafter, fun b' hb' => hresult b' (hover b' hb')⟩

end Protocol

/-! ## A rejected ticket -/

/-- Answers at one time: the clock, what the cache gives, what `Admit` gives, and how a request ends. -/
def registryAnswers (now : Int) (cached : Option Bytes) (admitted : Bytes × Int)
    (reply : Except (CallError Unit) Unit) : (o : Keyed String Op (NoteOp Unit Unit)) → o.Ans Res (NoteOp.Ans Unit Unit)
  | .on _ o => answers now cached admitted (.ok ()) o
  | .beside (.send _) => reply
  | .beside (.fail e) => .rpc e
  | .beside (.note _) => ()

def decisionArgs : CallArgs := ⟨"/seam.api.v1.SeamCoordination/GetDecision", "d", none⟩

def rejection : CallError Unit := .rpc ⟨.unauthenticated, none, none⟩

def oneDecision : Nat → Prog (CallOp.Ans Unit Unit) (Except (CallError Unit) Unit)
  | 0 => (credentialedCall Python.seedPlatform Python.seedSigner decisionArgs (some ⟨"aid", [7]⟩) none true).run
  | _ => .ret (.ok ())

/-- The server rejects the first ticket and accepts the second. -/
def rejectedOnce : List (Nat × ((o : Keyed String Op (NoteOp Unit Unit)) → o.Ans Res (NoteOp.Ans Unit Unit))) :=
  List.replicate 16 (0, registryAnswers 0 none ([1], 100) (.error rejection)) ++
  List.replicate 16 (0, registryAnswers 5 (some [1]) ([2], 200) (.ok ()))

def isSend : Option (Note Unit Unit) → Option (Option Metadata)
  | some (.began (.send metadata)) => some metadata
  | _ => none

theorem isSend_eq_some {n : Option (Note Unit Unit)} (h : isSend n = some metadata) :
    n = some (.began (.send metadata)) := by
  unfold isSend at h
  split at h
  · cases h
    rfl
  · cases h

theorem credentialedCall_protocol_rejectedOnce :
    ∃ c, (registry Unit Unit freshTickets).Reaches (beginning oneDecision) c ∧
      ∃ before metadata after, notesOf 0 c.world.2 = before ++ .began (.send metadata) :: after ∧ sends before ≠ [] ∧
        ∃ t₁ t₂ m₁ m₂, t₁ ≠ t₂ ∧ metadata = some m₂ ∧
          SignedUnder Python.seedPlatform Python.seedSigner decisionArgs ⟨"aid", [7]⟩ t₁ m₁ ∧
          SignedUnder Python.seedPlatform Python.seedSigner decisionArgs ⟨"aid", [7]⟩ t₂ m₂ := by
  have hrun : ((registry Unit Unit freshTickets).exec rejectedOnce (beginning oneDecision)).map
      (fun c => ((sends ((notesOf 0 c.world.2).take 6)).length, (isSend ((notesOf 0 c.world.2)[6]?)).isSome)) =
      some (1, true) := by decide +kernel
  obtain ⟨c, hreach, hw⟩ := System.reaches_of_exec_map _ hrun
  simp only [Prod.mk.injEq] at hw
  obtain ⟨hsends, hsecond⟩ := hw
  obtain ⟨metadata, hmetadata⟩ := Option.isSome_iff_exists.mp hsecond
  obtain ⟨hlt, hget⟩ := List.getElem?_eq_some_iff.mp (isSend_eq_some hmetadata)
  have hnotes : notesOf 0 c.world.2 =
      (notesOf 0 c.world.2).take 6 ++ .began (.send metadata) :: (notesOf 0 c.world.2).drop 7 := by
    rw [← hget, ← List.drop_eq_getElem_cons hlt, List.take_append_drop]
  have hne : sends ((notesOf 0 c.world.2).take 6) ≠ [] := by
    intro hnil
    rw [hnil] at hsends
    cases hsends
  have hthread : oneDecision 0 = (credentialedCall Python.seedPlatform Python.seedSigner decisionArgs
      (some ⟨"aid", [7]⟩) none true).run := rfl
  obtain ⟨-, -, -, hresent, -⟩ := credentialedCall_protocol _ _ _ hthread hreach
  obtain ⟨s, t₁, t₂, m₁, m₂, exc, hs, hfresh, hm₁, hm₂, -, hmetadata, -⟩ := hresent _ _ _ hnotes hne
  cases hs
  exact ⟨c, hreach, _, _, _, hnotes, hne, t₁, t₂, m₁, m₂, hfresh, hmetadata, hm₁, hm₂⟩

end SeamSdk.PyClient
