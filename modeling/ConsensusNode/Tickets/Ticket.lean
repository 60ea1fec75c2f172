import ConsensusNode.Tickets.Paseto
import ConsensusNode.Js.Canonical

/-! # Routing tickets

`tickets/ticket.ts`: the claims the orchestrator signs. `verifyTicket` checks the signature with the
node id as implicit assertion, then issuer, audience, scope, the two times, and that `jti` and `sub` are
non-empty strings. `clock` is the value of `Math.floor(Date.now() / 1000)` at that call; it counts when
the caller gives no `now`.

* `verifyTicket_eq_ok`: everything that holds of an accepted ticket. -/

namespace ConsensusNode.Tickets

open Js

variable (p : Platform)

def TICKET_ISSUER : JsString := js "consensus-orchestrator"

def TICKET_SCOPE_PROXY : JsString := js "proxy"

def DEFAULT_TTL_SEC : JsNumber := JsNumber.ofNat 60

def DEFAULT_CLOCK_TOLERANCE_SEC : JsNumber := JsNumber.ofNat 5

structure TicketClaims where
  iss : JsString
  aud : JsString
  sub : JsString
  scope : JsString
  iat : JsNumber
  exp : JsNumber
  jti : JsString

structure IssueTicketInput where
  nodeId : JsString
  dedupeKey : JsString
  jti : JsString
  ttlSec : Option JsNumber := none
  scope : Option JsString := none
  now : Option JsNumber := none

/-- A number as a JSON value; `JSON.stringify` writes `null` for `NaN`. -/
def numJson : Option JsNumber → Json
  | some x => .num x
  | none => .null

/-- The claims object in the order of the source. -/
def claimsJson (input : IssueTicketInput) (now : JsNumber) : Json :=
  .obj [(js "iss", .str TICKET_ISSUER), (js "aud", .str input.nodeId), (js "sub", .str input.dedupeKey),
    (js "scope", .str (input.scope.getD TICKET_SCOPE_PROXY)), (js "iat", .num now),
    (js "exp", numJson (now.add (input.ttlSec.getD DEFAULT_TTL_SEC))), (js "jti", .str input.jti)]

def issueTicket (clock : JsNumber) (input : IssueTicketInput) (secretKey kid : JsString) :
    Option JsString :=
  signV4Public p (utf8 (stringify (claimsJson input (input.now.getD clock)))) secretKey
    (utf8 (stringify (.obj [(js "kid", .str kid)]))) (utf8 input.nodeId)

structure VerifyTicketOptions where
  expectedNodeId : JsString
  expectedScope : Option JsString := none
  now : Option JsNumber := none
  clockToleranceSec : Option JsNumber := none

structure VerifiedTicket where
  claims : TicketClaims
  /-- Any value the footer has there, `null` without one. -/
  kid : Json

/-- The signed text as a JSON value. -/
def parseClaims (message : Bytes) : Except JsError Json :=
  match parse (decodeUtf8 message) with
  | some v => .ok v
  | none => .error (.thrown (js "ticket: malformed claims"))

/-- A number, or the exception. -/
def numberClaim (v : Option Json) (message : JsString) : Except JsError JsNumber :=
  match v with
  | some (.num x) => .ok x
  | _ => .error (.thrown message)

/-- A non-empty string, or the exception. -/
def textClaim (v : Option Json) (message : JsString) : Except JsError JsString :=
  match v with
  | some (.str (c :: s)) => .ok (c :: s)
  | _ => .error (.thrown message)

/-- The `kid` of a footer; whatever goes wrong leaves it `null`. -/
def footerKid (footer : Bytes) : Json :=
  if footer.length = 0 then .null else ((parse (decodeUtf8 footer)).bind (Json.field? (js "kid"))).getD .null

/-- `now > exp + skew`. -/
def isExpired (exp skew now : JsNumber) : Bool := JsNumber.lt (exp.add skew) (some now)

/-- The checks on the claims, in the order of the source. -/
def checkClaims (opts : VerifyTicketOptions) (now : JsNumber) (claims : Json) :
    Except JsError TicketClaims := do
  let skew := opts.clockToleranceSec.getD DEFAULT_CLOCK_TOLERANCE_SEC
  let scope := opts.expectedScope.getD TICKET_SCOPE_PROXY
  let iss ← claims.get (js "iss")
  require (iss = some (.str TICKET_ISSUER)) (js "ticket: bad issuer")
  require (claims.field? (js "aud") = some (.str opts.expectedNodeId)) (js "ticket: audience mismatch")
  require (claims.field? (js "scope") = some (.str scope)) (js "ticket: scope mismatch")
  let exp ← numberClaim (claims.field? (js "exp")) (js "ticket: expired")
  require (!isExpired exp skew now) (js "ticket: expired")
  let iat ← numberClaim (claims.field? (js "iat")) (js "ticket: issued in the future")
  require (!JsNumber.lt (now.add skew) (some iat)) (js "ticket: issued in the future")
  let jti ← textClaim (claims.field? (js "jti")) (js "ticket: missing jti")
  let sub ← textClaim (claims.field? (js "sub")) (js "ticket: missing subject")
  return { iss := TICKET_ISSUER, aud := opts.expectedNodeId, sub, scope, iat, exp, jti }

def verifyTicket (clock : JsNumber) (token : JsString) (publicKey : Key) (opts : VerifyTicketOptions) :
    Except JsError VerifiedTicket := do
  let (message, footer) ← verifyV4Public p token publicKey (utf8 opts.expectedNodeId)
  let raw ← parseClaims message
  let claims ← checkClaims opts (opts.now.getD clock) raw
  return { claims, kid := footerKid footer }

/-! ### What is accepted -/

variable {p}

theorem numberClaim_eq_ok {v : Option Json} {m : JsString} {x : JsNumber} :
    numberClaim v m = .ok x ↔ v = some (.num x) := by
  unfold numberClaim
  split
  · simp
  · simp_all

theorem textClaim_eq_ok {v : Option Json} {m : JsString} {s : JsString} :
    textClaim v m = .ok s ↔ v = some (.str s) ∧ s ≠ [] := by
  unfold textClaim
  split
  · constructor
    · intro h; cases h; simp
    · rintro ⟨h, -⟩; cases h; rfl
  · rename_i hne
    constructor
    · intro h; cases h
    · rintro ⟨rfl, hs⟩
      obtain ⟨c, t, rfl⟩ := List.exists_cons_of_ne_nil hs
      exact absurd rfl (hne c t)

theorem get_eq_ok {v : Json} {k : JsString} {x : Option Json} (h : v.get k = .ok x) :
    v.field? k = x := by
  unfold Json.get at h
  split at h
  · cases h
  · cases h; rfl

/-- What holds of claims that pass, for the value the signature covers. -/
structure Accepts (opts : VerifyTicketOptions) (now : JsNumber) (raw : Json) (c : TicketClaims) :
    Prop where
  iss : raw.field? (js "iss") = some (.str TICKET_ISSUER)
  aud : raw.field? (js "aud") = some (.str opts.expectedNodeId)
  scope : raw.field? (js "scope") = some (.str (opts.expectedScope.getD TICKET_SCOPE_PROXY))
  exp : raw.field? (js "exp") = some (.num c.exp)
  unexpired : isExpired c.exp (opts.clockToleranceSec.getD DEFAULT_CLOCK_TOLERANCE_SEC) now = false
  jti : raw.field? (js "jti") = some (.str c.jti)
  sub : raw.field? (js "sub") = some (.str c.sub)

theorem checkClaims_eq_ok {opts : VerifyTicketOptions} {now : JsNumber} {raw : Json}
    {c : TicketClaims} (h : checkClaims opts now raw = .ok c) : Accepts opts now raw c := by
  simp only [checkClaims, bind_eq_ok, require_eq_ok, numberClaim_eq_ok, textClaim_eq_ok, pure,
    Except.pure, Except.ok.injEq, decide_eq_true_eq, Bool.not_eq_true'] at h
  obtain ⟨iss, hiss, -, rfl, -, haud, -, hscope, exp, hexp, -, hle, iat, -, -, -, jti, ⟨hjti, -⟩, sub,
    ⟨hsub, -⟩, rfl⟩ := h
  exact ⟨get_eq_ok hiss, haud, hscope, hexp, hle, hjti, hsub⟩

/-- **An accepted ticket.** Its claims stand in the message of the token, and the message is signed. -/
theorem verifyTicket_eq_ok {clock : JsNumber} {token : JsString} {publicKey : Key}
    {opts : VerifyTicketOptions} {v : VerifiedTicket}
    (h : verifyTicket p clock token publicKey opts = .ok v) :
    ∃ t raw, tokenParts token = .ok t ∧
      p.verify publicKey (pae [HEADER_BYTES, t.message, t.footer, utf8 opts.expectedNodeId])
        t.signature = true ∧
      parse (decodeUtf8 t.message) = some raw ∧ Accepts opts (opts.now.getD clock) raw v.claims := by
  simp only [verifyTicket, bind_eq_ok, pure, Except.pure, Except.ok.injEq] at h
  obtain ⟨⟨m, f⟩, hv, raw, hraw, c, hc, rfl⟩ := h
  obtain ⟨sig, ht, hsig⟩ := verifyV4Public_eq_ok.mp hv
  refine ⟨_, raw, ht, hsig, ?_, checkClaims_eq_ok hc⟩
  unfold parseClaims at hraw
  split at hraw
  · cases hraw; assumption
  · cases hraw

end ConsensusNode.Tickets
