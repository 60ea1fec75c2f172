import ConsensusNode.Lib.Run
import ConsensusNode.Runtime.Dedupe
import ConsensusNode.Tickets.Replay
import ConsensusNode.Tickets.Ticket

/-! # Tickets bound to a request

`tickets/request-ticket.ts`: a ticket is verified, its `sub` is compared with the dedupe key of the
request, and last its `jti` is spent. Both times the code reads the clock are inputs: `clock` for the
claims, `clock'` for the replay cache. -/

namespace ConsensusNode.Tickets

open Js ConsensusNode.Runtime

variable (p : Platform)

structure VerifyRequestTicketOptions where
  token : JsString
  nodeId : JsString
  publicKey : Key
  request : DedupeParams
  expectedScope : Option JsString := none
  now : Option JsNumber := none
  clockToleranceSec : Option JsNumber := none

structure VerifiedRequestTicket where
  claims : TicketClaims
  kid : Json
  dedupeKey : JsString

/-- Everything before the `jti` is spent. -/
def checkRequestTicket (clock : JsNumber) (opts : VerifyRequestTicketOptions) :
    Except JsError VerifiedRequestTicket := do
  let v ← verifyTicket p clock opts.token opts.publicKey {
    expectedNodeId := opts.nodeId
    expectedScope := opts.expectedScope
    now := opts.now
    clockToleranceSec := opts.clockToleranceSec }
  let dedupeKey ← generateDedupeKey p opts.request
  require (dedupeKey = v.claims.sub)
    (js "ticket: request does not match ticket binding (dedupe_key)")
  return { claims := v.claims, kid := v.kid, dedupeKey }

/-- The result, and the replay cache afterwards if one was given. -/
def verifyRequestTicket (clock clock' : JsNumber) (opts : VerifyRequestTicketOptions)
    (replay : Option JtiReplayCache) :
    Except JsError VerifiedRequestTicket × Option JtiReplayCache :=
  match checkRequestTicket p clock opts with
  | .error e => (.error e, replay)
  | .ok v =>
    match replay with
    | none => (.ok v, none)
    | some cache =>
      match cache.consume v.claims.jti v.claims.exp (opts.now.getD clock') with
      | (true, cache') => (.ok v, some cache')
      | (false, cache') => (.error (.thrown (js "ticket: replayed jti")), some cache')

variable {p}

theorem checkRequestTicket_eq_ok {clock : JsNumber} {opts : VerifyRequestTicketOptions}
    {v : VerifiedRequestTicket} (h : checkRequestTicket p clock opts = .ok v) :
    (∃ t raw, tokenParts opts.token = .ok t ∧
      p.verify opts.publicKey (pae [HEADER_BYTES, t.message, t.footer, utf8 opts.nodeId])
        t.signature = true ∧
      parse (decodeUtf8 t.message) = some raw ∧
      Accepts ⟨opts.nodeId, opts.expectedScope, opts.now, opts.clockToleranceSec⟩
        (opts.now.getD clock) raw v.claims) ∧
    generateDedupeKey p opts.request = .ok v.claims.sub := by
  simp only [checkRequestTicket, bind_eq_ok, require_eq_ok, pure, Except.pure, Except.ok.injEq,
    decide_eq_true_eq] at h
  obtain ⟨v', hv, key, hkey, -, rfl, rfl⟩ := h
  obtain ⟨t, raw, ht, hsig, hraw, hacc⟩ := verifyTicket_eq_ok hv
  exact ⟨⟨t, raw, ht, hsig, hraw, hacc⟩, hkey⟩

end ConsensusNode.Tickets
