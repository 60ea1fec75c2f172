import ConsensusNode.Crypto.SecureChannel
import ConsensusNode.Js.JsonText
import ConsensusNode.Runtime.ProxyServe
import ConsensusNode.Tickets.RequestTicket

/-! # The data plane

`tunnel/data-plane.ts`: a connected client sends one sealed frame with a ticket and a request.
`resolveProxyResponse` opens it, decodes the request, verifies the ticket against it and calls `serve`. It
does not wait before that call, so this part of it is one step on the replay cache that all connections
share. Nothing but the types of three fields of the payload is checked, so the others are any JSON values
here, and what goes wrong outside the `try` blocks ends the connection. -/

namespace ConsensusNode.Tunnel

open Js Crypto Tickets ConsensusNode.Runtime

variable (p : Platform)

structure ProxyRequestPayload where
  token : JsString
  target_url : JsString
  method : Option Json
  headers : Option Json
  body : Option Json
  body_encoding : Option Json
  profile : Option Json

/-- What `resolveProxyResponse` needs of `DataPlaneServeDeps` before it calls `serve`. -/
structure DataPlaneServeDeps where
  nodeId : JsString
  pinnedKey : Key

inductive ErrorCode where
  | bad_request
  | unauthorized
  | upstream_error
deriving DecidableEq

/-- What the client gets; `errorMessage` of the exception is its message. -/
inductive ProxyResponsePayload where
  | proxy_response (result : ProxyResult)
  | error (code : ErrorCode) (err : JsError)
deriving DecidableEq

/-- An answer without a call of `serve`, or an exception of `resolveProxyResponse` itself. -/
inductive Refusal where
  | respond (code : ErrorCode) (err : JsError)
  | throw (err : JsError)
deriving DecidableEq

def decodeJson (buf : Bytes) : Except JsError Json :=
  match parse (decodeUtf8 buf) with
  | some v => .ok v
  | none => .error .native

/-- The first `try` block: the payload with its three checked fields. -/
def decodePayload (receiveKey requestFrame : Bytes) : Except JsError ProxyRequestPayload := do
  let (frame, plaintext) ← openFrame p receiveKey requestFrame
  require (frame.type = .data) (js "unexpected frame type")
  let payload ← decodeJson plaintext
  let type ← payload.get (js "type")
  match type, payload.field? (js "token"), payload.field? (js "target_url") with
  | some (.str t), some (.str token), some (.str target_url) =>
    require (t = js "proxy_request") (js "invalid proxy_request payload")
    return {
      token, target_url
      method := payload.field? (js "method")
      headers := payload.field? (js "headers")
      body := payload.field? (js "body")
      body_encoding := payload.field? (js "body_encoding")
      profile := payload.field? (js "profile") }
  | _, _, _ => .error (.thrown (js "invalid proxy_request payload"))

def decodeBody (body encoding : Option Json) : Except JsError (Option RequestBody) :=
  match body with
  | none => .ok none
  | some .null => .ok none
  | some (.str s) =>
    .ok (some (.buffer (if encoding = some (.str (js "base64")) then decodeBase64 s else utf8 s)))
  | some v => (p.bufferFrom v).map fun b => some (.buffer b)

/-- `(payload.method ?? "GET").toUpperCase()`. -/
def payloadMethod : Option Json → Except JsError JsString
  | none => .ok (p.toUpperCase (js "GET"))
  | some .null => .ok (p.toUpperCase (js "GET"))
  | some (.str s) => .ok (p.toUpperCase s)
  | some _ => .error .native

/-- `payload.profile ? prepareProxyProfileRequestV1(…) : undefined`. -/
def preparePayload (payload : ProxyRequestPayload) (method : JsString) :
    Except JsError (Option PreparedProxyProfileV1) :=
  match payload.profile with
  | some input =>
    if Json.truthy (some input) then
      (prepareProxyProfileRequestV1 p input payload.target_url method payload.headers).map some
    else .ok none
  | none => .ok none

/-- `preparedProfile?.headers ?? payload.headers`. -/
def preparedHeaders (prepared : Option PreparedProxyProfileV1) (headers : Option Json) : Option Json :=
  match prepared with
  | some q => some (headersJson q.headers)
  | none => headers

/-- The two records that are built from the payload: one for the ticket, one for `serve`. -/
structure PlannedServe where
  token : JsString
  request : DedupeParams
  served : ProxyServeRequest

/-- Everything before the ticket. -/
def planServe (receiveKey requestFrame : Bytes) : Except Refusal PlannedServe := do
  let payload ← (decodePayload p receiveKey requestFrame).mapError (.respond .bad_request)
  let body ← (decodeBody p payload.body payload.body_encoding).mapError .throw
  let method ← (payloadMethod p payload.method).mapError .throw
  let prepared ← (preparePayload p payload method).mapError (.respond .bad_request)
  return {
    token := payload.token
    request := {
      target_url := payload.target_url
      method
      headers := preparedHeaders prepared payload.headers
      body
      profile_hash := prepared.map PreparedProxyProfileV1.profile_hash }
    served := {
      target_url := payload.target_url
      method := some method
      headers := preparedHeaders prepared payload.headers
      body
      profile := prepared.map fun q => profileJson q.profile } }

/-- A request frame, with the keys of its connection and the clock at its two reads. -/
structure DataRequest where
  session : SecureSession
  frame : Bytes
  clock : JsNumber
  clock' : JsNumber

def ticketOptions (deps : DataPlaneServeDeps) (plan : PlannedServe) : VerifyRequestTicketOptions where
  token := plan.token
  nodeId := deps.nodeId
  publicKey := deps.pinnedKey
  request := plan.request

/-- `resolveProxyResponse` up to the call of `serve`, and the replay cache at that point. -/
def resolveProxyResponse (deps : DataPlaneServeDeps) (replay : JtiReplayCache) (r : DataRequest) :
    Except Refusal ProxyServeRequest × JtiReplayCache :=
  match planServe p r.session.receiveKey r.frame with
  | .error e => (.error e, replay)
  | .ok plan =>
    match verifyRequestTicket p r.clock r.clock' (ticketOptions deps plan) (some replay) with
    | (.ok _, replay') => (.ok plan.served, replay'.getD replay)
    | (.error e, replay') => (.error (.respond .unauthorized e), replay'.getD replay)

/-- The answer once `serve` has ended. -/
def servedPayload : Except JsError ProxyResult → ProxyResponsePayload
  | .ok result => .proxy_response result
  | .error err => .error .upstream_error err

end ConsensusNode.Tunnel
