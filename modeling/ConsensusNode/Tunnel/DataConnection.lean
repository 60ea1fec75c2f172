import ConsensusNode.Js.RoundTrip
import ConsensusNode.Lib.Run
import ConsensusNode.Tunnel.DataHandshake
import ConsensusNode.Tunnel.DataPlane

/-! # A data-plane connection

`tunnel/data-plane.ts`: `serveDataConnection` and `runDataRequest` as the two parties of one connection.
Each message is a step; between the parties stands an ordered, lossless channel in each direction, and the
parties take their turns in any order. `Connection` holds what the two calls are given and what they draw:
ephemeral keys, nonces and the readings of their clocks. -/

namespace ConsensusNode.Tunnel

open Js Crypto Tickets ConsensusNode.Runtime

variable (p : Platform)

def encodeJson (value : Json) : Bytes := utf8 (stringify value)

/-! ### The client's request -/

/-- `string | Buffer`. -/
inductive ClientBody where
  | text (s : JsString)
  | buffer (b : Bytes)
deriving DecidableEq

/-- The body for `generateDedupeKey`. -/
def ClientBody.requestBody : ClientBody → RequestBody
  | .text s => .text s
  | .buffer b => .buffer b

/-- `normalizeBody`. -/
def ClientBody.bytes : ClientBody → Bytes
  | .text s => utf8 s
  | .buffer b => b

/-- `params.request`. -/
structure ClientRequest where
  target_url : JsString
  method : Option JsString
  headers : Option (List (JsString × JsString))
  body : Option ClientBody
  profile : Option Json

/-- The request that a ticket is issued for. -/
def ClientRequest.dedupeParams (r : ClientRequest) (profile_hash : Option JsString) : DedupeParams where
  target_url := r.target_url
  method := r.method.getD (js "GET")
  headers := r.headers.map headersJson
  body := r.body.map ClientBody.requestBody
  profile_hash := profile_hash

/-- The payload as it is sent. -/
def requestPayload (token : JsString) (r : ClientRequest) : Json :=
  .obj (definedFields [(js "type", some (.str (js "proxy_request"))), (js "token", some (.str token)),
    (js "target_url", some (.str r.target_url)), (js "method", r.method.map .str),
    (js "headers", r.headers.map headersJson),
    (js "body", r.body.map fun b => .str (base64 b.bytes)),
    (js "body_encoding", r.body.map fun _ => .str (js "base64")), (js "profile", r.profile)])

/-! ### The node's response -/

def ErrorCode.text : ErrorCode → JsString
  | .bad_request => js "bad_request"
  | .unauthorized => js "unauthorized"
  | .upstream_error => js "upstream_error"

/-- The response as it is sent; `native` is the message of an exception of the language. -/
def responsePayload (native : JsString) : ProxyResponsePayload → Json
  | .proxy_response r =>
    .obj (definedFields [(js "type", some (.str (js "proxy_response"))),
      (js "status", some (.num (JsNumber.ofNat r.status))), (js "status_text", some (.str r.statusText)),
      (js "headers", some (headersJson r.headers)), (js "body", some (.str (base64 r.body))),
      (js "body_encoding", some (.str (js "base64"))), (js "cached", some (.bool r.cached)),
      (js "profile_hash", r.profile_hash.map .str)])
  | .error code err =>
    .obj [(js "type", .str (js "error")), (js "code", .str code.text),
      (js "message", .str (match err with | .thrown message => message | .native => native))]

/-! ### The two parties -/

/-- What one call of `runDataRequest` and one of `serveDataConnection` are given and draw. -/
structure Connection where
  -- the client
  expectedNodeId : JsString
  expectedNodePublicKeyPem : JsString
  token : JsString
  request : ClientRequest
  clientKey : Bytes
  clientNonce : Bytes
  requestNonce : Bytes
  /-- The time in the init, and the time at which the proof is checked. -/
  initClock : JsNumber
  proofClock : JsNumber
  -- the node
  deps : DataPlaneServeDeps
  identityPem : JsString
  nodeKey : Bytes
  nodeNonce : Bytes
  responseNonce : Bytes
  acceptClock : JsNumber
  /-- The two readings of the clock when the ticket is verified. -/
  ticketClock : JsNumber
  replayClock : JsNumber
  serve : ProxyServeRequest → Except JsError ProxyResult
  nativeMessage : JsString

inductive ClientState where
  | start
  | waitAccept (client : ClientDataHandshake)
  | waitResponse (session : SecureSession)
  | returned (response : Json)
  | threw (err : JsError)
deriving DecidableEq

inductive NodeState where
  | waitInit
  | waitRequest (session : SecureSession)
  | closed
  | threw (err : JsError)
deriving DecidableEq

/-- Both parties, the messages on their way, and the calls of `serve`. -/
structure DataWorld where
  client : ClientState
  node : NodeState
  toNode : List Bytes
  toClient : List Bytes
  replay : JtiReplayCache
  served : List ProxyServeRequest

namespace Connection

variable (c : Connection)

/-- The client has an accept message: its session, and the frame it sends. -/
def sendRequest (client : ClientDataHandshake) (message : Bytes) : Except JsError (SecureSession × Bytes) := do
  let accept ← decodeJson message
  let session ← deriveClientDataSession p client accept c.expectedNodeId c.expectedNodePublicKeyPem
    c.proofClock
  let frame ← sealFrame p c.requestNonce session.sendKey .data 0 (encodeJson (requestPayload c.token c.request))
  return (session, frame)

/-- The client has a response. -/
def readResponse (session : SecureSession) (message : Bytes) : Except JsError Json := do
  let (frame, plaintext) ← openFrame p session.receiveKey message
  require (frame.type = .data) (js "data-plane: unexpected response frame type")
  decodeJson plaintext

/-- The node has an init: its session, and the accept message it sends. -/
def acceptInit (message : Bytes) : Except JsError (SecureSession × Bytes) := do
  let init ← decodeJson message
  let h ← acceptDataInit p c.identityPem ⟨init, c.deps.nodeId, c.acceptClock, c.nodeKey, c.nodeNonce⟩
  return (h.session, encodeJson h.message.toJson)

/-- What the node answers to a request frame, the replay cache, and the calls of `serve`. -/
def answerRequest (session : SecureSession) (replay : JtiReplayCache) (message : Bytes) :
    Except JsError ProxyResponsePayload × JtiReplayCache × List ProxyServeRequest :=
  match resolveProxyResponse p c.deps replay ⟨session, message, c.ticketClock, c.replayClock⟩ with
  | (.ok req, replay') => (.ok (servedPayload (c.serve req)), replay', [req])
  | (.error (.respond code err), replay') => (.ok (.error code err), replay', [])
  | (.error (.throw err), replay') => (.error err, replay', [])

/-- The frame with the response. -/
def sealResponse (session : SecureSession) (response : ProxyResponsePayload) : Except JsError Bytes :=
  sealFrame p c.responseNonce session.sendKey .data 0 (encodeJson (responsePayload c.nativeMessage response))

/-- One turn of `runDataRequest`; without a message it waits. -/
def clientTurn (w : DataWorld) : DataWorld :=
  match w.client, w.toClient with
  | .start, _ =>
    let client := createDataInit p c.expectedNodeId c.clientKey c.clientNonce c.initClock
    { w with client := .waitAccept client, toNode := w.toNode ++ [encodeJson client.message.toJson] }
  | .waitAccept client, message :: rest =>
    match c.sendRequest p client message with
    | .ok (session, frame) =>
      { w with client := .waitResponse session, toClient := rest, toNode := w.toNode ++ [frame] }
    | .error err => { w with client := .threw err, toClient := rest }
  | .waitResponse session, message :: rest =>
    match readResponse p session message with
    | .ok response => { w with client := .returned response, toClient := rest }
    | .error err => { w with client := .threw err, toClient := rest }
  | _, _ => w

/-- One turn of `serveDataConnection`. -/
def nodeTurn (w : DataWorld) : DataWorld :=
  match w.node, w.toNode with
  | .waitInit, message :: rest =>
    match c.acceptInit p message with
    | .ok (session, accept) =>
      { w with node := .waitRequest session, toNode := rest, toClient := w.toClient ++ [accept] }
    | .error err => { w with node := .threw err, toNode := rest }
  | .waitRequest session, message :: rest =>
    match c.answerRequest p session w.replay message with
    | (.ok response, replay, calls) =>
      match c.sealResponse p session response with
      | .ok frame => { w with
          node := .closed, toNode := rest, toClient := w.toClient ++ [frame], replay
          served := w.served ++ calls }
      | .error err => { w with node := .threw err, toNode := rest, replay, served := w.served ++ calls }
    | (.error err, replay, calls) =>
      { w with node := .threw err, toNode := rest, replay, served := w.served ++ calls }
  | _, _ => w

end Connection

inductive Party where
  | client
  | node
deriving DecidableEq

/-- One party takes its turn. -/
def turn (c : Connection) (w : DataWorld) : Party → DataWorld
  | .client => c.clientTurn p w
  | .node => c.nodeTurn p w

/-- Both calls have been made, and nothing has been sent. -/
def connected (replay : JtiReplayCache) : DataWorld where
  client := .start
  node := .waitInit
  toNode := []
  toClient := []
  replay := replay
  served := []

end ConsensusNode.Tunnel
