import ConsensusNode.Js.RoundTrip
import ConsensusNode.Runtime.ProxyServe

/-! # Proxy requests over the control tunnel

`runtime/proxy-command.ts` and `runtime/proxy-session.ts`: a `proxy_request` message, and the data of a
proxy session, which holds a request as JSON text. Both become a call of `serveProxyRequest`; what they make
of its end is apart from that, so that the calls can wait side by side. Nothing checks the types of the
fields, so they are any JSON values here. -/

namespace ConsensusNode.Runtime

open Js

variable (p : Platform)

/-! ### Commands -/

/-- The fields that `executeProxyCommand` reads; `none` is `undefined`. -/
structure ProxyRequestMessage where
  id : Option Json := none
  target_url : Option Json := none
  method : Option Json := none
  headers : Option Json := none
  body : Option Json := none
  body_encoding : Option Json := none
  profile : Option Json := none

def ProxyRequestMessage.ofJson (message : Json) : ProxyRequestMessage where
  id := message.field? (js "id")
  target_url := message.field? (js "target_url")
  method := message.field? (js "method")
  headers := message.field? (js "headers")
  body := message.field? (js "body")
  body_encoding := message.field? (js "body_encoding")
  profile := message.field? (js "profile")

/-- `(message.method || "GET").toUpperCase()`. -/
def commandMethod (method : Option Json) : Except JsError JsString :=
  if Json.truthy method then
    match method with
    | some (.str s) => .ok (p.toUpperCase s)
    | _ => .error .native
  else .ok (p.toUpperCase (js "GET"))

/-- `decodeBody` of a command: a body that is not base64 is passed on as it is. -/
def commandBody (body encoding : Option Json) : Except JsError (Option RequestBody) :=
  match body with
  | none => .ok none
  | some .null => .ok none
  | some v =>
    if encoding = some (.str (js "base64")) then
      match v with
      | .str s => .ok (some (.buffer (decodeBase64 s)))
      | v => (p.bufferFrom v).map fun b => some (.buffer b)
    else
      match v with
      | .str s => .ok (some (.text s))
      | v => .ok (some (.value v))

/-- `String(v)`, as `new URL(v)` and template literals read a value. -/
def textOf : Option Json → Except JsError JsString
  | none => .ok (js "undefined")
  | some v => toStr v

/-- `executeProxyCommand` up to its call of `serveProxyRequest`, which reads `target_url` as a URL only. -/
def commandCall (message : ProxyRequestMessage) : Except JsError ProxyServeRequest := do
  let method ← commandMethod p message.method
  let body ← commandBody p message.body message.body_encoding
  let target_url ← textOf message.target_url
  return { target_url, method := some method, headers := message.headers, body, profile := message.profile }

/-- `v ?? w`. -/
def orElse (v : Option Json) (w : Json) : Json :=
  match v with
  | none => w
  | some .null => w
  | some v => v

/-- The response of `executeProxyCommand`. -/
def proxyResponse (timestamp : JsNumber) (id : Option Json) (response : ProxyResult) : Json :=
  .obj (definedFields [(js "type", some (.str (js "proxy_response"))), (js "timestamp", some (.num timestamp)),
    (js "reply_to", some (orElse id (.str []))), (js "status", some (.num (JsNumber.ofNat response.status))),
    (js "status_text", some (.str response.statusText)), (js "headers", some (headersJson response.headers)),
    (js "body", some (.str (base64 response.body))), (js "body_encoding", some (.str (js "base64"))),
    (js "cached", some (.bool response.cached)), (js "profile_hash", response.profile_hash.map .str)])

/-! ### Sessions -/

/-- What a message of a proxy session holds. -/
inductive SessionRequest where
  | invalid
  /-- `null`, whose `url` cannot be read. -/
  | null
  | noUrl (id : Option Json)
  | fetch (id : Option Json) (message : ProxyRequestMessage)

/-- `executeProxySessionMessage` up to its call of `executeProxyCommand`. -/
def sessionRequest (data : Bytes) : SessionRequest :=
  match parse (decodeUtf8 data) with
  | none => .invalid
  | some .null => .null
  | some request =>
    if Json.truthy (request.field? (js "url")) then
      .fetch (request.field? (js "id")) {
        id := request.field? (js "id")
        target_url := request.field? (js "url")
        method := some (orElse (request.field? (js "method")) (.str (js "GET")))
        headers := request.field? (js "headers")
        body := request.field? (js "body")
        body_encoding := some (.str (js "utf8")) }
    else .noUrl (request.field? (js "id"))

def sessionError (id : Option Json) (error message : JsString) : Json :=
  .obj (definedFields [(js "id", id), (js "error", some (.str error)), (js "message", some (.str message))])

def sessionResponse (id : Option Json) (response : ProxyResult) : Json :=
  .obj (definedFields [(js "id", id), (js "status", some (.num (JsNumber.ofNat response.status))),
    (js "headers", some (headersJson response.headers)), (js "body", some (.str (base64 response.body))),
    (js "body_encoding", some (.str (js "base64"))),
    (js "meta", some (.obj [(js "served_by", .str (js "node-control"))]))])

def jsonBuffer (value : Json) : Bytes := utf8 (stringify value)

/-- What `executeProxySessionMessage` returns, or the message of its exception: `outcome` is the end of the
call of `executeProxyCommand`, if there is one, and `native` the message of an exception of the language. -/
def SessionRequest.output (native : JsString) (outcome : Except JsString ProxyResult) :
    SessionRequest → Except JsString Bytes
  | .invalid => .ok (jsonBuffer (sessionError none (js "invalid_request") (js "Message must be valid JSON")))
  | .null => .error native
  | .noUrl id =>
    .ok (jsonBuffer (sessionError id (js "invalid_request") (js "Missing required field: url")))
  | .fetch id _ =>
    match outcome with
    | .ok response => .ok (jsonBuffer (sessionResponse id response))
    | .error message => .ok (jsonBuffer (sessionError id (js "fetch_failed") message))

end ConsensusNode.Runtime
