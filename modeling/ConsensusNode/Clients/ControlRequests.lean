import ConsensusNode.Clients.ControlStreams
import ConsensusNode.Lib.Jobs
import ConsensusNode.Runtime.ProxySession

/-! # The requests of the control client

The handlers of `clients/control-client.ts` that run a request and answer it: `PROXY_REQUEST`, `EVAL_REQUEST`,
and `STREAM_DATA` of a proxy session. A handler waits once, for its call of `serveProxyRequest` or of
`runEvalAction`, so many of them wait at a time; the end of a call is an event. What a handler sends comes at
its end. `send` throws if the tunnel does not take a message, and then the next message is tried: the one of
the `catch` block, and after that the one that the tunnel client sends for an exception of a handler. -/

namespace ConsensusNode.Clients

open Js Lib ConsensusNode.Runtime

variable (p : Platform)

/-! ### Messages -/

def createErrorMessage (timestamp : JsNumber) (reply_to : Option Json) (code message : JsString) : Json :=
  .obj (definedFields [(js "type", some (.str (js "error"))), (js "timestamp", some (.num timestamp)),
    (js "reply_to", reply_to), (js "code", some (.str code)), (js "message", some (.str message))])

/-- What the tunnel client sends if a handler throws. -/
def decodeFailed (timestamp : JsNumber) (message : JsString) : Json :=
  createErrorMessage timestamp none (js "decode_failed") message

def evalResponse (timestamp : JsNumber) (id action result : Option Json) : Json :=
  .obj (definedFields [(js "type", some (.str (js "eval_response"))), (js "timestamp", some (.num timestamp)),
    (js "reply_to", some (orElse id (.str []))), (js "action", action), (js "ok", some (.bool true)),
    (js "result", result)])

def evalFailure (timestamp : JsNumber) (id action : Option Json) (error : JsString) : Json :=
  .obj (definedFields [(js "type", some (.str (js "eval_response"))), (js "timestamp", some (.num timestamp)),
    (js "reply_to", some (orElse id (.str []))), (js "action", action), (js "ok", some (.bool false)),
    (js "error", some (.str error))])

def streamDataMessage (timestamp : JsNumber) (streamId : JsString) (data : Bytes) : Json :=
  .obj [(js "type", .str (js "stream_data")), (js "timestamp", .num timestamp),
    (js "stream_id", .str streamId), (js "data", .str (base64 data)), (js "encoding", .str (js "base64"))]

/-- `sanitizeUrl` throws: it is given no URL, and the `catch` block cannot measure the value or cut it. -/
def sanitizeUrlThrows (value : Option Json) : Bool :=
  let parses := match textOf value with
    | .ok text => (p.parseUrl text).isSome
    | .error _ => false
  if parses then false
  else
    match value with
    | none => true
    | some .null => true
    | some (.arr xs) => decide (120 < xs.length) && !(elementTexts (xs.take 117)).isOk
    | some (.obj fs) =>
      match fs.lookup (js "length") with
      | none => false
      | some length =>
        match toNumber length with
        | .error _ => true
        -- such an object has no method `slice`
        | .ok x => JsNumber.lt (some (JsNumber.ofNat 120)) x
    | some _ => false

/-! ### Handlers -/

inductive Handler where
  | proxy (id : Option Json)
  | eval (id action : Option Json)
  | session (streamId : JsString) (request : SessionRequest)

/-- The handler is counted in `activeRequests`. -/
def Handler.isCounted : Handler → Bool
  | .eval _ _ => false
  | _ => true

/-- The end of the code that a handler's `try` block guards, or an exception outside of it. -/
inductive Outcome where
  | served (response : ProxyResult)
  /-- `none` is `undefined`. -/
  | evaluated (result : Option Json)
  | failed (message : JsString)
  | refused (message : JsString)
  | threw (message : JsString)

/-- What a handler meets at its end: the clock, a tunnel that takes a message (`none`) or throws with a text,
and the text of an exception of the language. -/
structure Surroundings where
  timestamp : JsNumber
  send : Json → Option JsString
  native : JsString

/-- The messages are tried in turn, each with the text of the exception before it. -/
def Surroundings.deliver (w : Surroundings) : JsString → List (JsString → Json) → List Json
  | _, [] => []
  | text, message :: messages =>
    match w.send (message text) with
    | none => [message text]
    | some text' => w.deliver text' messages

structure Ending where
  handler : Handler
  outcome : Outcome
  surroundings : Surroundings

/-- What is tried in turn at the end of a handler, and the text to begin with. -/
def Ending.messages (e : Ending) : JsString × List (JsString → Json) :=
  let t := e.surroundings.timestamp
  match e.handler, e.outcome with
  | .proxy id, .served response =>
    ([], [fun _ => proxyResponse t id response, createErrorMessage t id (js "proxy_failed"), decodeFailed t])
  | .proxy id, .failed message => (message, [createErrorMessage t id (js "proxy_failed"), decodeFailed t])
  | .eval id action, .evaluated result =>
    ([], [fun _ => evalResponse t id action result, evalFailure t id action, decodeFailed t])
  | .eval id action, .failed message => (message, [evalFailure t id action, decodeFailed t])
  | .eval id _, .refused message =>
    (message, [createErrorMessage t id (js "eval_action_not_allowed"), decodeFailed t])
  | .session streamId request, outcome =>
    let result : Except JsString ProxyResult := match outcome with
      | .served response => .ok response
      | .failed message => .error message
      | _ => .error e.surroundings.native
    match request.output e.surroundings.native result with
    | .ok data => ([], [fun _ => streamDataMessage t streamId data,
        createErrorMessage t none (js "stream_data_failed")])
    | .error message => (message, [createErrorMessage t none (js "stream_data_failed")])
  | _, .threw message => (message, [decodeFailed t])
  -- a handler of one kind does not end as one of another
  | _, _ => ([], [])

/-- What is sent at the end of a handler. -/
def Ending.reply (e : Ending) : List Json := e.surroundings.deliver e.messages.1 e.messages.2

/-! ### Up to the call -/

inductive RequestCall where
  | serveProxyRequest (call : ProxyServeRequest)
  | runEvalAction (action params : Option Json)
deriving DecidableEq

/-- The message of an exception; `native` is that of an exception of the language. -/
def errorText (native : JsString) : JsError → JsString
  | .thrown message => message
  | .native => native

/-- `executeProxyCommand` in a `try` block. -/
def startCommand (native : JsString) (message : ProxyRequestMessage) : Except Outcome RequestCall :=
  match commandCall p message with
  | .ok call => .ok (.serveProxyRequest call)
  | .error err => .error (.failed (errorText native err))

/-- `PROXY_REQUEST`: the log line is before the `try` block. -/
def startProxy (native : JsString) (message : Json) : Except Outcome RequestCall :=
  if sanitizeUrlThrows p (message.field? (js "target_url")) then .error (.threw native)
  else startCommand p native (.ofJson message)

/-- The actions that are run outside of an evaluation. -/
def CONTROL_ACTIONS : List JsString := [js "benchmark_sustained", js "integrity"]

/-- The action is allowed on the control tunnel. -/
def isControlAction : Option Json → Bool
  | some (.str action) => CONTROL_ACTIONS.contains action
  | _ => false

/-- `EVAL_REQUEST`. -/
def startEval (native : JsString) (message : Json) : Except Outcome RequestCall :=
  let action := message.field? (js "action")
  if isControlAction action then
    .ok (.runEvalAction action (some (orElse (message.field? (js "params")) (.obj []))))
  else
    match textOf action with
    | .ok text => .error (.refused (js "Action not allowed on the control tunnel: " ++ text))
    | .error _ => .error (.threw native)

/-- The data of a proxy session. -/
def startSession (native : JsString) : SessionRequest → Except Outcome RequestCall
  | .fetch _ message => startCommand p native message
  | _ => .error (.failed native)

/-! ### The client -/

structure RequestState where
  control : ControlState := {}
  jobs : Jobs Handler Ending Json := {}
  /-- The calls of the handlers. -/
  calls : List (ℕ × RequestCall) := []

inductive RequestEvent where
  | proxyRequest (message : Json)
  | evalRequest (message : Json)
  /-- An event of the streams; what a proxy session executes becomes a handler here. -/
  | stream (e : ControlEvent)
  /-- The call of `serveProxyRequest` of a handler ends. -/
  | served (n : ℕ) (outcome : Except JsString ProxyResult)
  /-- The call of `runEvalAction` of a handler ends. -/
  | evaluated (n : ℕ) (outcome : Except JsString (Option Json))

structure RequestTurn where
  event : RequestEvent
  surroundings : Surroundings

/-- How the event ends the call of the handler with this number. -/
def Handler.outcome? (h : Handler) (n : ℕ) (e : RequestEvent) : Option Outcome :=
  match h, e with
  | .eval _ _, .evaluated m (.ok result) => if m = n then some (.evaluated result) else none
  | .eval _ _, .evaluated m (.error message) => if m = n then some (.failed message) else none
  | .eval _ _, _ => none
  | _, .served m (.ok response) => if m = n then some (.served response) else none
  | _, .served m (.error message) => if m = n then some (.failed message) else none
  | _, _ => none

/-- The data that a step of the streams runs as a request. -/
def sessionData? (effects : List ControlEffect) : Option (JsString × Bytes) :=
  effects.findSome? fun
    | .executeProxySessionMessage streamId data => some (streamId, data)
    | _ => none

namespace RequestState

variable (s : RequestState)

/-- `activeRequests += 1`. -/
def addRequest : RequestState :=
  { s with control := { s.control with activeRequests := s.control.activeRequests + 1 } }

/-- `activeRequests = Math.max(0, activeRequests - 1)`. -/
def removeRequest : RequestState :=
  { s with control := { s.control with activeRequests := s.control.activeRequests - 1 } }

/-- A handler ends, with its `finally` block; an exception outside of the `try` block passes that by. -/
def finish (n : ℕ) (e : Ending) : RequestState :=
  let s : RequestState := { s with jobs := s.jobs.finish Ending.reply n e }
  match e.handler, e.outcome with
  | .eval _ _, _ => s
  | _, .threw _ => s
  | _, _ => s.removeRequest

/-- A handler starts: it waits for its call, or ends because it makes none. -/
def begin (w : Surroundings) (h : Handler) (start : Except Outcome RequestCall) : RequestState :=
  let n := s.jobs.next
  let s : RequestState := { s with jobs := s.jobs.start h }
  match start with
  | .ok call => { s with calls := s.calls ++ [(n, call)] }
  | .error outcome => s.finish n ⟨h, outcome, w⟩

/-- The `STREAM_DATA` of a proxy session, which `handleData` has counted, and all other events of the streams.
`executed` is the end of a handler and no event here. -/
def handleStream (w : Surroundings) (e : ControlEvent) : RequestState :=
  match e with
  | .executed _ _ => s
  | e =>
    let (control, effects) := s.control.handle p e
    let s : RequestState := { s with control }
    match sessionData? effects with
    | some (streamId, data) =>
      let request := sessionRequest data
      s.begin w (.session streamId request) (startSession p w.native request)
    | none => s

/-- An event that may end the call of a handler. -/
def handleEnd (w : Surroundings) (n : ℕ) (e : RequestEvent) : RequestState :=
  match s.jobs.running.get? n with
  | none => s
  | some h =>
    match h.outcome? n e with
    | none => s
    | some outcome => s.finish n ⟨h, outcome, w⟩

def step (t : RequestTurn) : RequestState :=
  let w := t.surroundings
  match t.event with
  | .proxyRequest message =>
    s.addRequest.begin w (.proxy (message.field? (js "id"))) (startProxy p w.native message)
  | .evalRequest message =>
    s.begin w (.eval (message.field? (js "id")) (message.field? (js "action"))) (startEval w.native message)
  | .stream e => s.handleStream p w e
  | .served n outcome => s.handleEnd w n (.served n outcome)
  | .evaluated n outcome => s.handleEnd w n (.evaluated n outcome)

end RequestState

end ConsensusNode.Clients
