import ConsensusNode.Crypto.SecureChannel
import ConsensusNode.Js.JsonText
import ConsensusNode.Js.OrdMap

/-! # The tunnel client

`tunnel/tunnel-client.ts` and the codec of `tunnel/messages.ts`. `send` seals one message under the next
sequence number; `handleRawMessage` refuses a frame whose number is not larger than the last one, opens it,
and only then records its number. From its check to that point the function does not wait, so a call is one
step. Random nonces and the clock are inputs. -/

namespace ConsensusNode.Tunnel

open Js Crypto

variable (p : Platform)

/-! ### Messages -/

/-- The values of `MESSAGE_TYPE`. -/
def MESSAGE_TYPES : List JsString :=
  [js "hello", js "ready", js "ping", js "pong", js "http_request", js "http_response", js "eval_request",
    js "eval_response", js "join_ready", js "heartbeat", js "proxy_request", js "proxy_response",
    js "stream_open", js "stream_data", js "stream_close", js "update_prepare", js "update_ready",
    js "update_apply", js "update_failed", js "ack", js "error"]

def encodeMessage (message : Json) : Bytes := utf8 (stringify message)

/-- A number that is not infinite. -/
def isFiniteNumber : Option Json → Bool
  | some (.num (.fin _ _)) => true
  | _ => false

def assertTunnelMessage (value : Json) : Except JsError Unit :=
  match value with
  | .arr _ => .error (.thrown (js "Tunnel message type is required"))
  | .obj fs =>
    match fs.lookup (js "type") with
    | some (.str type) => do
      require (MESSAGE_TYPES.contains type) (js "Unknown tunnel message type: " ++ type)
      require (isFiniteNumber (fs.lookup (js "timestamp")))
        (js "Tunnel message timestamp must be a finite number")
    | _ => .error (.thrown (js "Tunnel message type is required"))
  | _ => .error (.thrown (js "Tunnel message must be an object"))

def decodeMessage (payload : Bytes) : Except JsError Json :=
  match parse (decodeUtf8 payload) with
  | none => .error .native
  | some value => do
    assertTunnelMessage value
    return value

def pongMessage (now : JsNumber) : Json :=
  .obj [(js "type", .str (js "pong")), (js "timestamp", .num now)]

/-! ### The client -/

structure TunnelClient where
  isOpen : Bool := true
  sendSequence : ℕ := 0
  lastReceiveSequence : ℤ := -1
  /-- The requests that wait for a reply. -/
  pending : OrdMap JsString Unit := ∅

/-- A call of `send`. -/
structure SendInput where
  message : Json
  frameType : FrameType := .data
  nonce : Bytes

namespace TunnelClient

/-- The number is used up even if the frame cannot be sealed. -/
def send (c : TunnelClient) (session : SecureSession) (i : SendInput) :
    Except JsError Bytes × TunnelClient :=
  if c.isOpen then
    (sealFrame p i.nonce session.sendKey i.frameType c.sendSequence (encodeMessage i.message),
      { c with sendSequence := c.sendSequence + 1 })
  else (.error (.thrown (js "Tunnel is not connected")), c)

/-- How a waiting request ends. -/
inductive Settlement where
  | resolve (id : JsString)
  | reject (id : JsString) (message : Option Json)

/-- `resolvePending`; only a non-empty string is a reply. -/
def resolvePending (c : TunnelClient) (message : Json) : Option Settlement × TunnelClient :=
  match message.field? (js "reply_to") with
  | some (.str (x :: id)) =>
    if c.pending.has (x :: id) then
      let settlement := if message.field? (js "type") = some (.str (js "error"))
        then Settlement.reject (x :: id) (message.field? (js "message")) else .resolve (x :: id)
      (some settlement, { c with pending := c.pending.delete (x :: id) })
    else (none, c)
  | _ => (none, c)

/-- `close`: nothing is pending any more, and the socket is gone. -/
def close (c : TunnelClient) : TunnelClient := { c with isOpen := false, pending := ∅ }

/-- What is done with an accepted frame. -/
inductive Dispatch where
  | pong (reply : Except JsError Bytes)
  | ignore
  | close
  | deliver (message : Json) (settles : Option Settlement)
  | invalid (err : JsError)

def dispatch (c : TunnelClient) (session : SecureSession) (frame : FrameParts) (plaintext nonce : Bytes)
    (now : JsNumber) : Dispatch × TunnelClient :=
  match frame.type with
  | .ping =>
    let (reply, c) := c.send p session { message := pongMessage now, frameType := .pong, nonce }
    (.pong reply, c)
  | .pong => (.ignore, c)
  | .close => (.close, c.close)
  | _ =>
    match decodeMessage plaintext with
    | .error e => (.invalid e, c)
    | .ok message =>
      let (settles, c) := c.resolvePending message
      (.deliver message settles, c)

/-- Bytes that arrive, with the nonce and the clock of a pong. -/
structure Delivery where
  raw : Bytes
  nonce : Bytes
  now : JsNumber

/-- The outcome of `handleRawMessage`. -/
inductive Receipt where
  | rejected (err : JsError)
  | accepted (frame : FrameParts) (plaintext : Bytes) (dispatch : Dispatch)

/-- The checks of `handleRawMessage`. -/
def receive (c : TunnelClient) (receiveKey raw : Bytes) : Except JsError (FrameParts × Bytes) := do
  let sequence ← peekFrameSequence raw
  require (c.lastReceiveSequence < sequence) (js "Replay or out-of-order tunnel frame rejected")
  openFrame p receiveKey raw

def handleRawMessage (c : TunnelClient) (session : SecureSession) (d : Delivery) :
    Receipt × TunnelClient :=
  match c.receive p session.receiveKey d.raw with
  | .error e => (.rejected e, c)
  | .ok (frame, plaintext) =>
    let c := { c with lastReceiveSequence := (frame.sequence : ℤ) }
    let (action, c) := c.dispatch p session frame plaintext d.nonce d.now
    (.accepted frame plaintext action, c)

/-! ### What a call leaves alone -/

section Frame

variable {p} (c : TunnelClient) (session : SecureSession)

theorem send_frame (i : SendInput) :
    (c.send p session i).2 = { c with sendSequence := (c.send p session i).2.sendSequence } := by
  unfold send
  split_ifs <;> rfl

theorem resolvePending_frame (message : Json) :
    (c.resolvePending message).2 = { c with pending := (c.resolvePending message).2.pending } := by
  unfold resolvePending
  split
  · split_ifs <;> rfl
  · rfl

end Frame

end TunnelClient

end ConsensusNode.Tunnel
