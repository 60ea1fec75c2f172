import ConsensusNode.Platform
import ConsensusNode.Js.JsonText
import ConsensusNode.Js.OrdMap
import ConsensusNode.Lib.Run

/-! # The streams of the control client

The stream handlers of `clients/control-client.ts`. One message, or one event of a socket or of a
data-plane session, is one step: between two events the handlers wait for nothing but `send`, which does
not wait for the network. A step returns the effects in their order; `threw` is the exception that ends
a handler, which the tunnel answers with an error message.

A stream is in `activeStreams` and, unless it is a proxy session, in one more map. A public tunnel has an
owner stream; the streams of its clients are numbered by the owner's `nextStreamId` and linked both ways,
in `publicTunnelStreams` and in the two maps of the owner. -/

namespace ConsensusNode.Clients

open Js

variable (p : Platform)

/-! ### Frames of a public tunnel -/

inductive PublicTunnelFrame where
  | streamOpen
  | streamData
  | streamEnd
  | streamReset
  | ping
  | pong
deriving DecidableEq

/-- The values of `PUBLIC_TUNNEL_FRAME`. -/
def PublicTunnelFrame.code : PublicTunnelFrame → UInt8
  | streamOpen => 0x01
  | streamData => 0x02
  | streamEnd => 0x03
  | streamReset => 0x04
  | ping => 0x05
  | pong => 0x06

/-- `writeUInt32BE` throws on a number of more than 32 bits. -/
def encodePublicTunnelFrame (type : PublicTunnelFrame) (streamId : ℕ) (payload : Bytes) :
    Except JsError Bytes :=
  if streamId < 2 ^ 32 then .ok (type.code :: beBytes 4 streamId ++ payload) else .error .native

structure DecodedFrame where
  type : UInt8
  streamId : ℕ
  payload : Bytes
deriving DecidableEq

def decodePublicTunnelFrame (data : Bytes) : Except JsError DecodedFrame :=
  match data with
  | t :: a :: b :: c :: d :: payload => .ok ⟨t, beVal [a, b, c, d], payload⟩
  | data => .error (.thrown
      (js "Public tunnel frame too short: " ++ decText data.length ++ js " bytes"))

/-! ### Targets -/

inductive StreamTarget where
  | rawTunnel (host : Json) (port : JsNumber)
  | publicTunnelOwner (tunnelId : Json)
  | publicTunnelStream (tunnelId : Json) (initialData : Bytes)
  | dataPlane
deriving DecidableEq

/-- `Buffer.from(v, "base64")` if `v` is truthy, else no bytes. -/
def initialBytes (v : Option Json) : Except JsError Bytes :=
  match v with
  | some (.str s) => .ok (decodeBase64 s)
  | some v => if Json.truthy (some v) then p.bufferFrom v else .ok []
  | none => .ok []

/-- The target in an object; only the kind of the tunnel is compared, no other type is checked. -/
def streamTargetOf (parsed : Json) : Option StreamTarget := do
  let kind ← parsed.field? (js "kind")
  if kind = .str (js "raw-tunnel") then
    let host ← parsed.field? (js "host")
    if !Json.truthy (some host) then none else
    match parsed.field? (js "port") with
    | some (.num x) =>
      if x.isInteger ∧ 1 ≤ x.val ∧ x.val ≤ 65535 then some (.rawTunnel host x) else none
    | _ => none
  else if kind = .str (js "public-tunnel-owner") then
    let tunnelId ← parsed.field? (js "tunnel_id")
    if Json.truthy (some tunnelId) then some (.publicTunnelOwner tunnelId) else none
  else if kind = .str (js "public-tunnel-stream") then
    let tunnelId ← parsed.field? (js "tunnel_id")
    if !Json.truthy (some tunnelId) then none else
    match initialBytes p (parsed.field? (js "initial_data")) with
    | .ok initialData => some (.publicTunnelStream tunnelId initialData)
    | .error _ => none
  else if kind = .str (js "data-plane") then some .dataPlane
  else none

def parseStreamTarget (value : Option JsString) : Option StreamTarget :=
  match value with
  | none => none
  | some [] => none
  | some text => (parse text).bind (streamTargetOf p)

/-! ### State -/

/-- A key of a `Map`: primitive values by value, an object by its identity, the number of the message
that it came with. -/
inductive MapKey where
  | value (v : Json)
  | object (message : ℕ)
deriving DecidableEq

def mapKey (message : ℕ) : Json → MapKey
  | .arr _ => .object message
  | .obj _ => .object message
  | v => .value v

structure TunnelOwner where
  streamId : JsString
  nextStreamId : ℕ := 1
  ownerToServer : OrdMap ℕ JsString := ∅
  serverToOwner : OrdMap JsString ℕ := ∅
deriving DecidableEq

structure TunnelLink where
  tunnelId : MapKey
  ownerStreamId : ℕ
deriving DecidableEq

structure ControlState where
  activeRequests : ℕ := 0
  activeStreams : OrdMap JsString Unit := ∅
  rawStreams : OrdMap JsString Unit := ∅
  publicTunnelOwners : OrdMap MapKey TunnelOwner := ∅
  publicTunnelStreams : OrdMap JsString TunnelLink := ∅
  dataPlaneStreams : OrdMap JsString Unit := ∅
  /-- The number of `STREAM_OPEN` messages so far. -/
  opens : ℕ := 0
deriving DecidableEq

inductive ControlEvent where
  | streamOpen (streamId : JsString) (target : Option JsString)
  | streamData (streamId data : JsString)
  | streamClose (streamId : JsString)
  | socketData (streamId : JsString) (data : Bytes)
  | socketClosed (streamId : JsString)
  | socketError (streamId message : JsString)
  | dataPlaneDone (streamId : JsString)
  /-- `executeProxySessionMessage` returned, or threw with a message. -/
  | executed (streamId : JsString) (output : Except JsString Bytes)
  | connectionClosed
deriving DecidableEq

inductive ControlEffect where
  | streamData (streamId : JsString) (data : Bytes)
  | streamClose (streamId reason : JsString)
  | error (code message : JsString)
  | connect (streamId : JsString) (host : Json) (port : JsNumber)
  | socketWrite (streamId : JsString) (data : Bytes)
  | socketDestroy (streamId : JsString)
  | startDataPlaneStream (streamId : JsString)
  | dataPlanePush (streamId : JsString) (data : Bytes)
  | dataPlaneFail (streamId reason : JsString)
  | executeProxySessionMessage (streamId : JsString) (data : Bytes)
  | threw (err : JsError)
deriving DecidableEq

/-! ### Handlers -/

/-- `sendStreamData(owner, encodePublicTunnelFrame(type, streamId, payload))`. -/
def sendFrame (owner : JsString) (type : PublicTunnelFrame) (streamId : ℕ) (payload : Bytes) :
    List ControlEffect :=
  match encodePublicTunnelFrame type streamId payload with
  | .ok frame => [.streamData owner frame]
  | .error e => [.threw e]

/-- `n++` on a number of the language, which stops at `2 ^ 53`. -/
def increment (n : ℕ) : ℕ := if n < 2 ^ 53 then n + 1 else n

namespace ControlState

variable (s : ControlState)

/-- The first owner with this stream. -/
def ownerEntry? (streamId : JsString) : Option (MapKey × TunnelOwner) :=
  s.publicTunnelOwners.entries.find? fun e => e.2.streamId = streamId

def cleanupPublicTunnelStream (serverStreamId : JsString) : ControlState :=
  match s.publicTunnelStreams.get? serverStreamId with
  | none => s
  | some linked =>
    let publicTunnelOwners :=
      match s.publicTunnelOwners.get? linked.tunnelId with
      | none => s.publicTunnelOwners
      | some owner => s.publicTunnelOwners.set linked.tunnelId { owner with
          ownerToServer := owner.ownerToServer.delete linked.ownerStreamId
          serverToOwner := owner.serverToOwner.delete serverStreamId }
    { s with
      publicTunnelOwners
      publicTunnelStreams := s.publicTunnelStreams.delete serverStreamId
      activeStreams := s.activeStreams.delete serverStreamId }

def openOwner (streamId : JsString) (tunnelId : MapKey) : ControlState :=
  { s with
    activeStreams := s.activeStreams.set streamId ()
    publicTunnelOwners := s.publicTunnelOwners.set tunnelId { streamId } }

def openPublicStream (streamId : JsString) (tunnelId : MapKey) (initialData : Bytes) :
    ControlState × List ControlEffect :=
  match s.publicTunnelOwners.get? tunnelId with
  | none => (s, [.streamClose streamId (js "tunnel owner unavailable")])
  | some owner =>
    let ownerStreamId := owner.nextStreamId
    ({ s with
        publicTunnelOwners := s.publicTunnelOwners.set tunnelId { owner with
          nextStreamId := increment owner.nextStreamId
          ownerToServer := owner.ownerToServer.set ownerStreamId streamId
          serverToOwner := owner.serverToOwner.set streamId ownerStreamId }
        publicTunnelStreams := s.publicTunnelStreams.set streamId ⟨tunnelId, ownerStreamId⟩
        activeStreams := s.activeStreams.set streamId () },
      sendFrame owner.streamId .streamOpen ownerStreamId initialData)

/-- `STREAM_OPEN`. -/
def handleOpen (streamId : JsString) (target : Option JsString) : ControlState × List ControlEffect :=
  let message := s.opens
  let s : ControlState := { s with opens := s.opens + 1 }
  if target = some (js "proxy-session") then
    ({ s with activeStreams := s.activeStreams.set streamId () }, [])
  else
    match parseStreamTarget p target with
    | some (.publicTunnelOwner tunnelId) => (s.openOwner streamId (mapKey message tunnelId), [])
    | some (.publicTunnelStream tunnelId initialData) =>
      s.openPublicStream streamId (mapKey message tunnelId) initialData
    | some .dataPlane =>
      ({ s with
          activeStreams := s.activeStreams.set streamId ()
          dataPlaneStreams := s.dataPlaneStreams.set streamId () },
        [.startDataPlaneStream streamId])
    | none =>
      (s, [.error (js "unsupported_stream_target")
        (js "Unsupported stream target: " ++ target.getD [])])
    | some (.rawTunnel host port) =>
      match p.createConnection host port with
      | .error e => ({ s with activeStreams := s.activeStreams.set streamId () }, [.threw e])
      | .ok () =>
        ({ s with
            activeStreams := s.activeStreams.set streamId ()
            rawStreams := s.rawStreams.set streamId () },
          [.connect streamId host port])

/-- A frame of an owner; an unknown stream number is ignored, and so is the empty stream id. -/
def handleOwnerFrame (owner : TunnelOwner) (frame : DecodedFrame) :
    ControlState × List ControlEffect :=
  if frame.type = PublicTunnelFrame.ping.code then (s, sendFrame owner.streamId .pong 0 [])
  else if frame.type = PublicTunnelFrame.pong.code then (s, [])
  else
    match owner.ownerToServer.get? frame.streamId with
    | none => (s, [])
    | some [] => (s, [])
    | some serverStreamId =>
      if frame.type = PublicTunnelFrame.streamData.code then
        (s, [.streamData serverStreamId frame.payload])
      else if frame.type = PublicTunnelFrame.streamEnd.code then
        (s.cleanupPublicTunnelStream serverStreamId, [.streamClose serverStreamId (js "target closed")])
      else if frame.type = PublicTunnelFrame.streamReset.code then
        (s.cleanupPublicTunnelStream serverStreamId, [.streamClose serverStreamId (js "target reset")])
      else (s, [])

/-- `STREAM_DATA`; what belongs to no map is run as a proxy request. -/
def handleData (streamId data : JsString) : ControlState × List ControlEffect :=
  match s.ownerEntry? streamId with
  | some (_, owner) =>
    match decodePublicTunnelFrame (decodeBase64 data) with
    | .ok frame => s.handleOwnerFrame owner frame
    | .error _ => (s, [])
  | none =>
    match s.publicTunnelStreams.get? streamId with
    | some linked =>
      match s.publicTunnelOwners.get? linked.tunnelId with
      | none =>
        (s.cleanupPublicTunnelStream streamId, [.streamClose streamId (js "tunnel owner unavailable")])
      | some owner => (s, sendFrame owner.streamId .streamData linked.ownerStreamId (decodeBase64 data))
    | none =>
      if s.rawStreams.has streamId then (s, [.socketWrite streamId (decodeBase64 data)])
      else if s.dataPlaneStreams.has streamId then (s, [.dataPlanePush streamId (decodeBase64 data)])
      else ({ s with activeRequests := s.activeRequests + 1 },
        [.executeProxySessionMessage streamId (decodeBase64 data)])

/-- The owner's stream closes: its streams are closed and forgotten, then the owner. -/
def closeOwner (streamId : JsString) (tunnelId : MapKey) (owner : TunnelOwner) :
    ControlState × List ControlEffect :=
  let serverStreams := owner.serverToOwner.keys
  ({ s with
      publicTunnelStreams := s.publicTunnelStreams.filter fun e => !serverStreams.contains e.1
      publicTunnelOwners := s.publicTunnelOwners.delete tunnelId
      activeStreams :=
        (s.activeStreams.filter fun e => !serverStreams.contains e.1).delete streamId },
    serverStreams.map fun serverStreamId => .streamClose serverStreamId (js "tunnel owner closed"))

/-- `STREAM_CLOSE`; if the frame for the owner cannot be encoded, nothing is cleaned up. -/
def handleClose (streamId : JsString) : ControlState × List ControlEffect :=
  match s.ownerEntry? streamId with
  | some (tunnelId, owner) => s.closeOwner streamId tunnelId owner
  | none =>
    match s.publicTunnelStreams.get? streamId with
    | some linked =>
      match s.publicTunnelOwners.get? linked.tunnelId with
      | none => (s.cleanupPublicTunnelStream streamId, [])
      | some owner =>
        match encodePublicTunnelFrame .streamReset linked.ownerStreamId [] with
        | .error e => (s, [.threw e])
        | .ok frame => (s.cleanupPublicTunnelStream streamId, [.streamData owner.streamId frame])
    | none =>
      if s.dataPlaneStreams.has streamId then
        ({ s with
            dataPlaneStreams := s.dataPlaneStreams.delete streamId
            activeStreams := s.activeStreams.delete streamId },
          [.dataPlaneFail streamId (js "client stream closed")])
      else
        ({ s with
            rawStreams := s.rawStreams.delete streamId
            activeStreams := s.activeStreams.delete streamId },
          if s.rawStreams.has streamId then [.socketDestroy streamId] else [])

/-- The tunnel itself is gone. -/
def handleConnectionClosed : ControlState × List ControlEffect :=
  ({ s with
      rawStreams := ∅, publicTunnelOwners := ∅, publicTunnelStreams := ∅, dataPlaneStreams := ∅,
      activeStreams := ∅ },
    s.rawStreams.keys.map .socketDestroy ++
      s.dataPlaneStreams.keys.map fun id => .dataPlaneFail id (js "connection closed"))

def handle (e : ControlEvent) : ControlState × List ControlEffect :=
  match e with
  | .streamOpen streamId target => s.handleOpen p streamId target
  | .streamData streamId data => s.handleData streamId data
  | .streamClose streamId => s.handleClose streamId
  | .socketData streamId data => (s, [.streamData streamId data])
  | .socketClosed streamId =>
    if s.rawStreams.has streamId then
      ({ s with
          rawStreams := s.rawStreams.delete streamId
          activeStreams := s.activeStreams.delete streamId },
        [.streamClose streamId (js "target closed")])
    else (s, [])
  | .socketError streamId message =>
    ({ s with
        rawStreams := s.rawStreams.delete streamId
        activeStreams := s.activeStreams.delete streamId },
      [.error (js "raw_tunnel_failed") message, .streamClose streamId message])
  | .dataPlaneDone streamId =>
    ({ s with
        dataPlaneStreams := s.dataPlaneStreams.delete streamId
        activeStreams := s.activeStreams.delete streamId }, [])
  | .executed streamId output =>
    ({ s with activeRequests := s.activeRequests - 1 },
      match output with
      | .ok data => [.streamData streamId data]
      | .error message => [.error (js "stream_data_failed") message])
  | .connectionClosed => s.handleConnectionClosed

def step (e : ControlEvent) : ControlState := (s.handle p e).1

end ControlState

/-- The stream ids of the `STREAM_OPEN` messages. -/
def openIds (events : List ControlEvent) : List JsString :=
  events.filterMap fun e => match e with
    | .streamOpen streamId _ => some streamId
    | _ => none

end ConsensusNode.Clients
