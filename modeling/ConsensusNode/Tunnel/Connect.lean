import ConsensusNode.Lib.Run
import ConsensusNode.Tunnel.HandshakeAgreement
import ConsensusNode.Tunnel.TunnelClient

/-! # Connecting a tunnel

`tunnel/connect.ts` and `connect` of `tunnel/tunnel-client.ts`: `connectEncryptedTunnel` waits for the socket to
open, sends the init and waits for the first message, derives the session from it, and gives the open socket to a
tunnel client, which registers its listeners and sends the hello. It waits in four places, and in each of them it
listens to other events of the socket: while the session is derived it listens to none. A turn is an event of the
socket or the end of one of these waits, with all that the program does before it waits again.

* `connected_course`: what has happened in a run in which the tunnel is connected, and which messages the client
  gets and which nobody.
* `connect_stuck`: when an attempt waits for ever. -/

namespace ConsensusNode.Tunnel

open Js Crypto Handshake Lib Lib.Run

variable (p : Platform)

/-! ### The socket -/

inductive ReadyState where
  | connecting
  | open
  | closing
  | closed
deriving DecidableEq

/-- The data of a message event. -/
inductive SocketData where
  /-- A `Buffer` or an `ArrayBuffer`. -/
  | bytes (b : Bytes)
  | text (s : JsString)
  | blob (b : Bytes)
  /-- Anything else, with its `typeof`. -/
  | other (type : JsString)
deriving DecidableEq

inductive SocketEvent where
  | opened
  | message (data : SocketData)
  | errored
  /-- The closing handshake begins; nobody is told. -/
  | closing
  | closed
deriving DecidableEq

/-! ### An attempt -/

structure ConnectEncryptedTunnelOptions where
  url : JsString
  mode : TunnelMode
  nodeId : Option JsString
  candidateId : Option JsString
  releaseVersion : Option JsString
  serverPublicKeyPem : Option JsString
  /-- The public key of the identity. -/
  publicKeyPem : JsString

/-- What `connectEncryptedTunnel` waits for, or how it has ended. -/
inductive ConnectPhase where
  /-- `openSocket`. -/
  | opening
  /-- `exchangeHandshake`: the first message. -/
  | greeting
  /-- The first message is a `Blob` that is being read. -/
  | reading (blob : Bytes)
  /-- `deriveClientSessionFromAccept`. -/
  | accepted (accept : Json)
  /-- `waitForOpen` in `connect`. -/
  | reopening (session : SecureSession)
  | connected (session : SecureSession) (client : TunnelClient)
  /-- The client's socket has closed, and its close handlers have been called. -/
  | over
  | failed (error : JsError)

structure ConnectState where
  readyState : ReadyState := .connecting
  phase : ConnectPhase := .opening
  /-- The listeners of the client are registered. -/
  listening : Bool := false
  sent : List Bytes := []
  /-- The messages that the client has been given. -/
  received : List SocketData := []
  /-- The messages that came while nobody listened. -/
  lost : List SocketData := []

inductive ConnectEvent where
  | socket (event : SocketEvent)
  /-- `data.arrayBuffer()` ends. -/
  | blobRead (read : Except JsError Unit)
  /-- `deriveClientSessionFromAccept` ends. -/
  | derived
deriving DecidableEq

/-- An event, with the clock and the nonce of a message that is sent in its turn. -/
structure ConnectTurn where
  event : ConnectEvent
  now : JsNumber
  nonce : Bytes

/-! ### What the program does -/

def decodeAccept (payload : Bytes) : Except JsError Json := do
  let message ← decodeHandshakeMessage payload
  let type := message.field? (js "type")
  if type = some (.str REJECT) then
    let code ← textInMessage (message.field? (js "code"))
    let text ← textInMessage (message.field? (js "message"))
    .error (.thrown (js "Tunnel handshake rejected: " ++ code ++ js ": " ++ text))
  else if type = some (.str ACCEPT) then return message
  else
    let text ← textInMessage type
    .error (.thrown (js "Unexpected tunnel handshake response: " ++ text))

def connectionFailed (o : ConnectEncryptedTunnelOptions) : JsError :=
  .thrown (js "Tunnel connection failed: " ++ o.url)

def helloMessage (o : ConnectEncryptedTunnelOptions) (now : JsNumber) : Json :=
  .obj (definedFields [(js "type", some (.str (js "hello"))), (js "timestamp", some (.num now)),
    (js "mode", some (.str o.mode.text)), (js "node_id", o.nodeId.map Json.str),
    (js "candidate_id", o.candidateId.map Json.str), (js "public_key_pem", some (.str o.publicKeyPem)),
    (js "version", o.releaseVersion.map Json.str)])

/-- The first frame of the client. -/
def helloInput (o : ConnectEncryptedTunnelOptions) (t : ConnectTurn) : SendInput where
  message := helloMessage o t.now
  nonce := t.nonce

namespace ConnectState

section

variable (o : ConnectEncryptedTunnelOptions) (handshake : ClientHandshake) (s : ConnectState)

/-- `decodeAccept` and what follows it. -/
def decided (payload : Except JsError Bytes) : ConnectState :=
  match payload >>= decodeAccept with
  | .error e => { s with phase := .failed e }
  | .ok accept => { s with phase := .accepted accept }

/-- A message event: the first one goes to `exchangeHandshake`. -/
def onMessage (data : SocketData) : ConnectState :=
  match s.phase, data with
  | .greeting, .bytes b => s.decided (.ok b)
  | .greeting, .text t => s.decided (.ok (utf8 t))
  | .greeting, .blob b => { s with phase := .reading b }
  | .greeting, .other type =>
    s.decided (.error (.thrown (js "Unsupported WebSocket message payload: " ++ type)))
  | _, _ =>
    if s.listening then { s with received := s.received ++ [data] } else { s with lost := s.lost ++ [data] }

/-- `connect` from the open socket. -/
def startClient (session : SecureSession) (t : ConnectTurn) : ConnectState :=
  match ({} : TunnelClient).send p session (helloInput o t) with
  | (.error e, _) => { s with phase := .failed e, listening := true }
  | (.ok hello, client) =>
    { s with phase := .connected session client, listening := true, sent := s.sent ++ [hello] }

def onOpen (t : ConnectTurn) : ConnectState :=
  let s := { s with readyState := .open }
  match s.phase with
  | .opening => { s with phase := .greeting, sent := s.sent ++ [encodeHandshakeMessage handshake.message.toJson] }
  | .reopening session => s.startClient p o session t
  | _ => s

def onError : ConnectState :=
  match s.phase with
  | .opening => { s with phase := .failed (connectionFailed o) }
  | .greeting => { s with phase := .failed (.thrown (js "Tunnel errored during handshake")) }
  | .reading _ => { s with phase := .failed (.thrown (js "Tunnel errored during handshake")) }
  | .reopening _ => { s with phase := .failed (connectionFailed o) }
  | _ => s

def onClose : ConnectState :=
  let s := { s with readyState := .closed }
  match s.phase with
  | .greeting => { s with phase := .failed (.thrown (js "Tunnel closed during handshake")) }
  | .reading _ => { s with phase := .failed (.thrown (js "Tunnel closed during handshake")) }
  | .connected _ _ => { s with phase := .over }
  | _ => s

def onBlob (read : Except JsError Unit) : ConnectState :=
  match s.phase with
  | .reading b => s.decided (read.map fun _ => b)
  | _ => s

def onDerived (t : ConnectTurn) : ConnectState :=
  match s.phase with
  | .accepted accept =>
    match deriveClientSessionFromAccept p handshake accept o.serverPublicKeyPem with
    | .error e => { s with phase := .failed e }
    | .ok session =>
      if s.readyState = .open then s.startClient p o session t else { s with phase := .reopening session }
  | _ => s

def step (t : ConnectTurn) : ConnectState :=
  match t.event with
  | .socket .opened => s.onOpen p o handshake t
  | .socket (.message data) => s.onMessage data
  | .socket .errored => s.onError o
  | .socket .closing => { s with readyState := .closing }
  | .socket .closed => s.onClose
  | .blobRead read => s.onBlob read
  | .derived => s.onDerived p o handshake t

end

end ConnectState

/-! ### What a socket does -/

/-- The events of a `WebSocket` in their order: it opens once, has messages while it is open, and closes for good;
one that never opens has an `error` before. -/
def ConnectEvent.Orderly (pre : List ConnectTurn) (s : ConnectState) : ConnectEvent → Prop
  | .socket .opened => s.readyState = .connecting
  | .socket (.message _) => s.readyState = .open
  | .socket .errored => s.readyState ≠ .closed
  | .socket .closing => s.readyState = .connecting ∨ s.readyState = .open
  | .socket .closed => s.readyState ≠ .closed ∧
      ∃ u ∈ pre, u.event = .socket .opened ∨ u.event = .socket .errored
  | .blobRead _ => True
  | .derived => True

instance (pre : List ConnectTurn) (s : ConnectState) : ∀ e : ConnectEvent, Decidable (e.Orderly pre s)
  | .socket .opened => inferInstanceAs (Decidable (s.readyState = .connecting))
  | .socket (.message _) => inferInstanceAs (Decidable (s.readyState = .open))
  | .socket .errored => inferInstanceAs (Decidable (s.readyState ≠ .closed))
  | .socket .closing => inferInstanceAs (Decidable (s.readyState = .connecting ∨ s.readyState = .open))
  | .socket .closed => inferInstanceAs (Decidable (s.readyState ≠ .closed ∧
      ∃ u ∈ pre, u.event = .socket .opened ∨ u.event = .socket .errored))
  | .blobRead _ => .isTrue trivial
  | .derived => .isTrue trivial

def Orderly (pre : List ConnectTurn) (s : ConnectState) (t : ConnectTurn) : Prop := t.event.Orderly pre s

instance (pre : List ConnectTurn) (s : ConnectState) (t : ConnectTurn) : Decidable (Orderly pre s t) :=
  inferInstanceAs (Decidable (t.event.Orderly pre s))

/-- The data of the messages. -/
def messagesOf (turns : List ConnectTurn) : List SocketData :=
  turns.filterMap fun t => match t.event with
    | .socket (.message data) => some data
    | _ => none

/-- The bytes of a first message. -/
def SocketData.handshakeBytes? : SocketData → Option Bytes
  | bytes b => some b
  | text t => some (utf8 t)
  | blob b => some b
  | other _ => none

/-! ### The course of an attempt -/

section Course

variable {p} {o : ConnectEncryptedTunnelOptions} {handshake : ClientHandshake} {turns : List ConnectTurn}
  {s : ConnectState} {t : ConnectTurn}

/-- Nothing has come on the socket. -/
structure Untouched (turns : List ConnectTurn) (s : ConnectState) : Prop where
  messages : messagesOf turns = []
  lost : s.lost = []
  received : s.received = []
  listening : s.listening = false

/-- The first message has come; what has come after it is lost. -/
structure Greeted (handshake : ClientHandshake) (turns : List ConnectTurn) (s : ConnectState) (data : SocketData) :
    Prop where
  messages : messagesOf turns = data :: s.lost
  received : s.received = []
  listening : s.listening = false
  sent : s.sent = [encodeHandshakeMessage handshake.message.toJson]
  readyState : s.readyState ≠ .connecting

/-- The first message holds an accept. -/
def HoldsAccept (data : SocketData) (accept : Json) : Prop :=
  ∃ b, data.handshakeBytes? = some b ∧ decodeAccept b = .ok accept

variable (p o handshake) in
/-- What has happened in an attempt that has connected. -/
inductive ConnectedCourse (turns : List ConnectTurn) (s : ConnectState) (session : SecureSession) : Prop
  | intro {before after : List ConnectTurn} {d : ConnectTurn} {data : SocketData} {accept : Json} {hello : Bytes}
      (split : turns = before ++ d :: after) (event : d.event = .derived)
      (first : messagesOf before = data :: s.lost) (later : messagesOf after = s.received)
      (accepted : HoldsAccept data accept)
      (derived : deriveClientSessionFromAccept p handshake accept o.serverPublicKeyPem = .ok session)
      (opened : (run (ConnectState.step p o handshake) {} before).readyState = .open)
      (sealed : sealFrame p d.nonce session.sendKey .data 0 (encodeMessage (helloMessage o d.now)) = .ok hello)
      (sent : s.sent = [encodeHandshakeMessage handshake.message.toJson, hello])

variable (p o handshake) in
/-- What is known in each phase. -/
inductive Course (turns : List ConnectTurn) (s : ConnectState) : ConnectPhase → Prop
  | opening (untouched : Untouched turns s) (sent : s.sent = []) (unopened : s.readyState ≠ .open)
      (quiet : ∀ u ∈ turns, u.event ≠ .socket .opened ∧ u.event ≠ .socket .errored) : Course turns s .opening
  | greeting (untouched : Untouched turns s) (sent : s.sent = [encodeHandshakeMessage handshake.message.toJson])
      (opened : s.readyState ≠ .connecting) : Course turns s .greeting
  | reading {b : Bytes} (greeted : Greeted handshake turns s (.blob b)) : Course turns s (.reading b)
  | accepted {data : SocketData} {accept : Json} (greeted : Greeted handshake turns s data)
      (accepted : HoldsAccept data accept) : Course turns s (.accepted accept)
  | reopening {session : SecureSession} (opened : s.readyState ≠ .connecting) (left : s.readyState ≠ .open) :
      Course turns s (.reopening session)
  | connected {session : SecureSession} {client : TunnelClient}
      (course : ConnectedCourse p o handshake turns s session) (listening : s.listening = true) :
      Course turns s (.connected session client)
  | over {session : SecureSession} (course : ConnectedCourse p o handshake turns s session)
      (closed : s.readyState = .closed) : Course turns s .over
  | failed {e : JsError} : Course turns s (.failed e)

theorem messagesOf_concat (turns : List ConnectTurn) (t : ConnectTurn) :
    messagesOf (turns ++ [t]) = messagesOf turns ++ messagesOf [t] := List.filterMap_append

/-- No message. -/
theorem messagesOf_other (h : messagesOf [t] = []) : messagesOf (turns ++ [t]) = messagesOf turns := by
  rw [messagesOf_concat, h, List.append_nil]

theorem ConnectedCourse.later {s' : ConnectState} {session : SecureSession}
    (h : ConnectedCourse p o handshake turns s session) (hlost : s'.lost = s.lost) (hsent : s'.sent = s.sent)
    (hreceived : s'.received = s.received ++ messagesOf [t]) :
    ConnectedCourse p o handshake (turns ++ [t]) s' session := by
  obtain ⟨split, event, first, later, accepted, derived, opened, sealed, sent⟩ := h
  rename_i before after d data accept hello
  have hsplit : turns ++ [t] = before ++ d :: (after ++ [t]) := by
    rw [split]
    simp
  have hlater : messagesOf (after ++ [t]) = s'.received := by rw [messagesOf_concat, later, hreceived]
  exact ⟨hsplit, event, hlost ▸ first, hlater, accepted, derived, opened, sealed, hsent.trans sent⟩

/-- Nothing happens but that the socket closes or begins to close. -/
theorem Course.wait {phase : ConnectPhase} (h : Course p o handshake turns s phase) (ht : messagesOf [t] = [])
    (hquiet : phase = .opening → t.event ≠ .socket .opened ∧ t.event ≠ .socket .errored) {r : ReadyState}
    (hconnecting : r = .connecting → s.readyState = .connecting) (hopen : r = .open → s.readyState = .open)
    (hclosed : s.readyState = .closed → r = .closed) :
    Course p o handshake (turns ++ [t]) { s with readyState := r } phase := by
  have hmessages : messagesOf (turns ++ [t]) = messagesOf turns := messagesOf_other ht
  rcases h with ⟨untouched, sent, unopened, quiet⟩ | ⟨untouched, sent, opened⟩ | greeted | ⟨greeted, accepted⟩ |
    ⟨opened, left⟩ | ⟨course, listening⟩ | ⟨course, closed⟩ | _
  · refine .opening ⟨hmessages.trans untouched.messages, untouched.lost, untouched.received, untouched.listening⟩
      sent (fun hr => unopened (hopen hr)) ?_
    intro u hu
    rcases List.mem_append.mp hu with hu | hu
    · exact quiet u hu
    · exact List.mem_singleton.mp hu ▸ hquiet rfl
  · exact .greeting ⟨hmessages.trans untouched.messages, untouched.lost, untouched.received, untouched.listening⟩
      sent fun hr => opened (hconnecting hr)
  · exact .reading ⟨hmessages.trans greeted.messages, greeted.received, greeted.listening, greeted.sent,
      fun hr => greeted.readyState (hconnecting hr)⟩
  · exact .accepted ⟨hmessages.trans greeted.messages, greeted.received, greeted.listening, greeted.sent,
      fun hr => greeted.readyState (hconnecting hr)⟩ accepted
  · exact .reopening (fun hr => opened (hconnecting hr)) fun hr => left (hopen hr)
  · exact .connected (course.later rfl rfl (by rw [ht, List.append_nil])) listening
  · exact .over (course.later rfl rfl (by rw [ht, List.append_nil])) (hclosed closed)
  · exact .failed

theorem phase_decided (s : ConnectState) (payload : Except JsError Bytes) :
    (∃ e, s.decided payload = { s with phase := .failed e }) ∨
      ∃ b accept, payload = .ok b ∧ decodeAccept b = .ok accept ∧
        s.decided payload = { s with phase := .accepted accept } := by
  unfold ConnectState.decided
  rcases payload with e | b
  · exact .inl ⟨e, rfl⟩
  · rcases haccept : decodeAccept b with e | accept
    · exact .inl ⟨e, by simp [bind, Except.bind, haccept]⟩
    · exact .inr ⟨b, accept, rfl, haccept, by simp [bind, Except.bind, haccept]⟩

/-- The first message has been read. -/
theorem course_decided {data : SocketData} {payload : Except JsError Bytes} (hg : Greeted handshake turns s data)
    (hpayload : ∀ b, payload = .ok b → data.handshakeBytes? = some b) :
    Course p o handshake turns (s.decided payload) (s.decided payload).phase := by
  rcases phase_decided s payload with ⟨e, hs⟩ | ⟨b, accept, hb, haccept, hs⟩
  · rw [hs]
    exact .failed
  · rw [hs]
    exact .accepted ⟨hg.messages, hg.received, hg.listening, hg.sent, hg.readyState⟩ ⟨b, hpayload b hb, haccept⟩

/-- Only the first message is for `exchangeHandshake`. -/
theorem onMessage_later (data : SocketData) (h : s.phase ≠ .greeting) : s.onMessage data =
    if s.listening then { s with received := s.received ++ [data] } else { s with lost := s.lost ++ [data] } := by
  unfold ConnectState.onMessage
  rcases hphase : s.phase <;> simp_all

/-- The first message of the socket. -/
theorem course_first {data : SocketData} (hphase : s.phase = .greeting)
    (hg : Greeted handshake (turns ++ [t]) s data) :
    Course p o handshake (turns ++ [t]) (s.onMessage data) (s.onMessage data).phase := by
  rcases data with b | text | b | type
  · have hs : s.onMessage (.bytes b) = s.decided (.ok b) := by simp [ConnectState.onMessage, hphase]
    exact hs ▸ course_decided hg fun b' hb => congrArg some (Except.ok.inj hb)
  · have hs : s.onMessage (.text text) = s.decided (.ok (utf8 text)) := by simp [ConnectState.onMessage, hphase]
    exact hs ▸ course_decided hg fun b' hb => congrArg some (Except.ok.inj hb)
  · have hs : s.onMessage (.blob b) = { s with phase := .reading b } := by simp [ConnectState.onMessage, hphase]
    rw [hs]
    exact .reading ⟨hg.messages, hg.received, hg.listening, hg.sent, hg.readyState⟩
  · have hs : s.onMessage (.other type) =
        s.decided (.error (.thrown (js "Unsupported WebSocket message payload: " ++ type))) := by
      simp [ConnectState.onMessage, hphase]
    exact hs ▸ course_decided hg fun b' hb => by cases hb

theorem course_message {data : SocketData} (h : Course p o handshake turns s s.phase)
    (ht : t.event = .socket (.message data)) (hopen : s.readyState = .open) :
    Course p o handshake (turns ++ [t]) (s.onMessage data) (s.onMessage data).phase := by
  have hmessages : messagesOf (turns ++ [t]) = messagesOf turns ++ [data] := by
    rw [messagesOf_concat]
    simp [messagesOf, ht]
  have hlater := onMessage_later (s := s) data
  generalize hphase : s.phase = phase at h
  rw [hphase] at hlater
  rcases h with ⟨untouched, sent, unopened, quiet⟩ | ⟨untouched, sent, opened⟩ | greeted | ⟨greeted, accepted⟩ |
    ⟨opened, left⟩ | ⟨course, listening⟩ | ⟨course, closed⟩ | _
  · exact absurd hopen unopened
  · have hg : Greeted handshake (turns ++ [t]) s data := by
      refine ⟨?_, untouched.received, untouched.listening, sent, opened⟩
      rw [hmessages, untouched.messages, untouched.lost]
      rfl
    exact course_first hphase hg
  · rw [hlater (by simp), if_neg (by simp [greeted.listening])]
    refine .reading ⟨?_, greeted.received, greeted.listening, greeted.sent, greeted.readyState⟩
    rw [hmessages, greeted.messages]
    rfl
  · rw [hlater (by simp), if_neg (by simp [greeted.listening])]
    refine .accepted ⟨?_, greeted.received, greeted.listening, greeted.sent, greeted.readyState⟩ accepted
    rw [hmessages, greeted.messages]
    rfl
  · exact absurd hopen left
  · rw [hlater (by simp), if_pos listening]
    exact .connected (course.later rfl rfl (by simp [messagesOf, ht])) listening
  · exact absurd (hopen.symm.trans closed) (by simp)
  · rw [hlater (by simp)]
    split_ifs
    · exact .failed
    · exact .failed

/-- `connect` from the open socket. -/
theorem course_start {data : SocketData} {accept : Json} {session : SecureSession}
    (hs : run (ConnectState.step p o handshake) {} turns = s) (hg : Greeted handshake turns s data)
    (haccept : HoldsAccept data accept) (ht : t.event = .derived) (hopen : s.readyState = .open)
    (hsession : deriveClientSessionFromAccept p handshake accept o.serverPublicKeyPem = .ok session) :
    Course p o handshake (turns ++ [t]) (s.startClient p o session t) (s.startClient p o session t).phase := by
  unfold ConnectState.startClient
  rcases hsend : ({} : TunnelClient).send p session (helloInput o t) with ⟨hello, client⟩
  rcases hello with e | hello
  · exact .failed
  · have hsealed : sealFrame p t.nonce session.sendKey .data 0 (encodeMessage (helloMessage o t.now)) =
        .ok hello := by
      unfold TunnelClient.send at hsend
      exact (Prod.mk.inj hsend).1
    refine .connected ⟨rfl, ht, hg.messages, hg.received.symm, haccept, hsession, hs ▸ hopen, hsealed, ?_⟩ rfl
    show s.sent ++ [hello] = _
    rw [hg.sent]
    rfl

theorem onDerived_idle (h : ¬ ∃ accept, s.phase = .accepted accept) : s.onDerived p o handshake t = s := by
  unfold ConnectState.onDerived
  rcases hphase : s.phase <;> first | rfl | exact absurd ⟨_, hphase⟩ h

theorem course_derived (hs : run (ConnectState.step p o handshake) {} turns = s)
    (h : Course p o handshake turns s s.phase) (ht : t.event = .derived) :
    Course p o handshake (turns ++ [t]) (s.onDerived p o handshake t) (s.onDerived p o handshake t).phase := by
  have hnone : messagesOf [t] = [] := by simp [messagesOf, ht]
  by_cases haccepted : ∃ accept, s.phase = .accepted accept
  · obtain ⟨accept, hphase⟩ := haccepted
    rw [hphase] at h
    rcases h with _ | _ | _ | ⟨greeted, accepted⟩
    unfold ConnectState.onDerived
    rw [hphase]
    dsimp only
    rcases hsession : deriveClientSessionFromAccept p handshake accept o.serverPublicKeyPem with e | session
    · exact .failed
    · by_cases hopen : s.readyState = .open
      · simp only [hopen, if_true]
        exact course_start hs greeted accepted ht hopen hsession
      · simp only [hopen, if_false]
        exact .reopening greeted.readyState hopen
  · rw [onDerived_idle haccepted]
    exact h.wait hnone (fun _ => by simp [ht]) id id id

theorem course_opened (h : Course p o handshake turns s s.phase) (ht : t.event = .socket .opened)
    (hconnecting : s.readyState = .connecting) :
    Course p o handshake (turns ++ [t]) (s.onOpen p o handshake t) (s.onOpen p o handshake t).phase := by
  have hnone : messagesOf [t] = [] := by simp [messagesOf, ht]
  have hmessages : messagesOf (turns ++ [t]) = messagesOf turns := messagesOf_other hnone
  unfold ConnectState.onOpen
  dsimp only
  generalize hphase : s.phase = phase at h
  rcases h with ⟨untouched, sent, -, -⟩ | ⟨-, -, opened⟩ | greeted | ⟨greeted, -⟩ | ⟨opened, -⟩ |
    ⟨course, listening⟩ | ⟨-, closed⟩ | _
  · refine .greeting ⟨hmessages.trans untouched.messages, untouched.lost, untouched.received, untouched.listening⟩ ?_
      (by simp)
    show s.sent ++ [_] = _
    rw [sent]
    rfl
  · exact absurd hconnecting opened
  · exact absurd hconnecting greeted.readyState
  · exact absurd hconnecting greeted.readyState
  · exact absurd hconnecting opened
  · exact .connected (course.later rfl rfl (by rw [hnone, List.append_nil])) listening
  · exact absurd (hconnecting.symm.trans closed) (by simp)
  · exact .failed

/-- An `error` ends an attempt that listens to it. -/
theorem onError_cases : (∃ e, s.onError o = { s with phase := .failed e }) ∨
    s.onError o = s ∧ s.phase ≠ .opening ∧ ∀ session, s.phase ≠ .reopening session := by
  unfold ConnectState.onError
  rcases hphase : s.phase with _ | _ | b | accept | session | ⟨session, client⟩ | _ | e
  · exact .inl ⟨_, rfl⟩
  · exact .inl ⟨_, rfl⟩
  · exact .inl ⟨_, rfl⟩
  · exact .inr ⟨rfl, by simp, by simp⟩
  · exact .inl ⟨_, rfl⟩
  · exact .inr ⟨rfl, by simp, by simp⟩
  · exact .inr ⟨rfl, by simp, by simp⟩
  · exact .inr ⟨rfl, by simp, by simp⟩

theorem course_errored (h : Course p o handshake turns s s.phase) (ht : t.event = .socket .errored) :
    Course p o handshake (turns ++ [t]) (s.onError o) (s.onError o).phase := by
  rcases onError_cases (o := o) (s := s) with ⟨e, hs⟩ | ⟨hs, hphase, -⟩
  · rw [hs]
    exact .failed
  · rw [hs]
    exact h.wait (by simp [messagesOf, ht]) (fun hp => absurd hp hphase) id id id

theorem course_closed (h : Course p o handshake turns s s.phase) (ht : t.event = .socket .closed)
    (hbefore : ∃ u ∈ turns, u.event = .socket .opened ∨ u.event = .socket .errored) :
    Course p o handshake (turns ++ [t]) s.onClose s.onClose.phase := by
  have hnone : messagesOf [t] = [] := by simp [messagesOf, ht]
  have hwait := h.wait (t := t) (r := .closed) hnone
  unfold ConnectState.onClose
  dsimp only
  generalize hphase : s.phase = phase at h hwait
  rcases h with ⟨-, -, -, quiet⟩ | _ | _ | _ | _ | ⟨course, -⟩ | _ | _
  · obtain ⟨u, hu, hevent⟩ := hbefore
    rcases hevent with hevent | hevent
    · exact absurd hevent (quiet u hu).1
    · exact absurd hevent (quiet u hu).2
  · exact .failed
  · exact .failed
  · exact hwait (fun hp => by cases hp) (by simp) (by simp) (by simp)
  · exact hwait (fun hp => by cases hp) (by simp) (by simp) (by simp)
  · exact .over (course.later rfl rfl (by rw [hnone, List.append_nil])) rfl
  · exact hwait (fun hp => by cases hp) (by simp) (by simp) (by simp)
  · exact .failed

theorem course_blobRead {read : Except JsError Unit} (h : Course p o handshake turns s s.phase)
    (ht : t.event = .blobRead read) :
    Course p o handshake (turns ++ [t]) (s.onBlob read) (s.onBlob read).phase := by
  have hnone : messagesOf [t] = [] := by simp [messagesOf, ht]
  by_cases hreading : ∃ b, s.phase = .reading b
  · obtain ⟨b, hphase⟩ := hreading
    rw [hphase] at h
    rcases h with _ | _ | greeted
    have hs : s.onBlob read = s.decided (read.map fun _ => b) := by simp [ConnectState.onBlob, hphase]
    rw [hs]
    have hg : Greeted handshake (turns ++ [t]) s (.blob b) := ⟨(messagesOf_other hnone).trans greeted.messages,
      greeted.received, greeted.listening, greeted.sent, greeted.readyState⟩
    refine course_decided hg ?_
    intro b' hb
    rcases read with e | _
    · cases hb
    · exact congrArg some (Except.ok.inj hb)
  · have hidle : s.onBlob read = s := by
      unfold ConnectState.onBlob
      rcases hphase : s.phase <;> first | rfl | exact absurd ⟨_, hphase⟩ hreading
    rw [hidle]
    exact h.wait hnone (fun _ => by simp [ht]) id id id

theorem course_step (hs : run (ConnectState.step p o handshake) {} turns = s)
    (h : Course p o handshake turns s s.phase) (ho : Orderly turns s t) :
    Course p o handshake (turns ++ [t]) (s.step p o handshake t) (s.step p o handshake t).phase := by
  unfold ConnectState.step
  unfold Orderly at ho
  rcases ht : t.event with (_ | data | _ | _ | _) | read | _ <;> rw [ht] at ho <;> dsimp only at ho ⊢
  · exact course_opened h ht ho
  · exact course_message h ht ho
  · exact course_errored h ht
  · have hne : s.readyState ≠ .closed := by
      rcases ho with ho | ho <;> simp [ho]
    exact h.wait (by simp [messagesOf, ht]) (fun _ => by simp [ht]) (by simp) (by simp) fun hr => absurd hr hne
  · exact course_closed h ht ho.2
  · exact course_blobRead h ht
  · exact course_derived hs h ht

/-- The session of a connected tunnel. -/
def ConnectPhase.session? : ConnectPhase → Option SecureSession
  | .connected session _ => some session
  | _ => none

variable (p o handshake) in
/-- A run of an attempt on a socket. -/
def SocketRun (turns : List ConnectTurn) : Prop := Steps (ConnectState.step p o handshake) Orderly {} turns

theorem course_run (h : SocketRun p o handshake turns) :
    Course p o handshake turns (run (ConnectState.step p o handshake) {} turns)
      (run (ConnectState.step p o handshake) {} turns).phase := by
  refine run_induct (J := fun turns s => Course p o handshake turns s s.phase) ?_ ?_ h
  · exact .opening ⟨rfl, rfl, rfl, rfl⟩ rfl (by simp) (by simp)
  · exact fun pre t hc ho => course_step rfl hc ho

/-- **What has happened when the tunnel is connected.** The session comes from the accept in the first message of the
socket; the init and the hello have been sent, and nothing else; the client gets every message that has come after
the derivation, in order, and nobody the messages before. -/
theorem connected_course (h : SocketRun p o handshake turns) :
    (∀ session, (run (ConnectState.step p o handshake) {} turns).phase.session? = some session →
      ConnectedCourse p o handshake turns (run (ConnectState.step p o handshake) {} turns) session) ∧
    ((run (ConnectState.step p o handshake) {} turns).phase = .over →
      ∃ session, ConnectedCourse p o handshake turns (run (ConnectState.step p o handshake) {} turns) session) := by
  have hc := course_run h
  refine ⟨?_, ?_⟩
  · intro session hsession
    rcases hphase : (run (ConnectState.step p o handshake) {} turns).phase with
      _ | _ | b | accept | session' | ⟨session', client⟩ | _ | e <;> rw [hphase] at hc hsession <;> cases hsession
    rcases hc with _ | _ | _ | _ | _ | ⟨course, -⟩
    exact course
  · intro hphase
    rw [hphase] at hc
    rcases hc with _ | _ | _ | _ | _ | _ | ⟨course, -⟩
    exact ⟨_, course⟩

end Course

/-! ### Attempts that wait for ever -/

/-- `connectEncryptedTunnel` has not ended. -/
def ConnectPhase.isWaiting : ConnectPhase → Bool
  | .connected _ _ => false
  | .over => false
  | .failed _ => false
  | _ => true

/-- `deriveClientSessionFromAccept` has not ended. -/
def ConnectPhase.isDeriving : ConnectPhase → Bool
  | .accepted _ => true
  | _ => false

section Stuck

variable {p} {o : ConnectEncryptedTunnelOptions} {handshake : ClientHandshake} {turns : List ConnectTurn}
  {s : ConnectState} {t : ConnectTurn} {session : SecureSession}

variable (p o handshake) in
/-- The socket was not open any more when the session was derived, and no `error` has come since. -/
inductive Stuck (turns : List ConnectTurn) (session : SecureSession) : Prop
  | intro {before after : List ConnectTurn} {d : ConnectTurn} {accept : Json} (split : turns = before ++ d :: after)
      (event : d.event = .derived)
      (accepted : (run (ConnectState.step p o handshake) {} before).phase = .accepted accept)
      (derived : deriveClientSessionFromAccept p handshake accept o.serverPublicKeyPem = .ok session)
      (left : (run (ConnectState.step p o handshake) {} before).readyState ≠ .open)
      (quiet : ∀ u ∈ after, u.event ≠ .socket .errored)

theorem phase_startClient : (s.startClient p o session t).phase.isWaiting = false := by
  unfold ConnectState.startClient
  rcases ({} : TunnelClient).send p session (helloInput o t) with ⟨hello, client⟩
  rcases hello with e | hello <;> rfl

theorem startClient_ne {s₁ : SecureSession} : (s.startClient p o session t).phase ≠ .reopening s₁ := by
  intro h
  have hwaiting : (s.startClient p o session t).phase.isWaiting = false := phase_startClient
  rw [h] at hwaiting
  cases hwaiting

theorem decided_ne {payload : Except JsError Bytes} : (s.decided payload).phase ≠ .reopening session := by
  rcases phase_decided s payload with ⟨e, hs⟩ | ⟨b, accept, -, -, hs⟩ <;> rw [hs] <;> simp

theorem onMessage_ne {data : SocketData} (h : (s.onMessage data).phase = .reopening session) :
    s.phase = .reopening session := by
  by_cases hphase : s.phase = .greeting
  · unfold ConnectState.onMessage at h
    rw [hphase] at h
    rcases data with b | text | b | type
    · exact absurd h decided_ne
    · exact absurd h decided_ne
    · cases h
    · exact absurd h decided_ne
  · rw [onMessage_later data hphase] at h
    split_ifs at h <;> exact h

theorem onDerived_left {accept : Json} (hphase : s.phase = .accepted accept)
    (hsession : deriveClientSessionFromAccept p handshake accept o.serverPublicKeyPem = .ok session)
    (hleft : s.readyState ≠ .open) : s.onDerived p o handshake t = { s with phase := .reopening session } := by
  unfold ConnectState.onDerived
  simp only [hphase, hsession, hleft, if_false]

/-- How an attempt comes to wait for an open socket again. -/
theorem reopening_of_step (h : (s.step p o handshake t).phase = .reopening session) :
    (s.phase = .reopening session ∧ t.event ≠ .socket .errored) ∨
      t.event = .derived ∧ s.readyState ≠ .open ∧ ∃ accept, s.phase = .accepted accept ∧
        deriveClientSessionFromAccept p handshake accept o.serverPublicKeyPem = .ok session := by
  unfold ConnectState.step at h
  rcases ht : t.event with (_ | data | _ | _ | _) | read | _ <;> rw [ht] at h <;> dsimp only at h
  · unfold ConnectState.onOpen at h
    rcases hphase : s.phase <;> simp only [hphase] at h <;>
      first | cases h | exact absurd h startClient_ne
  · exact .inl ⟨onMessage_ne h, by simp⟩
  · rcases onError_cases (o := o) (s := s) with ⟨e, hs⟩ | ⟨hs, -, hphase⟩
    · rw [hs] at h
      cases h
    · rw [hs] at h
      exact absurd h (hphase session)
  · exact .inl ⟨h, by simp⟩
  · unfold ConnectState.onClose at h
    rcases hphase : s.phase <;> simp only [hphase] at h <;> first | exact .inl ⟨h, by simp⟩ | cases h
  · unfold ConnectState.onBlob at h
    rcases hphase : s.phase <;> simp only [hphase] at h <;>
      first | exact absurd h decided_ne | exact .inl ⟨h, by simp⟩
  · by_cases haccepted : ∃ accept, s.phase = .accepted accept
    · obtain ⟨accept, hphase⟩ := haccepted
      unfold ConnectState.onDerived at h
      rw [hphase] at h
      dsimp only at h
      rcases hsession : deriveClientSessionFromAccept p handshake accept o.serverPublicKeyPem with e | s₁
      · rw [hsession] at h
        cases h
      · rw [hsession] at h
        dsimp only at h
        split_ifs at h with hopen
        · exact absurd h startClient_ne
        · cases h
          exact .inr ⟨rfl, hopen, accept, hphase, hsession⟩
    · rw [onDerived_idle haccepted] at h
      exact .inl ⟨h, by simp⟩

/-- An attempt that waits for an open socket goes on waiting, if no `error` comes. -/
theorem step_of_reopening (hphase : s.phase = .reopening session) (hopened : s.readyState ≠ .connecting)
    (hleft : s.readyState ≠ .open) (ho : Orderly turns s t) (ht : t.event ≠ .socket .errored) :
    (s.step p o handshake t).phase = .reopening session := by
  unfold ConnectState.step
  unfold Orderly at ho
  rcases hevent : t.event with (_ | data | _ | _ | _) | read | _ <;> rw [hevent] at ho <;> dsimp only at ho ⊢
  · exact absurd ho hopened
  · exact absurd ho hleft
  · exact absurd hevent ht
  · exact hphase
  · simp [ConnectState.onClose, hphase]
  · simp [ConnectState.onBlob, hphase]
  · rw [onDerived_idle (by simp [hphase])]
    exact hphase

theorem stuck_of_reopening : (run (ConnectState.step p o handshake) {} turns).phase = .reopening session →
    Stuck p o handshake turns session := by
  induction turns using List.reverseRecOn with
  | nil =>
    intro h
    cases h
  | append_singleton turns t ih =>
    intro h
    rw [run_concat] at h
    rcases reopening_of_step h with ⟨hphase, ht⟩ | ⟨ht, hleft, accept, hphase, hsession⟩
    · obtain ⟨split, event, accepted, derived, left, quiet⟩ := ih hphase
      rename_i before after d accept
      have hsplit : turns ++ [t] = before ++ d :: (after ++ [t]) := by
        rw [split]
        simp
      refine ⟨hsplit, event, accepted, derived, left, ?_⟩
      intro u hu
      rcases List.mem_append.mp hu with hu | hu
      · exact quiet u hu
      · exact List.mem_singleton.mp hu ▸ ht
    · exact ⟨rfl, ht, hphase, hsession, hleft, by simp⟩

theorem reopening_of_stuck (h : SocketRun p o handshake turns) (hs : Stuck p o handshake turns session) :
    (run (ConnectState.step p o handshake) {} turns).phase = .reopening session := by
  obtain ⟨split, event, accepted, derived, left, quiet⟩ := hs
  rename_i before after d accept
  subst split
  induction after using List.reverseRecOn with
  | nil =>
    rw [run_concat]
    have hstep : ∀ s : ConnectState, s.step p o handshake d = s.onDerived p o handshake d := by
      intro s
      unfold ConnectState.step
      rw [event]
    rw [hstep, onDerived_left accepted derived left]
  | append_singleton after u ih =>
    have hsplit : before ++ d :: (after ++ [u]) = before ++ d :: after ++ [u] := by simp
    rw [hsplit] at h ⊢
    have hphase := ih (fun u hu => quiet u (List.mem_append_left _ hu)) h.init
    have hc := course_run h.init
    rw [hphase] at hc
    rcases hc with _ | _ | _ | _ | ⟨hopened, hleft⟩
    rw [run_concat]
    exact step_of_reopening hphase hopened hleft h.last (quiet u (by simp))

/-- An attempt that has ended stays as it is, but that a tunnel closes. -/
theorem step_of_ended (handshake : ClientHandshake) (h : s.phase.isWaiting = false) :
    (s.step p o handshake t).phase = s.phase ∨
      s.phase.session?.isSome = true ∧ (s.step p o handshake t).phase = .over := by
  unfold ConnectState.step
  rcases t.event with (_ | data | _ | _ | _) | read | _ <;> dsimp only
  · unfold ConnectState.onOpen
    rcases hphase : s.phase <;> rw [hphase] at h <;> first | exact .inl rfl | cases h
  · have hgreeting : s.phase ≠ .greeting := by
      intro hphase
      rw [hphase] at h
      cases h
    rw [onMessage_later data hgreeting]
    split_ifs
    · exact .inl rfl
    · exact .inl rfl
  · unfold ConnectState.onError
    rcases hphase : s.phase <;> rw [hphase] at h <;> first | exact .inl hphase | cases h
  · exact .inl rfl
  · unfold ConnectState.onClose
    rcases hphase : s.phase <;> rw [hphase] at h <;> first | exact .inl rfl | exact .inr ⟨rfl, rfl⟩ | cases h
  · unfold ConnectState.onBlob
    rcases hphase : s.phase <;> rw [hphase] at h <;> first | exact .inl hphase | cases h
  · have hidle : ¬ ∃ accept, s.phase = .accepted accept := by
      rintro ⟨accept, hphase⟩
      rw [hphase] at h
      cases h
    rw [onDerived_idle hidle]
    exact .inl rfl

theorem startClient_ne_over : (s.startClient p o session t).phase ≠ .over := by
  unfold ConnectState.startClient
  rcases ({} : TunnelClient).send p session (helloInput o t) with ⟨hello, client⟩
  rcases hello with e | hello <;> simp

theorem decided_ne_over {payload : Except JsError Bytes} : (s.decided payload).phase ≠ .over := by
  rcases phase_decided s payload with ⟨e, hs⟩ | ⟨b, accept, -, -, hs⟩ <;> rw [hs] <;> simp

theorem onMessage_ne_over {data : SocketData} (hover : s.phase ≠ .over) : (s.onMessage data).phase ≠ .over := by
  unfold ConnectState.onMessage
  split
  · exact decided_ne_over
  · exact decided_ne_over
  · simp
  · exact decided_ne_over
  · split_ifs <;> exact hover

theorem onDerived_ne_over (hover : s.phase ≠ .over) : (s.onDerived p o handshake t).phase ≠ .over := by
  unfold ConnectState.onDerived
  split
  · split
    · simp
    · split_ifs
      · exact startClient_ne_over
      · simp
  · exact hover

/-- Only a connected tunnel closes. -/
theorem step_ne_over (h : s.phase.isWaiting = true) : (s.step p o handshake t).phase ≠ .over := by
  have hover : s.phase ≠ .over := by
    intro hphase
    rw [hphase] at h
    cases h
  unfold ConnectState.step
  rcases t.event with (_ | data | _ | _ | _) | read | _ <;> dsimp only
  · unfold ConnectState.onOpen
    dsimp only
    split
    · simp
    · exact startClient_ne_over
    · exact hover
  · exact onMessage_ne_over hover
  · rcases onError_cases (o := o) (s := s) with ⟨e, hs⟩ | ⟨hs, -⟩ <;> rw [hs]
    · simp
    · exact hover
  · exact hover
  · unfold ConnectState.onClose
    rcases hphase : s.phase <;> rw [hphase] at h hover <;>
      first | (intro hn; cases hn; done) | cases h
  · unfold ConnectState.onBlob
    split
    · exact decided_ne_over
    · exact hover
  · exact onDerived_ne_over hover

/-! The state of the socket -/

theorem readyState_startClient : (s.startClient p o session t).readyState = s.readyState := by
  unfold ConnectState.startClient
  rcases ({} : TunnelClient).send p session (helloInput o t) with ⟨hello, client⟩
  rcases hello with e | hello <;> rfl

theorem readyState_decided {payload : Except JsError Bytes} : (s.decided payload).readyState = s.readyState := by
  rcases phase_decided s payload with ⟨e, hs⟩ | ⟨b, accept, -, -, hs⟩ <;> rw [hs]

theorem readyState_onMessage {data : SocketData} : (s.onMessage data).readyState = s.readyState := by
  unfold ConnectState.onMessage
  split
  · exact readyState_decided
  · exact readyState_decided
  · rfl
  · exact readyState_decided
  · split_ifs <;> rfl

theorem readyState_onError : (s.onError o).readyState = s.readyState := by
  rcases onError_cases (o := o) (s := s) with ⟨e, hs⟩ | ⟨hs, -⟩ <;> rw [hs]

theorem readyState_onOpen : (s.onOpen p o handshake t).readyState = .open := by
  unfold ConnectState.onOpen
  dsimp only
  split
  · rfl
  · exact readyState_startClient
  · rfl

theorem readyState_onBlob {read : Except JsError Unit} : (s.onBlob read).readyState = s.readyState := by
  unfold ConnectState.onBlob
  split
  · exact readyState_decided
  · rfl

theorem readyState_onDerived : (s.onDerived p o handshake t).readyState = s.readyState := by
  unfold ConnectState.onDerived
  split
  · split
    · rfl
    · split_ifs
      · exact readyState_startClient
      · rfl
  · rfl

/-- The phases that end with their socket. -/
def ConnectPhase.endsWithSocket : ConnectPhase → Bool
  | .opening => true
  | .greeting => true
  | .reading _ => true
  | .connected _ _ => true
  | _ => false

theorem onClose_ends (h : s.phase ≠ .opening) : s.onClose.phase.endsWithSocket = false := by
  unfold ConnectState.onClose
  rcases hphase : s.phase <;> first | rfl | exact absurd hphase h

theorem onBlob_ends {read : Except JsError Unit} (h : s.phase.endsWithSocket = false) :
    (s.onBlob read).phase.endsWithSocket = false := by
  unfold ConnectState.onBlob
  split
  · rename_i b hreading
    rw [hreading] at h
    cases h
  · exact h

theorem onDerived_ends (hleft : s.readyState ≠ .open) (h : s.phase.endsWithSocket = false) :
    (s.onDerived p o handshake t).phase.endsWithSocket = false := by
  unfold ConnectState.onDerived
  split
  · split
    · rfl
    · rw [if_neg hleft]
      rfl
  · exact h

/-- No phase that ends with its socket is left when the socket has closed. -/
theorem ends_of_closed (h : SocketRun p o handshake turns)
    (hclosed : (run (ConnectState.step p o handshake) {} turns).readyState = .closed) :
    (run (ConnectState.step p o handshake) {} turns).phase.endsWithSocket = false := by
  induction turns using List.reverseRecOn with
  | nil => cases hclosed
  | append_singleton turns t ih =>
    have hc := course_run h.init
    have ho := h.last
    replace ih := ih h.init
    rw [run_concat] at hclosed ⊢
    generalize run (ConnectState.step p o handshake) {} turns = s at *
    unfold ConnectState.step at hclosed ⊢
    unfold Orderly at ho
    rcases ht : t.event with (_ | data | _ | _ | _) | read | _ <;> rw [ht] at ho hclosed <;>
      dsimp only at ho hclosed ⊢
    · exact absurd (readyState_onOpen.symm.trans hclosed) (by simp)
    · exact absurd (ho.symm.trans (readyState_onMessage.symm.trans hclosed)) (by simp)
    · exact absurd (readyState_onError.symm.trans hclosed) ho
    · cases hclosed
    · -- a socket closes only after an `open` or an `error`, and an opening attempt has seen neither
      refine onClose_ends fun hphase => ?_
      rw [hphase] at hc
      rcases hc with ⟨-, -, -, quiet⟩
      obtain ⟨-, u, hu, hevent⟩ := ho
      rcases hevent with hevent | hevent
      · exact (quiet u hu).1 hevent
      · exact (quiet u hu).2 hevent
    · exact onBlob_ends (ih (readyState_onBlob.symm.trans hclosed))
    · have hstate := readyState_onDerived.symm.trans hclosed
      exact onDerived_ends (by simp [hstate]) (ih hstate)

/-- After the `close` of its socket nothing ends an attempt that waits for an open one. -/
theorem step_of_stuck (hphase : s.phase = .reopening session) (hclosed : s.readyState = .closed)
    (ho : Orderly turns s t) : s.step p o handshake t = s := by
  unfold Orderly at ho
  unfold ConnectState.step
  rcases ht : t.event with (_ | data | _ | _ | _) | read | _ <;> rw [ht] at ho
  · exact absurd (hclosed.symm.trans ho) (by simp)
  · exact absurd (hclosed.symm.trans ho) (by simp)
  · exact absurd hclosed ho
  · rcases ho with ho | ho <;> exact absurd (hclosed.symm.trans ho) (by simp)
  · exact absurd hclosed ho.1
  · simp [ConnectState.onBlob, hphase]
  · exact onDerived_idle (by simp [hphase])

/-- **When an attempt waits for ever.** After the `close` of its socket an attempt has ended, unless the session is
still being derived, or the socket was not open any more when it had been. Then nothing that happens on the socket
ends the attempt. -/
theorem connect_stuck (h : SocketRun p o handshake turns)
    (hclosed : (run (ConnectState.step p o handshake) {} turns).readyState = .closed) :
    ((run (ConnectState.step p o handshake) {} turns).phase.isWaiting = true ↔
      (run (ConnectState.step p o handshake) {} turns).phase.isDeriving = true ∨
        ∃ session, Stuck p o handshake turns session) ∧
    ∀ session, Stuck p o handshake turns session → ∀ later, SocketRun p o handshake (turns ++ later) →
      (run (ConnectState.step p o handshake) {} (turns ++ later)) =
        run (ConnectState.step p o handshake) {} turns := by
  refine ⟨?_, ?_⟩
  · have hends := ends_of_closed h hclosed
    constructor
    · intro hwaiting
      rcases hphase : (run (ConnectState.step p o handshake) {} turns).phase with
        _ | _ | b | accept | session | ⟨session, client⟩ | _ | e <;> rw [hphase] at hends hwaiting
      · cases hends
      · cases hends
      · cases hends
      · exact .inl rfl
      · exact .inr ⟨session, stuck_of_reopening hphase⟩
      · cases hwaiting
      · cases hwaiting
      · cases hwaiting
    · rintro (hderiving | ⟨session, hs⟩)
      · generalize (run (ConnectState.step p o handshake) {} turns).phase = phase at hderiving
        rcases phase <;> first | rfl | cases hderiving
      · rw [reopening_of_stuck h hs]
        rfl
  · intro session hs later
    have hphase := reopening_of_stuck h hs
    induction later using List.reverseRecOn with
    | nil =>
      intro _
      rw [List.append_nil]
    | append_singleton later t ih =>
      intro hlater
      rw [← List.append_assoc] at hlater ⊢
      have ho := hlater.last
      rw [run_concat, ih hlater.init]
      rw [ih hlater.init] at ho
      exact step_of_stuck hphase hclosed ho

end Stuck

/-! ### Two runs -/

namespace Sample

def connectOptions : ConnectEncryptedTunnelOptions where
  url := js "wss://gateway.example/node/tunnel"
  mode := .control
  nodeId := some (js "node-1")
  candidateId := none
  releaseVersion := none
  serverPublicKeyPem := some Handshake.Sample.serverPublicPem
  publicKeyPem := publicPem

def helloNow : JsNumber := JsNumber.ofNat 1700000002

def helloNonce : Bytes := beBytes 12 0x303132333435363738393a3b

/-- The sealed hello, with its tag. -/
def helloSealed : Bytes :=
  beBytes 32 0x9b00ff9932d33e96bc663af7dca2bbc00be37506b416ab464eec4b0c8e1bac52 ++
  beBytes 32 0xdcb37eb03296ca62f7126b5bea46d504c8998dbd85a0fbb234ed12a881b14518 ++
  beBytes 32 0x5187d65c7424e3464e7e3d00d38e909a5121cac98980dc8712a66bf4a074effb ++
  beBytes 32 0x9231ca535ad9956ee141c0637a61b34512e46b8441bf7fb95ca81e9547168130 ++
  beBytes 32 0x043cf1c20c807767b5b79f5304ef4d6a210e4e2c0d66f4444a0ce08ba1ce9bd1 ++
  beBytes 32 0xed38a91dbf1e740fd2c08f3006f72389325ec430b0eaad9e913e25bb9a2e7031 ++
  beBytes 32 0xeab239bf734af24d5c139ce3a5b33ce1e9d7798346a84b00ce5958f4fb5ea8ea ++
  beBytes 3 0xb28c51

/-- The platform of the handshake, with the hello sealed. -/
def connectPlatform : Platform where
  __ := Handshake.Sample.platform
  encrypt := ({ sealed := [((Handshake.Sample.clientToServer, helloNonce, aadBytes .data 0 211, helloSealed),
    encodeMessage (helloMessage connectOptions helloNow))] } : Tables).platform.encrypt

def connectTurn (event : ConnectEvent) : ConnectTurn := ⟨event, helloNow, helloNonce⟩

def acceptData : SocketData := .text (stringify Handshake.Sample.accept.toJson)

/-- The server sends a frame right after its accept, and one later. -/
def connectTurns : List ConnectTurn :=
  [.socket .opened, .socket (.message acceptData), .socket (.message (.bytes [1])), .derived,
    .socket (.message (.bytes [2]))].map connectTurn

theorem connectTurns_run : SocketRun connectPlatform connectOptions Handshake.Sample.client connectTurns ∧
    (run (ConnectState.step connectPlatform connectOptions Handshake.Sample.client) {} connectTurns).phase.session? =
      some Handshake.Sample.clientSession ∧
    (run (ConnectState.step connectPlatform connectOptions Handshake.Sample.client) {} connectTurns).lost =
      [.bytes [1]] ∧
    (run (ConnectState.step connectPlatform connectOptions Handshake.Sample.client) {} connectTurns).received =
      [.bytes [2]] := by
  unfold SocketRun
  decide +kernel

theorem early_frame_lost :
    (run (ConnectState.step connectPlatform connectOptions Handshake.Sample.client) {} connectTurns).lost =
      [.bytes [1]] ∧
    (run (ConnectState.step connectPlatform connectOptions Handshake.Sample.client) {} connectTurns).received =
      [.bytes [2]] ∧
    ConnectedCourse connectPlatform connectOptions Handshake.Sample.client connectTurns
      (run (ConnectState.step connectPlatform connectOptions Handshake.Sample.client) {} connectTurns)
      Handshake.Sample.clientSession := by
  obtain ⟨hrun, hsession, hlost, hreceived⟩ := connectTurns_run
  exact ⟨hlost, hreceived, (connected_course hrun).1 _ hsession⟩

/-- The server leaves while the session is derived. -/
def stuckTurns : List ConnectTurn :=
  [.socket .opened, .socket (.message acceptData), .socket .closing, .derived, .socket .closed].map connectTurn

theorem stuckTurns_run : SocketRun connectPlatform connectOptions Handshake.Sample.client stuckTurns ∧
    (run (ConnectState.step connectPlatform connectOptions Handshake.Sample.client) {} stuckTurns).readyState =
      .closed ∧
    (run (ConnectState.step connectPlatform connectOptions Handshake.Sample.client) {} stuckTurns).phase.isWaiting =
      true ∧
    (run (ConnectState.step connectPlatform connectOptions Handshake.Sample.client) {} stuckTurns).phase.isDeriving =
      false := by
  unfold SocketRun
  decide +kernel

theorem waits_for_ever :
    (run (ConnectState.step connectPlatform connectOptions Handshake.Sample.client) {} stuckTurns).phase.isWaiting =
      true ∧
    ∀ later, SocketRun connectPlatform connectOptions Handshake.Sample.client (stuckTurns ++ later) →
      run (ConnectState.step connectPlatform connectOptions Handshake.Sample.client) {} (stuckTurns ++ later) =
        run (ConnectState.step connectPlatform connectOptions Handshake.Sample.client) {} stuckTurns := by
  obtain ⟨hrun, hclosed, hwaiting, hderived⟩ := stuckTurns_run
  obtain ⟨hiff, hever⟩ := connect_stuck hrun hclosed
  rcases hiff.mp hwaiting with hderiving | ⟨session, hstuck⟩
  · exact absurd (hderived.symm.trans hderiving) (by simp)
  · exact ⟨hwaiting, hever session hstuck⟩

end Sample

end ConsensusNode.Tunnel
