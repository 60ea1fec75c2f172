import ConsensusNode.Crypto.SecureChannel
import ConsensusNode.Js.RoundTrip
import ConsensusNode.Tunnel.ResponderAuth

/-! # The handshake of the encrypted tunnel

`tunnel/handshake.ts`: a node sends an init that it signs with its identity key, the server answers with its
ephemeral key, its nonce and the id of the session, signed if it has a key. The hash of the signed part of
the init goes into the keys of the session. Ephemeral private keys, nonces and the clock are arguments;
what arrives is any JSON value. `signUtf8` and `verifyUtf8` are those of `crypto/identity.ts`. -/

namespace ConsensusNode.Tunnel.Handshake

open Js Crypto

variable (p : Platform)

def HANDSHAKE_PROTOCOL : JsString := js "consensus-node-tunnel"

def HANDSHAKE_VERSION : ℕ := 1

/-- The values of `HANDSHAKE_TYPE`. -/
def INIT : JsString := js "handshake_init"

def ACCEPT : JsString := js "handshake_accept"

def REJECT : JsString := js "handshake_reject"

inductive TunnelMode where
  | eval
  | control
deriving DecidableEq

def TunnelMode.text : TunnelMode → JsString
  | eval => js "eval"
  | control => js "control"

/-! ### Signatures in base64 -/

/-- `signUtf8`; `none` if the key text holds no key. -/
def signUtf8 (privateKeyPem payload : JsString) : Option JsString :=
  (p.sign privateKeyPem (utf8 payload)).map base64

def verifyUtf8 (publicKeyPem payload signatureBase64 : JsString) : Except JsError Bool :=
  match p.publicKeyOfPem publicKeyPem with
  | none => .error .native
  | some key => .ok (p.verify key (utf8 payload) (decodeBase64 signatureBase64))

/-- The text that is signed and hashed; `withoutSignature` is the same function as in `responder-auth.ts`. -/
def handshakeSigningPayload (fs : List (JsString × Json)) : JsString := canonicalJson (.obj (withoutSignature fs))

/-! ### Messages -/

structure HandshakeInitMessage where
  mode : TunnelMode
  timestamp : JsNumber
  client_public_key : JsString
  client_nonce : JsString
  node_public_key_pem : JsString
  node_id : Option JsString
  candidate_id : Option JsString
  release_version : Option JsString
  signature : JsString
deriving DecidableEq

/-- The message without its signature. -/
def initFields (m : HandshakeInitMessage) : List (JsString × Json) :=
  definedFields [(js "type", some (.str INIT)), (js "protocol", some (.str HANDSHAKE_PROTOCOL)),
    (js "version", some (.num (JsNumber.ofNat HANDSHAKE_VERSION))), (js "mode", some (.str m.mode.text)),
    (js "timestamp", some (.num m.timestamp)), (js "client_public_key", some (.str m.client_public_key)),
    (js "client_nonce", some (.str m.client_nonce)),
    (js "node_public_key_pem", some (.str m.node_public_key_pem)), (js "node_id", m.node_id.map .str),
    (js "candidate_id", m.candidate_id.map .str), (js "release_version", m.release_version.map .str)]

def HandshakeInitMessage.toJson (m : HandshakeInitMessage) : Json :=
  .obj (initFields m ++ [(js "signature", .str m.signature)])

structure HandshakeAcceptMessage where
  timestamp : JsNumber
  server_public_key : JsString
  server_nonce : JsString
  session_id : JsString
  signature : Option JsString
deriving DecidableEq

def acceptFields (m : HandshakeAcceptMessage) : List (JsString × Json) :=
  [(js "type", .str ACCEPT), (js "protocol", .str HANDSHAKE_PROTOCOL),
    (js "version", .num (JsNumber.ofNat HANDSHAKE_VERSION)), (js "timestamp", .num m.timestamp),
    (js "server_public_key", .str m.server_public_key), (js "server_nonce", .str m.server_nonce),
    (js "session_id", .str m.session_id)]

def HandshakeAcceptMessage.toJson (m : HandshakeAcceptMessage) : Json :=
  .obj (acceptFields m ++ definedFields [(js "signature", m.signature.map .str)])

/-! ### Checks of untyped messages -/

def assertString (v : Option Json) (field : JsString) : Except JsError JsString :=
  requireText v (js "Handshake " ++ field ++ js " must be a non-empty string")

/-- `decodeBase64`: at least one byte. -/
def decodeBytes (value field : JsString) : Except JsError Bytes :=
  let decoded := decodeBase64 value
  if decoded = [] then .error (.thrown (js "Handshake " ++ field ++ js " is empty")) else .ok decoded

def assertTunnelMode (v : Option Json) : Except JsError Unit :=
  if v = some (.str TunnelMode.eval.text) ∨ v = some (.str TunnelMode.control.text) then .ok ()
  else do
    let text ← textInMessage v
    .error (.thrown (js "Unsupported tunnel mode: " ++ text))

/-- The fields of a message of the type. -/
def assertHandshakeBase (value : Json) (type : JsString) : Except JsError (List (JsString × Json)) :=
  match fieldsOf value with
  | none => .error (.thrown (js "Handshake message must be an object"))
  | some fs => do
    require (fs.lookup (js "type") = some (.str type)) (js "Expected handshake type " ++ type)
    requireConst (fs.lookup (js "protocol")) (.str HANDSHAKE_PROTOCOL) (js "Unsupported handshake protocol: ")
    requireConst (fs.lookup (js "version")) (.num (JsNumber.ofNat HANDSHAKE_VERSION))
      (js "Unsupported handshake version: ")
    let _ ← requireFinite (fs.lookup (js "timestamp")) (js "Handshake timestamp must be a finite number")
    return fs

/-- What an init that passes has; `fields` are all of them. -/
structure CheckedInit where
  fields : List (JsString × Json)
  client_public_key : JsString
  client_nonce : JsString
  node_public_key_pem : JsString
  signature : JsString

def assertHandshakeInit (value : Json) : Except JsError CheckedInit := do
  let fields ← assertHandshakeBase value INIT
  assertTunnelMode (fields.lookup (js "mode"))
  let client_public_key ← assertString (fields.lookup (js "client_public_key")) (js "client_public_key")
  let client_nonce ← assertString (fields.lookup (js "client_nonce")) (js "client_nonce")
  let node_public_key_pem ← assertString (fields.lookup (js "node_public_key_pem")) (js "node_public_key_pem")
  let signature ← assertString (fields.lookup (js "signature")) (js "signature")
  let _ ← decodeBytes client_public_key (js "client_public_key")
  let _ ← decodeBytes client_nonce (js "client_nonce")
  return { fields, client_public_key, client_nonce, node_public_key_pem, signature }

structure CheckedAccept where
  fields : List (JsString × Json)
  server_public_key : JsString
  server_nonce : JsString
  session_id : JsString
  signature : Option JsString

/-- `signature` may be absent. -/
def assertSignature (v : Option Json) : Except JsError (Option JsString) :=
  match v with
  | none => .ok none
  | some v => (assertString (some v) (js "signature")).map some

def assertHandshakeAccept (value : Json) : Except JsError CheckedAccept := do
  let fields ← assertHandshakeBase value ACCEPT
  let server_public_key ← assertString (fields.lookup (js "server_public_key")) (js "server_public_key")
  let server_nonce ← assertString (fields.lookup (js "server_nonce")) (js "server_nonce")
  let session_id ← assertString (fields.lookup (js "session_id")) (js "session_id")
  let _ ← decodeBytes server_public_key (js "server_public_key")
  let _ ← decodeBytes server_nonce (js "server_nonce")
  let signature ← assertSignature (fields.lookup (js "signature"))
  return { fields, server_public_key, server_nonce, session_id, signature }

def assertHandshakeReject (value : Json) : Except JsError Unit := do
  let fields ← assertHandshakeBase value REJECT
  let _ ← assertString (fields.lookup (js "code")) (js "code")
  let _ ← assertString (fields.lookup (js "message")) (js "message")

def assertHandshakeMessage (value : Json) : Except JsError Unit :=
  match fieldsOf value with
  | none => .error (.thrown (js "Handshake message must be an object"))
  | some fs =>
    let type := fs.lookup (js "type")
    if type = some (.str INIT) then (assertHandshakeInit value).map fun _ => ()
    else if type = some (.str ACCEPT) then (assertHandshakeAccept value).map fun _ => ()
    else if type = some (.str REJECT) then assertHandshakeReject value
    else do
      let text ← textInMessage type
      .error (.thrown (js "Unknown handshake message type: " ++ text))

/-! ### The codec -/

def encodeHandshakeMessage (message : Json) : Bytes := utf8 (stringify message)

def decodeHandshakeMessage (payload : Bytes) : Except JsError Json :=
  match parse (decodeUtf8 payload) with
  | none => .error .native
  | some parsed => do
    assertHandshakeMessage parsed
    return parsed

/-! ### The client -/

structure ClientHandshakeInput where
  mode : TunnelMode
  /-- The two texts of the identity. -/
  privateKeyPem : JsString
  publicKeyPem : JsString
  nodeId : Option JsString
  candidateId : Option JsString
  releaseVersion : Option JsString

structure ClientHandshake where
  privateKey : Bytes
  clientNonce : Bytes
  message : HandshakeInitMessage
deriving DecidableEq

/-- The message before it is signed. -/
def unsignedInit (input : ClientHandshakeInput) (privateKey clientNonce : Bytes) (clock : JsNumber) :
    HandshakeInitMessage where
  mode := input.mode
  timestamp := clock
  client_public_key := base64 (p.ecdhPublic privateKey)
  client_nonce := base64 clientNonce
  node_public_key_pem := input.publicKeyPem
  node_id := input.nodeId
  candidate_id := input.candidateId
  release_version := input.releaseVersion
  signature := []

def createClientHandshake (input : ClientHandshakeInput) (privateKey clientNonce : Bytes) (clock : JsNumber) :
    Except JsError ClientHandshake :=
  let unsigned := unsignedInit p input privateKey clientNonce clock
  match signUtf8 p input.privateKeyPem (handshakeSigningPayload (initFields unsigned)) with
  | none => .error .native
  | some signature => .ok { privateKey, clientNonce, message := { unsigned with signature } }

def verifyClientHandshake (message : Json) : Except JsError Bool := do
  let init ← assertHandshakeInit message
  verifyUtf8 p init.node_public_key_pem (handshakeSigningPayload init.fields) init.signature

def handshakeTranscriptHash (init : Json) : Except JsError Bytes := do
  let checked ← assertHandshakeInit init
  return p.sha256 (utf8 (handshakeSigningPayload checked.fields))

/-! ### The server -/

/-- A call of `acceptClientHandshake`, with the server's ephemeral key and nonce. -/
structure AcceptCall where
  init : Json
  privateKey : Bytes
  serverNonce : Bytes
  clock : JsNumber

structure ServerHandshake where
  session : SecureSession
  message : HandshakeAcceptMessage
deriving DecidableEq

def acceptClientHandshake (serverSigningKeyPem : Option JsString) (x : AcceptCall) :
    Except JsError ServerHandshake := do
  let verified ← verifyClientHandshake p x.init
  require verified (js "Client handshake signature verification failed")
  let init ← assertHandshakeInit x.init
  let peer ← decodeBytes init.client_public_key (js "client_public_key")
  let clientNonce ← decodeBytes init.client_nonce (js "client_nonce")
  let transcript ← handshakeTranscriptHash p x.init
  let session ← deriveSecureSession p .server x.privateKey peer clientNonce x.serverNonce transcript
  let unsigned : HandshakeAcceptMessage := {
    timestamp := x.clock
    server_public_key := base64 (p.ecdhPublic x.privateKey)
    server_nonce := base64 x.serverNonce
    session_id := session.sessionId
    signature := none }
  match serverSigningKeyPem with
  | some (c :: pem) =>
    match signUtf8 p (c :: pem) (handshakeSigningPayload (acceptFields unsigned)) with
    | none => .error .native
    | some signature => return { session, message := { unsigned with signature := some signature } }
  | _ => return { session, message := unsigned }

/-! ### The client again -/

/-- The check of the signature, if a key is pinned. -/
def checkPinned (serverPublicKeyPem : Option JsString) (accept : CheckedAccept) : Except JsError Unit :=
  match serverPublicKeyPem with
  | some (c :: pem) =>
    match accept.signature with
    | none => .error (.thrown
        (js "Server handshake signature is required when server public key pinning is configured"))
    | some signature => do
      let verified ← verifyUtf8 p (c :: pem) (handshakeSigningPayload accept.fields) signature
      require verified (js "Server handshake signature verification failed")
  | _ => .ok ()

def deriveClientSessionFromAccept (client : ClientHandshake) (accept : Json)
    (serverPublicKeyPem : Option JsString) : Except JsError SecureSession := do
  let accept ← assertHandshakeAccept accept
  checkPinned p serverPublicKeyPem accept
  let peer ← decodeBytes accept.server_public_key (js "server_public_key")
  let serverNonce ← decodeBytes accept.server_nonce (js "server_nonce")
  let transcript ← handshakeTranscriptHash p client.message.toJson
  let session ← deriveSecureSession p .client client.privateKey peer client.clientNonce serverNonce transcript
  require (session.sessionId = accept.session_id) (js "Handshake session id mismatch")
  return session

end ConsensusNode.Tunnel.Handshake
