import ConsensusNode.Crypto.SecureChannel
import ConsensusNode.Tunnel.ResponderAuth

/-! # The data-plane handshake

`tunnel/data-handshake.ts`: a client sends an ephemeral key and a nonce, the node answers with its own and
with a proof of its identity that is bound to the hash of all four (`channelBinding`). Ephemeral private
keys and nonces are arguments. -/

namespace ConsensusNode.Tunnel

open Js Crypto

variable (p : Platform)

def DATA_HANDSHAKE_PROTOCOL : JsString := js "consensus-data-plane"

def DATA_HANDSHAKE_VERSION : ℕ := 1

def DATA_INIT : JsString := js "data_init"

def DATA_ACCEPT : JsString := js "data_accept"

def HANDSHAKE : JsString := js "data-handshake"

structure DataInitMessage where
  node_id : JsString
  client_public_key : JsString
  client_nonce : JsString
  timestamp : JsNumber
deriving DecidableEq

/-- What the client keeps: the private key, the nonce, and the message it sends. -/
structure ClientDataHandshake where
  privateKey : Bytes
  clientNonce : Bytes
  message : DataInitMessage
deriving DecidableEq

structure DataAcceptMessage where
  node_public_key : JsString
  session_id : JsString
  proof : ResponderProof
deriving DecidableEq

structure NodeDataHandshake where
  message : DataAcceptMessage
  session : SecureSession
deriving DecidableEq

/-- The init as it is sent. -/
def DataInitMessage.toJson (m : DataInitMessage) : Json :=
  .obj [(js "type", .str DATA_INIT), (js "protocol", .str DATA_HANDSHAKE_PROTOCOL),
    (js "version", .num (JsNumber.ofNat DATA_HANDSHAKE_VERSION)), (js "node_id", .str m.node_id),
    (js "client_public_key", .str m.client_public_key), (js "client_nonce", .str m.client_nonce),
    (js "timestamp", .num m.timestamp)]

/-- The accept message as it is sent. -/
def DataAcceptMessage.toJson (m : DataAcceptMessage) : Json :=
  .obj [(js "type", .str DATA_ACCEPT), (js "protocol", .str DATA_HANDSHAKE_PROTOCOL),
    (js "version", .num (JsNumber.ofNat DATA_HANDSHAKE_VERSION)),
    (js "node_public_key", .str m.node_public_key), (js "session_id", .str m.session_id),
    (js "proof", .obj (unsignedFields m.proof ++ [(js "signature", .str m.proof.signature)]))]

def createDataInit (nodeId : JsString) (privateKey clientNonce : Bytes) (now : JsNumber) :
    ClientDataHandshake where
  privateKey := privateKey
  clientNonce := clientNonce
  message := {
    node_id := nodeId
    client_public_key := base64 (p.ecdhPublic privateKey)
    client_nonce := base64 clientNonce
    timestamp := now }

/-- The fields that the transcript covers; the node's nonce is not checked before it is hashed. -/
def bindingFields (nodeId clientPublicKey clientNonce nodePublicKey : JsString) (nodeNonce : Option Json) :
    List (JsString × Json) :=
  [(js "protocol", .str DATA_HANDSHAKE_PROTOCOL),
    (js "version", .num (JsNumber.ofNat DATA_HANDSHAKE_VERSION)), (js "node_id", .str nodeId),
    (js "client_public_key", .str clientPublicKey), (js "client_nonce", .str clientNonce),
    (js "node_public_key", .str nodePublicKey)] ++
  match nodeNonce with
  | some v => [(js "node_nonce", v)]
  | none => []

def channelBinding (nodeId clientPublicKey clientNonce nodePublicKey : JsString)
    (nodeNonce : Option Json) : Bytes :=
  p.sha256 (utf8 (canonicalJson (.obj
    (bindingFields nodeId clientPublicKey clientNonce nodePublicKey nodeNonce))))

/-! ### Checks of untyped messages -/

/-- `assertBase`: the fields of a message of the type. -/
def assertHandshakeBase (value : Json) (type : JsString) : Except JsError (List (JsString × Json)) :=
  match fieldsOf value with
  | none => .error (.thrown (js "data-handshake: message must be an object"))
  | some fs => do
    require (fs.lookup (js "type") = some (.str type)) (js "data-handshake: expected type " ++ type)
    requireConst (fs.lookup (js "protocol")) (.str DATA_HANDSHAKE_PROTOCOL)
      (js "data-handshake: unsupported protocol ")
    requireConst (fs.lookup (js "version")) (.num (JsNumber.ofNat DATA_HANDSHAKE_VERSION))
      (js "data-handshake: unsupported version ")
    return fs

/-- The strings of an init that passes `assertDataInit`. -/
def assertDataInit (value : Json) : Except JsError DataInitMessage := do
  let fs ← assertHandshakeBase value DATA_INIT
  let node_id ← requireText (fs.lookup (js "node_id"))
    (js "data-handshake: node_id must be a non-empty string")
  let _ ← decodeBase64Field HANDSHAKE (fs.lookup (js "client_public_key")) (js "client_public_key")
  let _ ← decodeBase64Field HANDSHAKE (fs.lookup (js "client_nonce")) (js "client_nonce")
  let timestamp ← requireFinite (fs.lookup (js "timestamp"))
    (js "data-handshake: timestamp must be a finite number")
  let client_public_key ← requireText (fs.lookup (js "client_public_key")) []
  let client_nonce ← requireText (fs.lookup (js "client_nonce")) []
  return { node_id, client_public_key, client_nonce, timestamp }

/-- What `assertDataAccept` leaves: the node's key, the session id and the proof, which is not a
primitive. -/
def assertDataAccept (value : Json) : Except JsError (JsString × JsString × Json) := do
  let fs ← assertHandshakeBase value DATA_ACCEPT
  let _ ← decodeBase64Field HANDSHAKE (fs.lookup (js "node_public_key")) (js "node_public_key")
  let session_id ← requireText (fs.lookup (js "session_id"))
    (js "data-handshake: session_id must be a non-empty string")
  let node_public_key ← requireText (fs.lookup (js "node_public_key")) []
  match fs.lookup (js "proof") with
  | some (.obj gs) => return (node_public_key, session_id, .obj gs)
  | some (.arr xs) => return (node_public_key, session_id, .arr xs)
  | _ => .error (.thrown (js "data-handshake: proof must be an object"))

/-! ### The two sides -/

/-- A call of `acceptDataInit`, with the node's ephemeral key and nonce. -/
structure AcceptInput where
  init : Json
  nodeId : JsString
  now : JsNumber
  privateKey : Bytes
  nodeNonce : Bytes

def acceptDataInit (privateKeyPem : JsString) (x : AcceptInput) : Except JsError NodeDataHandshake := do
  let init ← assertDataInit x.init
  require (init.node_id = x.nodeId) (js "data-handshake: init targets a different node")
  let nodePublicKey := base64 (p.ecdhPublic x.privateKey)
  let transcript := channelBinding p x.nodeId init.client_public_key init.client_nonce nodePublicKey
    (some (.str (base64 x.nodeNonce)))
  let peer ← decodeBase64Field HANDSHAKE (some (.str init.client_public_key)) (js "client_public_key")
  let clientNonce ← decodeBase64Field HANDSHAKE (some (.str init.client_nonce)) (js "client_nonce")
  let session ← deriveSecureSession p .server x.privateKey peer clientNonce x.nodeNonce transcript
  let proof ← signChallenge p
    (createChallenge x.now x.nodeId (some (.num x.now)) clientNonce (some transcript)) privateKeyPem
    x.nodeId x.now x.nodeNonce
  return { message := { node_public_key := nodePublicKey, session_id := session.sessionId, proof }, session }

def deriveClientDataSession (client : ClientDataHandshake) (accept : Json)
    (expectedNodeId expectedNodePublicKeyPem : JsString) (clock : JsNumber) :
    Except JsError SecureSession := do
  let (node_public_key, session_id, proof) ← assertDataAccept accept
  let nodeNonce := proof.field? (js "node_nonce")
  let transcript := channelBinding p expectedNodeId client.message.client_public_key
    client.message.client_nonce node_public_key nodeNonce
  let _ ← verifyProof p proof
    (createChallenge clock expectedNodeId (proof.field? (js "timestamp")) client.clientNonce
      (some transcript)) expectedNodeId expectedNodePublicKeyPem clock
  let peer ← decodeBase64Field HANDSHAKE (some (.str node_public_key)) (js "node_public_key")
  let serverNonce ← decodeBase64Field HANDSHAKE nodeNonce (js "node_nonce")
  let session ← deriveSecureSession p .client client.privateKey peer client.clientNonce serverNonce
    transcript
  require (session.sessionId = session_id) (js "data-handshake: session id mismatch")
  return session

end ConsensusNode.Tunnel
