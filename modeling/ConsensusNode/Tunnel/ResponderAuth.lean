import ConsensusNode.Js.Canonical
import ConsensusNode.Platform

/-! # Responder authentication

`tunnel/responder-auth.ts`: a client sends a challenge, the node signs it with its identity key, and the
client verifies the proof against the key it has pinned. What arrives is any JSON value; what a side builds
itself is a record.

* `verifyProof_eq_ok`: what an accepted proof contains, and what its signature covers. -/

namespace ConsensusNode.Tunnel

open Js

variable (p : Platform)

def RESPONDER_AUTH_PROTOCOL : JsString := js "consensus-node-responder-auth"

def RESPONDER_AUTH_VERSION : ℕ := 1

def PROOF_CLOCK_TOLERANCE_SEC : JsNumber := JsNumber.ofNat 5

def PROOF_MAX_AGE_SEC : JsNumber := JsNumber.ofNat 30

/-- The challenge; the client takes its time from the proof, unchecked. -/
structure ResponderChallenge where
  node_id : JsString
  client_nonce : JsString
  timestamp : Json
  channel_binding : Option JsString

structure ResponderProof where
  node_id : JsString
  client_nonce : JsString
  node_nonce : JsString
  timestamp : JsNumber
  channel_binding : Option JsString
  signature : JsString
deriving DecidableEq

/-! ### Checks of untyped values -/

/-- The fields of an object; an array has none of the names that are read. -/
def fieldsOf : Json → Option (List (JsString × Json))
  | .obj fs => some fs
  | .arr _ => some []
  | _ => none

/-- `${String(v)}` in a message. -/
def textInMessage : Option Json → Except JsError JsString
  | none => .ok (js "undefined")
  | some v => toStr v

/-- `if (v !== expected) throw new TypeError(...)` with `String(v)` in the message. -/
def requireConst (v : Option Json) (expected : Json) (message : JsString) : Except JsError Unit :=
  if v = some expected then .ok ()
  else do
    let text ← textInMessage v
    .error (.thrown (message ++ text))

/-- A non-empty string that decodes to at least one byte. The two files of the source have this function
with their own names in the messages. -/
def decodeBase64Field (file : JsString) (v : Option Json) (field : JsString) : Except JsError Bytes :=
  match v with
  | some (.str (c :: s)) =>
    let decoded := decodeBase64 (c :: s)
    if decoded = [] then .error (.thrown (file ++ js ": " ++ field ++ js " is empty")) else .ok decoded
  | _ => .error (.thrown (file ++ js ": " ++ field ++ js " must be a non-empty string"))

/-- A non-empty string. -/
def requireText (v : Option Json) (message : JsString) : Except JsError JsString :=
  match v with
  | some (.str (c :: s)) => .ok (c :: s)
  | _ => .error (.thrown message)

/-- A finite number. -/
def requireFinite (v : Option Json) (message : JsString) : Except JsError JsNumber :=
  match v with
  | some (.num (.fin q h)) => .ok (.fin q h)
  | _ => .error (.thrown message)

def AUTH : JsString := js "responder-auth"

/-- `channel_binding` may be absent. -/
def checkBinding (v : Option Json) : Except JsError Unit :=
  match v with
  | none => .ok ()
  | some v => (decodeBase64Field AUTH (some v) (js "channel_binding")).map fun _ => ()

/-- `assertBase` of a value with these fields. -/
def assertAuthBase (fs : List (JsString × Json)) : Except JsError Unit := do
  requireConst (fs.lookup (js "protocol")) (.str RESPONDER_AUTH_PROTOCOL)
    (js "responder-auth: unsupported protocol ")
  requireConst (fs.lookup (js "version")) (.num (JsNumber.ofNat RESPONDER_AUTH_VERSION))
    (js "responder-auth: unsupported version ")
  let _ ← requireText (fs.lookup (js "node_id")) (js "responder-auth: node_id must be a non-empty string")
  let _ ← requireFinite (fs.lookup (js "timestamp"))
    (js "responder-auth: timestamp must be a finite number")
  checkBinding (fs.lookup (js "channel_binding"))

/-- A field that is left out without a value. -/
def bindingField : Option JsString → List (JsString × Json)
  | some s => [(js "channel_binding", .str s)]
  | none => []

def challengeFields (c : ResponderChallenge) : List (JsString × Json) :=
  [(js "protocol", .str RESPONDER_AUTH_PROTOCOL),
    (js "version", .num (JsNumber.ofNat RESPONDER_AUTH_VERSION)), (js "node_id", .str c.node_id),
    (js "client_nonce", .str c.client_nonce), (js "timestamp", c.timestamp)] ++
  bindingField c.channel_binding

def assertChallenge (c : ResponderChallenge) : Except JsError Unit := do
  assertAuthBase (challengeFields c)
  let _ ← decodeBase64Field AUTH (some (.str c.client_nonce)) (js "client_nonce")

/-- The fields of a proof that passes `assertProof`. -/
def assertProof (proof : Json) : Except JsError (List (JsString × Json)) :=
  match fieldsOf proof with
  | none => .error (.thrown (js "responder-auth: message must be an object"))
  | some fs => do
    assertAuthBase fs
    let _ ← decodeBase64Field AUTH (fs.lookup (js "client_nonce")) (js "client_nonce")
    let _ ← decodeBase64Field AUTH (fs.lookup (js "node_nonce")) (js "node_nonce")
    let _ ← requireText (fs.lookup (js "signature"))
      (js "responder-auth: signature must be a non-empty string")
    return fs

/-! ### The three operations -/

/-- `now` is `undefined` or whatever the caller passes; `clock` is the time now. -/
def createChallenge (clock : JsNumber) (nodeId : JsString) (now : Option Json) (clientNonce : Bytes)
    (channelBinding : Option Bytes) : ResponderChallenge where
  node_id := nodeId
  client_nonce := base64 clientNonce
  timestamp := match now with
    | none => .num clock
    | some .null => .num clock
    | some v => v
  channel_binding := channelBinding.map base64

/-- The proof without its signature. -/
def unsignedFields (proof : ResponderProof) : List (JsString × Json) :=
  [(js "protocol", .str RESPONDER_AUTH_PROTOCOL),
    (js "version", .num (JsNumber.ofNat RESPONDER_AUTH_VERSION)), (js "node_id", .str proof.node_id),
    (js "client_nonce", .str proof.client_nonce), (js "node_nonce", .str proof.node_nonce),
    (js "timestamp", .num proof.timestamp)] ++
  bindingField proof.channel_binding

def withoutSignature (fs : List (JsString × Json)) : List (JsString × Json) :=
  fs.filter fun e => e.1 ≠ js "signature"

/-- The bytes that are signed. -/
def signingPayload (fs : List (JsString × Json)) : Bytes :=
  utf8 (canonicalJson (.obj (withoutSignature fs)))

def signChallenge (challenge : ResponderChallenge) (privateKeyPem nodeId : JsString) (now : JsNumber)
    (nodeNonce : Bytes) : Except JsError ResponderProof := do
  assertChallenge challenge
  require (challenge.node_id = nodeId) (js "responder-auth: challenge targets a different node")
  let unsigned : ResponderProof := {
    node_id := nodeId
    client_nonce := challenge.client_nonce
    node_nonce := base64 nodeNonce
    timestamp := now
    channel_binding := challenge.channel_binding
    signature := [] }
  match p.sign privateKeyPem (signingPayload (unsignedFields unsigned)) with
  | none => .error .native
  | some signature => return { unsigned with signature := base64 signature }

/-- The age of a proof. -/
def checkAge (timestamp now : JsNumber) : Except JsError Unit := do
  require (!JsNumber.lt (now.add PROOF_CLOCK_TOLERANCE_SEC) (some timestamp))
    (js "responder-auth: proof issued in the future")
  require (!JsNumber.lt (some timestamp)
      ((now.sub PROOF_MAX_AGE_SEC).bind fun t => t.sub PROOF_CLOCK_TOLERANCE_SEC))
    (js "responder-auth: proof expired")

/-- `verifyProof` with the default tolerances; the fields of the proof on success. -/
def verifyProof (proof : Json) (challenge : ResponderChallenge) (expectedNodeId pem : JsString)
    (now : JsNumber) : Except JsError (List (JsString × Json)) := do
  assertChallenge challenge
  let fs ← assertProof proof
  require (fs.lookup (js "node_id") = some (.str expectedNodeId)) (js "responder-auth: node_id mismatch")
  require (challenge.node_id = expectedNodeId) (js "responder-auth: challenge node_id mismatch")
  require (fs.lookup (js "client_nonce") = some (.str challenge.client_nonce))
    (js "responder-auth: client_nonce mismatch")
  require (fs.lookup (js "channel_binding") = challenge.channel_binding.map .str)
    (js "responder-auth: channel_binding mismatch")
  let timestamp ← requireFinite (fs.lookup (js "timestamp"))
    (js "responder-auth: timestamp must be a finite number")
  checkAge timestamp now
  let signature ← requireText (fs.lookup (js "signature"))
    (js "responder-auth: signature must be a non-empty string")
  match p.publicKeyOfPem pem with
  | none => .error .native
  | some key =>
    require (p.verify key (signingPayload fs) (decodeBase64 signature))
      (js "responder-auth: signature verification failed")
    return fs

/-! ### What is signed and what is accepted -/

variable {p}

theorem decodeBase64Field_eq_ok {file field : JsString} {v : Option Json} {b : Bytes} :
    decodeBase64Field file v field = .ok b ↔ ∃ s, v = some (.str s) ∧ s ≠ [] ∧ b = decodeBase64 s ∧ b ≠ [] := by
  unfold decodeBase64Field
  split
  · rename_i c s
    dsimp only
    split_ifs with hd
    · simp only [Option.some.injEq, Json.str.injEq, false_iff, not_exists]
      rintro x ⟨rfl, -, rfl, hne⟩
      exact hne hd
    · simp only [Except.ok.injEq, Option.some.injEq, Json.str.injEq]
      constructor
      · rintro rfl
        exact ⟨_, rfl, by simp, rfl, hd⟩
      · rintro ⟨x, rfl, -, rfl, -⟩
        rfl
  · rename_i hne
    simp only [reduceCtorEq, false_iff, not_exists]
    rintro x ⟨rfl, hx, -⟩
    obtain ⟨c, s, rfl⟩ := List.exists_cons_of_ne_nil hx
    exact hne c s rfl

theorem requireText_eq_ok {v : Option Json} {message s : JsString}
    (h : requireText v message = .ok s) : v = some (.str s) := by
  unfold requireText at h
  split at h
  · cases h; rfl
  · cases h

theorem assertProof_eq_ok {proof : Json} {fs : List (JsString × Json)} (h : assertProof proof = .ok fs) :
    proof = .obj fs ∧ ∃ nonce, fs.lookup (js "node_nonce") = some (.str nonce) ∧
      decodeBase64 nonce ≠ [] := by
  unfold assertProof at h
  split at h
  · cases h
  · rename_i fs' hfs
    simp only [bind_eq_ok, decodeBase64Field_eq_ok, pure, Except.pure, Except.ok.injEq] at h
    obtain ⟨_, -, _, -, _, ⟨s, hs, -, rfl, hne⟩, _, -, rfl⟩ := h
    refine ⟨?_, s, hs, hne⟩
    cases proof with
    | obj gs => cases hfs; rfl
    | arr xs =>
      cases hfs
      cases hs
    | _ => cases hfs

/-- **A proof that is made.** Its signature covers everything else in it. -/
theorem signChallenge_eq_ok {challenge : ResponderChallenge} {pem nodeId : JsString} {now : JsNumber}
    {nodeNonce : Bytes} {proof : ResponderProof}
    (h : signChallenge p challenge pem nodeId now nodeNonce = .ok proof) :
    proof.node_id = nodeId ∧ proof.node_nonce = base64 nodeNonce ∧
      proof.channel_binding = challenge.channel_binding ∧
      ∃ sig, p.sign pem (signingPayload (unsignedFields proof)) = some sig ∧
        proof.signature = base64 sig := by
  simp only [signChallenge, bind_eq_ok, require_eq_ok, decide_eq_true_eq] at h
  obtain ⟨_, -, _, -, h⟩ := h
  split at h
  · cases h
  · rename_i sig hsig
    cases h
    exact ⟨rfl, rfl, rfl, sig, hsig, rfl⟩

/-- **A proof that is accepted.** -/
theorem verifyProof_eq_ok {proof : Json} {challenge : ResponderChallenge} {expectedNodeId pem : JsString}
    {now : JsNumber} {fs : List (JsString × Json)}
    (h : verifyProof p proof challenge expectedNodeId pem now = .ok fs) :
    proof = .obj fs ∧ fs.lookup (js "channel_binding") = challenge.channel_binding.map .str ∧
      ∃ key sig, p.publicKeyOfPem pem = some key ∧ p.verify key (signingPayload fs) sig = true := by
  simp only [verifyProof, bind_eq_ok, require_eq_ok, decide_eq_true_eq] at h
  obtain ⟨_, -, fs', hproof, _, -, _, -, _, -, _, hbinding, _, -, _, -, signature, -, h⟩ := h
  split at h
  · cases h
  · rename_i key hkey
    simp only [bind_eq_ok, require_eq_ok, pure, Except.pure, Except.ok.injEq] at h
    obtain ⟨_, hverify, rfl⟩ := h
    exact ⟨(assertProof_eq_ok hproof).1, hbinding, key, _, hkey, hverify⟩

end ConsensusNode.Tunnel
