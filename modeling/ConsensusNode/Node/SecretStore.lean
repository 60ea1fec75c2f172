import ConsensusNode.Js.RoundTrip
import ConsensusNode.Lib.Files
import ConsensusNode.Platform

/-! # The secret store

`node/secret-store.ts`: secrets are stored as ChaCha20-Poly1305 envelopes under a data key that lives in
a file of its own. Random values are arguments of the process that draws them: the data key it would
create, the nonces, and the suffix of its temporary files (`StateFile.tmp`, one for each process).

* `getOrCreateDataKey`: the process that returns the data key or creates it. `mkdir` and `chmod` around
  its write do not touch the key file and are left out; file reads and writes are single steps.
* `secretText`: the secret that the content of a file stands for, sealed or legacy.
* `secretText_seal`: a sealed secret is read back. -/

namespace ConsensusNode.Node

open Js Lib

variable (p : Platform)

/-- The files and directories of the node. -/
inductive StateFile where
  | base
  | keysDir
  | config
  | privateKeyPem
  | publicKeyPem
  | machineDir
  | machine
  | dataKey
  | tmp (process : ℕ)
deriving DecidableEq

def DEK_BYTES : ℕ := 32

def NONCE_BYTES : ℕ := 12

def ENVELOPE_VERSION : JsNumber := JsNumber.ofNat 1

def ALGORITHM : JsString := js "chacha20-poly1305"

def SLOT_NODE_KEY : JsString := js "node.key"

abbrev NodeOp := FsOp StateFile Bytes

abbrev NodeAns := FsAns Bytes JsString

/-! ### The data key -/

/-- `raw.trim()` and `Buffer.from(_, "base64")`; `none` if these are not 32 bytes. -/
def decodeDataKey (raw : JsString) : Option Bytes :=
  let key := decodeBase64 (trim raw)
  if key.length = DEK_BYTES then some key else none

/-- Where a call of `getOrCreateDataKey` stands; `key` is what it would create. -/
inductive KeyCall where
  | get (key : Bytes)
  | set (key : Bytes)
  | readBack (key : Bytes)
  | returned (key : Bytes)
  | thrown
deriving DecidableEq

namespace KeyCall

def next : KeyCall → Option NodeOp
  | .get _ => some (.read .dataKey)
  | .set key => some (.write .dataKey (utf8 (base64 key)))
  | .readBack _ => some (.read .dataKey)
  | .returned _ => none
  | .thrown => none

/-- The key read by `adapter.get`: absent, or a key, or an exception. -/
def gotKey : NodeAns → Except Unit (Option Bytes)
  | .absent => .ok none
  | .data raw =>
    match decodeDataKey (decodeUtf8 raw) with
    | some key => .ok (some key)
    | none => .error ()
  | _ => .error ()

def resume : KeyCall → NodeAns → KeyCall
  | .get key, a =>
    match gotKey a with
    | .ok none => .set key
    | .ok (some existing) => .returned existing
    | .error _ => .thrown
  | .set key, .done => .readBack key
  | .set _, _ => .thrown
  | .readBack key, a =>
    match gotKey a with
    | .ok (some stored) => if stored = key then .returned key else .thrown
    | _ => .thrown
  | c, _ => c

end KeyCall

def keyMachine : Machine StateFile Bytes JsString KeyCall := ⟨KeyCall.next, KeyCall.resume⟩

/-- The start of a call in a process: `env` is `CONSENSUS_NODE_SECRET_KEY`, and `keyfile` says that the
platform has the key file. -/
def getOrCreateDataKey (env : Option JsString) (keyfile : Bool) (key : Bytes) : KeyCall :=
  match env with
  | some (c :: raw) =>
    let existing := decodeBase64 (c :: raw)
    if existing.length = DEK_BYTES then .returned existing else .thrown
  | _ => if keyfile then .get key else .thrown

/-! ### Envelopes -/

structure SecretEnvelope where
  nonce : JsString
  ct : JsString

/-- The envelope that a parsed value is, if it is one. -/
def isSecretEnvelope (v : Json) : Option SecretEnvelope :=
  match v.field? (js "v"), v.field? (js "alg"), v.field? (js "nonce"), v.field? (js "ct") with
  | some (.num version), some (.str alg), some (.str nonce), some (.str ct) =>
    if version = ENVELOPE_VERSION ∧ alg = ALGORITHM then some ⟨nonce, ct⟩ else none
  | _, _, _, _ => none

/-- `sealSecret` with the data key and the nonce it draws. -/
def sealSecret (key nonce : Bytes) (slot plaintext : JsString) : Json :=
  .obj [(js "v", .num ENVELOPE_VERSION), (js "alg", .str ALGORITHM), (js "nonce", .str (base64 nonce)),
    (js "ct", .str (base64 (p.encrypt key nonce (utf8 slot) (utf8 plaintext))))]

/-- `none` is the exception. -/
def openSecret (key : Bytes) (slot : JsString) (envelope : SecretEnvelope) : Option JsString :=
  (p.decrypt key (decodeBase64 envelope.nonce) (utf8 slot) (decodeBase64 envelope.ct)).map decodeUtf8

/-- The envelope in a file, if it holds one. -/
def fileEnvelope (content : Bytes) : Option SecretEnvelope :=
  (parse (decodeUtf8 content)).bind isSecretEnvelope

/-- The secret a file holds: what is in the envelope, or the legacy text. `none` if it cannot be opened,
with this data key or without one. -/
def secretText (key : Option Bytes) (slot : JsString) (content : Bytes) : Option JsString :=
  match fileEnvelope content with
  | some envelope => key.bind fun k => openSecret p k slot envelope
  | none => some (decodeUtf8 content)

/-! ### What is sealed is read back -/

/-- ChaCha20-Poly1305 opens what it has sealed. -/
def SealsOpen : Prop :=
  ∀ key nonce aad b : Bytes, key.length = DEK_BYTES → nonce.length = NONCE_BYTES →
    p.decrypt key nonce aad (p.encrypt key nonce aad b) = some b

variable {p}

theorem built_sealSecret (key nonce : Bytes) (slot plaintext : JsString) :
    Built (sealSecret p key nonce slot plaintext) := by
  refine ⟨?_, ordered_iff_keys.mpr ?_, trivial, trivial, trivial, trivial, trivial⟩
  · show [js "v", js "alg", js "nonce", js "ct"].Nodup
    decide
  · show [js "v", js "alg", js "nonce", js "ct"].Pairwise _
    decide

theorem fixes_sealSecret (key nonce : Bytes) (slot plaintext : JsString) :
    Fixes ofRat (sealSecret p key nonce slot plaintext) := by
  have hv : Fixes ofRat (.num ENVELOPE_VERSION) := isDouble_fin.mp (isDouble_ofInt (by decide))
  exact ⟨hv, trivial, trivial, trivial, trivial⟩

theorem fileEnvelope_seal (key nonce : Bytes) (slot plaintext : JsString) :
    fileEnvelope (utf8 (stringify (sealSecret p key nonce slot plaintext))) =
      some ⟨base64 nonce, base64 (p.encrypt key nonce (utf8 slot) (utf8 plaintext))⟩ := by
  unfold fileEnvelope
  rw [parse_decode_stringify (built_sealSecret _ _ _ _) (fixes_sealSecret _ _ _ _)]
  rfl

/-- **A sealed secret is read back.** -/
theorem secretText_seal (hp : SealsOpen p) {key nonce : Bytes} (hkey : key.length = DEK_BYTES)
    (hnonce : nonce.length = NONCE_BYTES) (slot : JsString) {plaintext : JsString}
    (htext : WellFormed plaintext) :
    secretText p (some key) slot (utf8 (stringify (sealSecret p key nonce slot plaintext))) =
      some plaintext := by
  unfold secretText
  rw [fileEnvelope_seal]
  simp only [Option.bind_some, openSecret, decodeBase64_base64, hp _ _ _ _ hkey hnonce,
    Option.map_some, decodeUtf8_utf8 htext]

end ConsensusNode.Node
