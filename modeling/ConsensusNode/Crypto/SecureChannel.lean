import ConsensusNode.Platform
import ConsensusNode.Tunnel.Frames

/-! # The secure channel

`crypto/secure-channel.ts`: frames sealed with ChaCha20-Poly1305, and the keys of a session derived from
an ECDH secret. The random nonce of `sealFrame` is an argument. -/

namespace ConsensusNode.Crypto

open Js Tunnel

variable (p : Platform)

inductive TunnelRole where
  | client
  | server
deriving DecidableEq

structure SecureSession where
  sessionId : JsString
  sendKey : Bytes
  receiveKey : Bytes
deriving DecidableEq

def CHANNEL_INFO : JsString := js "consensus-node-tunnel-v1"

def KEY_BYTES : ℕ := 32

/-- The checks on key and nonce that both directions make. -/
def checkKeyNonce (key nonce : Bytes) : Except JsError Unit := do
  require (key.length = KEY_BYTES) (js "ChaCha20-Poly1305 key must be 32 bytes")
  require (nonce.length = NONCE_SIZE) (js "ChaCha20-Poly1305 nonce must be 12 bytes")

/-- Ciphertext and tag. -/
def encryptDetached (key nonce plaintext aad : Bytes) : Except JsError (Bytes × Bytes) := do
  checkKeyNonce key nonce
  let sealed := p.encrypt key nonce aad plaintext
  require (TAG_SIZE ≤ sealed.length)
    (js "ChaCha20-Poly1305 output is shorter than the authentication tag")
  return (sealed.take (sealed.length - TAG_SIZE), sealed.drop (sealed.length - TAG_SIZE))

def decryptDetached (key nonce ciphertext tag aad : Bytes) : Except JsError Bytes := do
  checkKeyNonce key nonce
  require (tag.length = TAG_SIZE) (js "ChaCha20-Poly1305 tag must be 16 bytes")
  match p.decrypt key nonce aad (ciphertext ++ tag) with
  | some plaintext => .ok plaintext
  | none => .error .native

def sealFrame (nonce key : Bytes) (type : FrameType) (sequence : ℕ) (plaintext : Bytes) :
    Except JsError Bytes := do
  let aad ← frameAad type sequence plaintext.length
  let (ciphertext, tag) ← encryptDetached p key nonce plaintext aad
  encodeFrame { type, sequence, nonce, ciphertext, tag }

/-- What `sealFrame` encrypts: nonce, associated data and plaintext. -/
structure SealCall where
  nonce : Bytes
  aad : Bytes
  plaintext : Bytes
deriving DecidableEq

/-- The sealed bytes. -/
def SealCall.output (key : Bytes) (c : SealCall) : Bytes := p.encrypt key c.nonce c.aad c.plaintext

def openFrame (key raw : Bytes) : Except JsError (FrameParts × Bytes) := do
  let frame ← decodeFrame raw
  let aad ← frameAad frame.type frame.sequence frame.ciphertext.length
  let plaintext ← decryptDetached p key frame.nonce frame.ciphertext frame.tag aad
  return (frame, plaintext)

/-- A key of the session. -/
def hkdf (secret salt : Bytes) (info : JsString) (length : ℕ) : Bytes :=
  p.hkdf secret salt (utf8 info) length

/-- `deriveSecureSession` after the two checks and the key agreement. -/
def sessionKeys (role : TunnelRole) (sharedSecret clientNonce serverNonce transcriptHash : Bytes) :
    SecureSession :=
  let salt := p.sha256 (clientNonce ++ serverNonce ++ transcriptHash)
  let clientToServer := hkdf p sharedSecret salt (CHANNEL_INFO ++ js ":client-to-server") KEY_BYTES
  let serverToClient := hkdf p sharedSecret salt (CHANNEL_INFO ++ js ":server-to-client") KEY_BYTES
  let sessionId := hex (hkdf p sharedSecret salt (CHANNEL_INFO ++ js ":session-id") 16)
  match role with
  | .client => { sessionId, sendKey := clientToServer, receiveKey := serverToClient }
  | .server => { sessionId, sendKey := serverToClient, receiveKey := clientToServer }

def deriveSecureSession (role : TunnelRole) (privateKey peerPublicKeyRaw clientNonce serverNonce
    transcriptHash : Bytes) : Except JsError SecureSession := do
  require (16 ≤ clientNonce.length) (js "clientNonce must be at least 16 bytes")
  require (16 ≤ serverNonce.length) (js "serverNonce must be at least 16 bytes")
  match p.ecdh privateKey peerPublicKeyRaw with
  | none => .error .native
  | some sharedSecret => return sessionKeys p role sharedSecret clientNonce serverNonce transcriptHash

variable {p}

theorem checkKeyNonce_eq_ok {key nonce : Bytes} {u : Unit} :
    checkKeyNonce key nonce = .ok u ↔ key.length = KEY_BYTES ∧ nonce.length = NONCE_SIZE := by
  simp [checkKeyNonce, bind_eq_ok, require_eq_ok]

theorem decryptDetached_eq_ok {key nonce ciphertext tag aad plaintext : Bytes} :
    decryptDetached p key nonce ciphertext tag aad = .ok plaintext ↔
      (key.length = KEY_BYTES ∧ nonce.length = NONCE_SIZE) ∧ tag.length = TAG_SIZE ∧
      p.decrypt key nonce aad (ciphertext ++ tag) = some plaintext := by
  simp only [decryptDetached, bind_eq_ok, checkKeyNonce_eq_ok, require_eq_ok, decide_eq_true_eq]
  constructor
  · rintro ⟨_, hk, _, ht, h⟩
    cases hd : p.decrypt key nonce aad (ciphertext ++ tag) with
    | none => rw [hd] at h; cases h
    | some b =>
      rw [hd] at h
      cases h
      exact ⟨hk, ht, rfl⟩
  · rintro ⟨hk, ht, h⟩
    exact ⟨(), hk, (), ht, by rw [h]⟩

/-- **A sealed frame.** -/
theorem sealFrame_eq_ok {nonce key plaintext raw : Bytes} {type : FrameType} {sequence : ℕ} :
    sealFrame p nonce key type sequence plaintext = .ok raw ↔
      key.length = KEY_BYTES ∧ plaintext.length ≤ MAX_U32 ∧ ∃ ciphertext tag,
        p.encrypt key nonce (aadBytes type sequence plaintext.length) plaintext = ciphertext ++ tag ∧
        encodeFrame ⟨type, sequence, nonce, ciphertext, tag⟩ = .ok raw := by
  simp only [sealFrame, encryptDetached, bind_eq_ok, frameAad_eq_ok, checkKeyNonce_eq_ok, require_eq_ok,
    decide_eq_true_eq, pure, Except.pure, Except.ok.injEq]
  constructor
  · rintro ⟨aad, ⟨-, hlen, rfl⟩, ⟨ct, tag⟩, ⟨_, ⟨hk, -⟩, _, -, h⟩, henc⟩
    cases h
    exact ⟨hk, hlen, _, _, (List.take_append_drop _ _).symm, henc⟩
  · rintro ⟨hk, hlen, ct, tag, hsealed, henc⟩
    obtain ⟨hv, -⟩ := encodeFrame_eq_ok.mp henc
    have htag : tag.length = TAG_SIZE := hv.tag
    refine ⟨_, ⟨hv.sequence, hlen, rfl⟩, (ct, tag), ⟨(), ⟨hk, hv.nonce⟩, (), ?_, ?_⟩, henc⟩
    · rw [hsealed, List.length_append]
      omega
    · rw [hsealed, List.length_append, htag, Nat.add_sub_cancel, List.take_left, List.drop_left]

/-- **An opened frame.** -/
theorem openFrame_eq_ok {key raw plaintext : Bytes} {frame : FrameParts} :
    openFrame p key raw = .ok (frame, plaintext) ↔
      encodeFrame frame = .ok raw ∧ key.length = KEY_BYTES ∧
      p.decrypt key frame.nonce (aadBytes frame.type frame.sequence frame.ciphertext.length)
        (frame.ciphertext ++ frame.tag) = some plaintext := by
  simp only [openFrame, bind_eq_ok, decryptDetached_eq_ok, frameAad_eq_ok, pure, Except.pure,
    Except.ok.injEq, Prod.mk.injEq]
  constructor
  · rintro ⟨f, hf, aad, ⟨-, -, rfl⟩, b, ⟨⟨hk, -⟩, -, hd⟩, rfl, rfl⟩
    exact ⟨encodeFrame_decodeFrame hf, hk, hd⟩
  · rintro ⟨he, hk, hd⟩
    obtain ⟨hv, -⟩ := encodeFrame_eq_ok.mp he
    exact ⟨frame, decodeFrame_encodeFrame he, _, ⟨hv.sequence, hv.ciphertext, rfl⟩, plaintext,
      ⟨⟨hk, hv.nonce⟩, hv.tag, hd⟩, rfl, rfl⟩

/-- **A frame that was sealed is opened**, if the cipher decrypts what it has encrypted. -/
theorem openFrame_of_seal {nonce key b : Bytes} {type : FrameType} {sequence : ℕ} (hkey : key.length = KEY_BYTES)
    (hnonce : nonce.length = NONCE_SIZE) (hsequence : sequence ≤ MAX_U64) (hb : b.length ≤ MAX_U32)
    (hlen : (p.encrypt key nonce (aadBytes type sequence b.length) b).length = b.length + TAG_SIZE)
    (hopens : p.decrypt key nonce (aadBytes type sequence b.length)
      (p.encrypt key nonce (aadBytes type sequence b.length) b) = some b) :
    ∃ raw frame, sealFrame p nonce key type sequence b = .ok raw ∧
      openFrame p key raw = .ok (frame, b) ∧ frame.type = type ∧ frame.sequence = sequence := by
  generalize hs : p.encrypt key nonce (aadBytes type sequence b.length) b = s at hlen hopens
  have hct : (s.take b.length).length = b.length := by
    rw [List.length_take, hlen]
    omega
  have htag : (s.drop b.length).length = TAG_SIZE := by
    rw [List.length_drop, hlen]
    omega
  have hjoin : s = s.take b.length ++ s.drop b.length := (List.take_append_drop _ _).symm
  have hframe : encodeFrame ⟨type, sequence, nonce, s.take b.length, s.drop b.length⟩ =
      .ok (frameBytes ⟨type, sequence, nonce, s.take b.length, s.drop b.length⟩) :=
    encodeFrame_eq_ok.mpr ⟨⟨hsequence, hnonce, htag, by rw [hct]; exact hb⟩, rfl⟩
  refine ⟨_, _, sealFrame_eq_ok.mpr ⟨hkey, hb, _, _, hs.trans hjoin, hframe⟩,
    openFrame_eq_ok.mpr ⟨hframe, hkey, ?_⟩, rfl, rfl⟩
  simp only [hct]
  rw [← hjoin]
  exact hopens

theorem deriveSecureSession_eq_ok {role : TunnelRole} {d Q c n t : Bytes} {s : SecureSession} :
    deriveSecureSession p role d Q c n t = .ok s ↔ 16 ≤ c.length ∧ 16 ≤ n.length ∧
      ∃ secret, p.ecdh d Q = some secret ∧ s = sessionKeys p role secret c n t := by
  simp only [deriveSecureSession, bind_eq_ok, require_eq_ok, decide_eq_true_eq]
  constructor
  · rintro ⟨_, hc, _, hn, h⟩
    cases hd : p.ecdh d Q with
    | none => rw [hd] at h; cases h
    | some secret =>
      rw [hd] at h
      cases h
      exact ⟨hc, hn, secret, rfl, rfl⟩
  · rintro ⟨hc, hn, secret, hd, rfl⟩
    exact ⟨(), hc, (), hn, by rw [hd]; rfl⟩

end ConsensusNode.Crypto
