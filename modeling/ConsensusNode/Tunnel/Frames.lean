import ConsensusNode.Js.Encoding
import ConsensusNode.Js.Value

/-! # Frames

`tunnel/frames.ts`: the wire format of the encrypted channel. A frame is a header of 26 bytes (version,
type, sequence number, nonce, length of the ciphertext), the ciphertext and a tag of 16 bytes; the header
without the nonce is the associated data of the encryption.

* `decodeFrame_encodeFrame`, `encodeFrame_decodeFrame`: the codec is a bijection between valid frames and
  the byte strings that decode.
* `decodeFrame_isOk_iff`: which byte strings decode.
* `frameAad_inj`: the associated data determines type, sequence number and length. -/

namespace ConsensusNode.Tunnel

open Js

def FRAME_VERSION : UInt8 := 0x01

inductive FrameType where
  | handshake
  | data
  | ping
  | pong
  | close
  | error
deriving DecidableEq

namespace FrameType

/-- The values of `FRAME_TYPE`. -/
def code : FrameType → UInt8
  | handshake => 0x01
  | data => 0x10
  | ping => 0x20
  | pong => 0x21
  | close => 0x30
  | error => 0x31

/-- `VALID_TYPES.has(code)`. -/
def ofCode? (c : UInt8) : Option FrameType :=
  [handshake, data, ping, pong, close, error].find? fun t => t.code = c

@[simp] theorem ofCode?_code (t : FrameType) : ofCode? t.code = some t := by cases t <;> rfl

theorem code_of_ofCode? {c : UInt8} {t : FrameType} (h : ofCode? c = some t) : t.code = c := by
  simpa using List.find?_some h

theorem code_injective : Function.Injective code := by
  intro a b h
  have := congrArg ofCode? h
  simpa using this

end FrameType

/-- A frame; its version is always `FRAME_VERSION`. -/
structure FrameParts where
  type : FrameType
  sequence : ℕ
  nonce : Bytes
  ciphertext : Bytes
  tag : Bytes
deriving DecidableEq

def HEADER_SIZE : ℕ := 26

def NONCE_SIZE : ℕ := 12

def TAG_SIZE : ℕ := 16

def MAX_U64 : ℕ := 2 ^ 64 - 1

def MAX_U32 : ℕ := 0xffffffff

def SEQUENCE_RANGE : JsString := js "Frame sequence must fit in u64"

/-- `n` bytes from position `i` on. -/
def slice (raw : Bytes) (i n : ℕ) : Bytes := (raw.drop i).take n

def validateParts (parts : FrameParts) : Except JsError Unit := do
  require (parts.sequence ≤ MAX_U64) SEQUENCE_RANGE
  require (parts.nonce.length = NONCE_SIZE) (js "Frame nonce must be 12 bytes")
  require (parts.tag.length = TAG_SIZE) (js "Frame auth tag must be 16 bytes")
  require (parts.ciphertext.length ≤ MAX_U32) (js "Frame ciphertext too large")

/-- The bytes of a frame. -/
def frameBytes (parts : FrameParts) : Bytes :=
  [FRAME_VERSION, parts.type.code] ++ beBytes 8 parts.sequence ++ parts.nonce ++
    beBytes 4 parts.ciphertext.length ++ parts.ciphertext ++ parts.tag

def encodeFrame (parts : FrameParts) : Except JsError Bytes := do
  validateParts parts
  return frameBytes parts

def tooShort (raw : Bytes) : JsError :=
  .thrown (js "Frame too short: " ++ decText raw.length ++ js " bytes")

/-- Two hexadecimal digits. -/
def hexByte (b : UInt8) : JsString := hex [b]

def decodeFrame (raw : Bytes) : Except JsError FrameParts :=
  if raw.length < HEADER_SIZE + TAG_SIZE then .error (tooShort raw)
  else
    let version := raw.getD 0 0
    if version ≠ FRAME_VERSION then
      .error (.thrown (js "Unsupported frame version: " ++ decText version.toNat))
    else
      match FrameType.ofCode? (raw.getD 1 0) with
      | none => .error (.thrown (js "Unknown frame type: 0x" ++ hexByte (raw.getD 1 0)))
      | some type =>
        let ciphertextLength := beVal (slice raw 22 4)
        let expectedLength := HEADER_SIZE + ciphertextLength + TAG_SIZE
        if raw.length ≠ expectedLength then
          .error (.thrown (js "Invalid frame length: expected " ++ decText expectedLength ++ js ", got " ++
            decText raw.length))
        else
          .ok {
            type := type
            sequence := beVal (slice raw 2 8)
            nonce := slice raw 10 NONCE_SIZE
            ciphertext := slice raw HEADER_SIZE ciphertextLength
            tag := slice raw (HEADER_SIZE + ciphertextLength) TAG_SIZE }

/-- The associated data. -/
def aadBytes (type : FrameType) (sequence ciphertextLength : ℕ) : Bytes :=
  [FRAME_VERSION, type.code] ++ beBytes 8 sequence ++ beBytes 4 ciphertextLength

def frameAad (type : FrameType) (sequence ciphertextLength : ℕ) : Except JsError Bytes := do
  require (sequence ≤ MAX_U64) SEQUENCE_RANGE
  require (ciphertextLength ≤ MAX_U32) (js "Ciphertext length must fit in u32")
  return aadBytes type sequence ciphertextLength

def peekFrameSequence (raw : Bytes) : Except JsError ℕ :=
  if raw.length < HEADER_SIZE + TAG_SIZE then .error (tooShort raw) else .ok (beVal (slice raw 2 8))

/-! ### Reading what was written -/

/-- What `validateParts` asks for. -/
structure FrameParts.Valid (parts : FrameParts) : Prop where
  sequence : parts.sequence ≤ MAX_U64
  nonce : parts.nonce.length = NONCE_SIZE
  tag : parts.tag.length = TAG_SIZE
  ciphertext : parts.ciphertext.length ≤ MAX_U32

theorem validateParts_eq_ok {parts : FrameParts} {u : Unit} : validateParts parts = .ok u ↔ parts.Valid := by
  simp only [validateParts, bind_eq_ok, require_eq_ok, decide_eq_true_eq]
  constructor
  · rintro ⟨_, h1, _, h2, _, h3, h4⟩
    exact ⟨h1, h2, h3, h4⟩
  · rintro ⟨h1, h2, h3, h4⟩
    exact ⟨(), h1, (), h2, (), h3, h4⟩

theorem encodeFrame_eq_ok {parts : FrameParts} {raw : Bytes} :
    encodeFrame parts = .ok raw ↔ parts.Valid ∧ raw = frameBytes parts := by
  simp only [encodeFrame, bind_eq_ok, validateParts_eq_ok, pure, Except.pure, Except.ok.injEq]
  constructor
  · rintro ⟨_, hv, rfl⟩
    exact ⟨hv, rfl⟩
  · rintro ⟨hv, rfl⟩
    exact ⟨(), hv, rfl⟩

theorem frameAad_eq_ok {type : FrameType} {sequence len : ℕ} {aad : Bytes} :
    frameAad type sequence len = .ok aad ↔
      sequence ≤ MAX_U64 ∧ len ≤ MAX_U32 ∧ aad = aadBytes type sequence len := by
  simp only [frameAad, bind_eq_ok, require_eq_ok, decide_eq_true_eq, pure, Except.pure, Except.ok.injEq]
  constructor
  · rintro ⟨_, h1, _, h2, rfl⟩
    exact ⟨h1, h2, rfl⟩
  · rintro ⟨h1, h2, rfl⟩
    exact ⟨(), h1, (), h2, rfl⟩

theorem slice_append_right {a b : Bytes} {i n : ℕ} (h : a.length = i) : slice (a ++ b) i n = b.take n := by
  unfold slice
  rw [← h, List.drop_left]

theorem length_frameBytes {parts : FrameParts} (h : parts.Valid) :
    (frameBytes parts).length = HEADER_SIZE + parts.ciphertext.length + TAG_SIZE := by
  simp only [frameBytes, List.length_append, List.length_cons, List.length_nil, length_beBytes, h.nonce,
    h.tag, HEADER_SIZE, NONCE_SIZE, TAG_SIZE]

theorem beVal_sequence {n : ℕ} (h : n ≤ MAX_U64) : beVal (beBytes 8 n) = n :=
  beVal_beBytes_of_lt (by unfold MAX_U64 at h; omega)

theorem beVal_length {n : ℕ} (h : n ≤ MAX_U32) : beVal (beBytes 4 n) = n :=
  beVal_beBytes_of_lt (by unfold MAX_U32 at h; omega)

section Slices

variable {parts : FrameParts}

theorem slice_sequence : slice (frameBytes parts) 2 8 = beBytes 8 parts.sequence := by
  unfold frameBytes
  rw [List.append_assoc, List.append_assoc, List.append_assoc, List.append_assoc,
    slice_append_right (by rfl), List.take_left' (length_beBytes _ _)]

theorem slice_nonce (h : parts.Valid) : slice (frameBytes parts) 10 NONCE_SIZE = parts.nonce := by
  unfold frameBytes
  rw [List.append_assoc, List.append_assoc, List.append_assoc,
    slice_append_right (by simp), List.take_left' h.nonce]

theorem slice_length (h : parts.Valid) :
    slice (frameBytes parts) 22 4 = beBytes 4 parts.ciphertext.length := by
  unfold frameBytes
  rw [List.append_assoc, List.append_assoc, slice_append_right (by simp [h.nonce, NONCE_SIZE]),
    List.take_left' (length_beBytes _ _)]

theorem slice_ciphertext (h : parts.Valid) :
    slice (frameBytes parts) HEADER_SIZE parts.ciphertext.length = parts.ciphertext := by
  unfold frameBytes
  rw [List.append_assoc, slice_append_right (by simp [h.nonce, NONCE_SIZE, HEADER_SIZE]), List.take_left]

theorem slice_tag (h : parts.Valid) :
    slice (frameBytes parts) (HEADER_SIZE + parts.ciphertext.length) TAG_SIZE = parts.tag := by
  unfold frameBytes
  rw [slice_append_right (by simp [h.nonce, NONCE_SIZE, HEADER_SIZE]; omega), ← h.tag, List.take_length]

end Slices

/-- **A frame that was encoded is decoded.** -/
theorem decodeFrame_encodeFrame {parts : FrameParts} {raw : Bytes} (h : encodeFrame parts = .ok raw) :
    decodeFrame raw = .ok parts := by
  obtain ⟨hv, rfl⟩ := encodeFrame_eq_ok.mp h
  have hlen := length_frameBytes hv
  have hct : beVal (slice (frameBytes parts) 22 4) = parts.ciphertext.length := by
    rw [slice_length hv, beVal_length hv.ciphertext]
  have h0 : (frameBytes parts).getD 0 0 = FRAME_VERSION := rfl
  have h1 : (frameBytes parts).getD 1 0 = parts.type.code := rfl
  unfold decodeFrame
  rw [if_neg (by rw [hlen]; omega)]
  dsimp only
  rw [h0, if_neg (by simp), h1, FrameType.ofCode?_code]
  dsimp only
  rw [hct, if_neg (by rw [hlen]; simp), slice_sequence, beVal_sequence hv.sequence, slice_nonce hv,
    slice_ciphertext hv, slice_tag hv]

theorem length_slice {raw : Bytes} {i n : ℕ} (h : i + n ≤ raw.length) : (slice raw i n).length = n := by
  unfold slice
  rw [List.length_take, List.length_drop]
  omega

theorem slice_add (raw : Bytes) (i n m : ℕ) :
    slice raw i n ++ slice raw (i + n) m = slice raw i (n + m) := by
  unfold slice
  rw [List.take_add, List.drop_drop]

/-- What a byte string that decodes looks like. -/
theorem decodeFrame_eq_ok {parts : FrameParts} {raw : Bytes} (h : decodeFrame raw = .ok parts) :
    raw.getD 0 0 = FRAME_VERSION ∧ FrameType.ofCode? (raw.getD 1 0) = some parts.type ∧
      raw.length = HEADER_SIZE + beVal (slice raw 22 4) + TAG_SIZE ∧
      parts.sequence = beVal (slice raw 2 8) ∧ parts.nonce = slice raw 10 NONCE_SIZE ∧
      parts.ciphertext = slice raw HEADER_SIZE (beVal (slice raw 22 4)) ∧
      parts.tag = slice raw (HEADER_SIZE + beVal (slice raw 22 4)) TAG_SIZE := by
  unfold decodeFrame at h
  split at h
  · cases h
  · dsimp only at h
    split at h
    · cases h
    · rename_i hversion
      split at h
      · cases h
      · rename_i type htype
        split at h
        · cases h
        · rename_i hlen
          cases h
          exact ⟨not_not.mp hversion, htype, not_not.mp hlen, rfl, rfl, rfl, rfl⟩

/-- **A byte string that decodes is the encoding of its frame.** -/
theorem encodeFrame_decodeFrame {parts : FrameParts} {raw : Bytes} (h : decodeFrame raw = .ok parts) :
    encodeFrame parts = .ok raw := by
  obtain ⟨hversion, htype, hlen, hseq, hnonce, hct, htag⟩ := decodeFrame_eq_ok h
  unfold HEADER_SIZE TAG_SIZE at hlen
  have hl8 : (slice raw 2 8).length = 8 := length_slice (by omega)
  have hl4 : (slice raw 22 4).length = 4 := length_slice (by omega)
  have hlct : parts.ciphertext.length = beVal (slice raw 22 4) := by
    rw [hct]
    exact length_slice (by unfold HEADER_SIZE; omega)
  have h8 : beBytes 8 (beVal (slice raw 2 8)) = slice raw 2 8 := by
    have := beBytes_beVal (slice raw 2 8)
    rwa [hl8] at this
  have h4 : beBytes 4 (beVal (slice raw 22 4)) = slice raw 22 4 := by
    have := beBytes_beVal (slice raw 22 4)
    rwa [hl4] at this
  have hhead : [FRAME_VERSION, parts.type.code] = slice raw 0 2 := by
    match raw, hlen, hversion, htype with
    | a :: b :: r, _, hversion, htype =>
      rw [FrameType.code_of_ofCode? htype, ← hversion]
      rfl
  refine encodeFrame_eq_ok.mpr ⟨⟨?_, ?_, ?_, ?_⟩, ?_⟩
  · have := beVal_lt (slice raw 2 8)
    rw [hl8] at this
    unfold MAX_U64
    omega
  · rw [hnonce]
    exact length_slice (by unfold NONCE_SIZE; omega)
  · rw [htag]
    exact length_slice (by unfold HEADER_SIZE TAG_SIZE; omega)
  · have := beVal_lt (slice raw 22 4)
    rw [hl4] at this
    unfold MAX_U32
    omega
  · -- the slices lie side by side
    have join : ∀ n m, slice raw 0 n ++ slice raw n m = slice raw 0 (n + m) := fun n m => by
      simpa using slice_add raw 0 n m
    have hall : slice raw 0 (26 + beVal (slice raw 22 4) + 16) = raw := by
      rw [← hlen]
      simp [slice]
    unfold frameBytes
    rw [hlct, hseq, h8, h4, hhead, hnonce, hct, htag]
    show raw = slice raw 0 2 ++ slice raw 2 8 ++ slice raw 10 12 ++ slice raw 22 4 ++
      slice raw 26 _ ++ slice raw (26 + _) 16
    rw [join, join 10, join 22, join 26, join (26 + _), hall]

theorem peekFrameSequence_of_decode {parts : FrameParts} {raw : Bytes}
    (h : decodeFrame raw = .ok parts) : peekFrameSequence raw = .ok parts.sequence := by
  obtain ⟨hv, rfl⟩ := encodeFrame_eq_ok.mp (encodeFrame_decodeFrame h)
  unfold peekFrameSequence
  rw [if_neg (by rw [length_frameBytes hv]; omega), slice_sequence, beVal_sequence hv.sequence]

/-- What a byte string must be like to decode: the version, a known type, and a length that fits. -/
structure WireFrame (raw : Bytes) : Prop where
  version : raw[0]? = some 1
  type : ∃ type : FrameType, raw[1]? = some type.code
  length : ∃ n < 2 ^ 32, raw.length = 42 + n ∧ slice raw 22 4 = beBytes 4 n

theorem wireFrame_of_decode {parts : FrameParts} {raw : Bytes} (h : decodeFrame raw = .ok parts) :
    WireFrame raw := by
  obtain ⟨hv, rfl⟩ := encodeFrame_eq_ok.mp (encodeFrame_decodeFrame h)
  have hlen := length_frameBytes hv
  have hct := hv.ciphertext
  unfold HEADER_SIZE TAG_SIZE at hlen
  unfold MAX_U32 at hct
  exact ⟨rfl, ⟨parts.type, rfl⟩, parts.ciphertext.length, by omega, by omega, slice_length hv⟩

theorem decode_of_wireFrame {raw : Bytes} (h : WireFrame raw) : ∃ parts, decodeFrame raw = .ok parts := by
  obtain ⟨hversion, ⟨type, htype⟩, n, hn, hlen, hslice⟩ := h
  have hct : beVal (slice raw 22 4) = n := by
    rw [hslice]
    exact beVal_length (by unfold MAX_U32; omega)
  have h0 : raw.getD 0 0 = FRAME_VERSION := by
    rw [List.getD_eq_getElem?_getD, hversion]
    rfl
  have h1 : raw.getD 1 0 = type.code := by
    rw [List.getD_eq_getElem?_getD, htype]
    rfl
  unfold decodeFrame
  rw [if_neg (by unfold HEADER_SIZE TAG_SIZE; omega)]
  dsimp only
  rw [h0, if_neg (by simp), h1, FrameType.ofCode?_code]
  dsimp only
  rw [hct, if_neg (by unfold HEADER_SIZE TAG_SIZE; omega)]
  exact ⟨_, rfl⟩

/-- **Which byte strings decode.** -/
theorem decodeFrame_isOk_iff {raw : Bytes} : (∃ parts, decodeFrame raw = .ok parts) ↔ WireFrame raw :=
  ⟨fun ⟨_, h⟩ => wireFrame_of_decode h, decode_of_wireFrame⟩

/-- **The format is a bijection** between the frames that pass `validateParts` and the byte strings that
decode, and `peekFrameSequence` reads the sequence number of each. -/
theorem frame_codec_bijective :
    (∀ parts, validateParts parts = .ok () →
      ∃ raw, encodeFrame parts = .ok raw ∧ decodeFrame raw = .ok parts) ∧
    (∀ raw parts, decodeFrame raw = .ok parts →
      validateParts parts = .ok () ∧ encodeFrame parts = .ok raw) ∧
    (∀ raw, (∃ parts, decodeFrame raw = .ok parts) ↔ WireFrame raw) ∧
    (∀ raw parts, decodeFrame raw = .ok parts → peekFrameSequence raw = .ok parts.sequence) := by
  refine ⟨?_, ?_, fun raw => decodeFrame_isOk_iff, fun raw parts => peekFrameSequence_of_decode⟩
  · intro parts h
    have henc : encodeFrame parts = .ok (frameBytes parts) :=
      encodeFrame_eq_ok.mpr ⟨validateParts_eq_ok.mp h, rfl⟩
    exact ⟨_, henc, decodeFrame_encodeFrame henc⟩
  · intro raw parts h
    have henc := encodeFrame_decodeFrame h
    exact ⟨validateParts_eq_ok.mpr (encodeFrame_eq_ok.mp henc).1, henc⟩

/-- **The associated data determines what it covers.** -/
theorem frameAad_inj {t t' : FrameType} {n n' l l' : ℕ} {aad : Bytes} (h : frameAad t n l = .ok aad)
    (h' : frameAad t' n' l' = .ok aad) : t = t' ∧ n = n' ∧ l = l' := by
  obtain ⟨hn, hl, rfl⟩ := frameAad_eq_ok.mp h
  obtain ⟨hn', hl', heq⟩ := frameAad_eq_ok.mp h'
  unfold aadBytes at heq
  obtain ⟨hfront, hlen⟩ := List.append_inj heq (by simp)
  obtain ⟨hhead, hseq⟩ := List.append_inj hfront (by simp)
  simp only [List.cons.injEq, true_and, and_true] at hhead
  refine ⟨FrameType.code_injective hhead, ?_, ?_⟩
  · rw [← beVal_sequence hn, ← beVal_sequence hn', hseq]
  · rw [← beVal_length hl, ← beVal_length hl', hlen]

theorem aadBytes_inj {t t' : FrameType} {n n' l l' : ℕ} (hn : n ≤ MAX_U64) (hl : l ≤ MAX_U32) (hn' : n' ≤ MAX_U64)
    (hl' : l' ≤ MAX_U32) (h : aadBytes t n l = aadBytes t' n' l') : t = t' ∧ n = n' ∧ l = l' := by
  have hleft : frameAad t n l = .ok (aadBytes t' n' l') := frameAad_eq_ok.mpr ⟨hn, hl, h.symm⟩
  have hright : frameAad t' n' l' = .ok (aadBytes t' n' l') := frameAad_eq_ok.mpr ⟨hn', hl', rfl⟩
  exact frameAad_inj hleft hright

end ConsensusNode.Tunnel
