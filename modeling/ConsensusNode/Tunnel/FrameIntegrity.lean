import ConsensusNode.Tunnel.Delivery

/-! # Sealed frames cannot be changed

One key, and all calls of `sealFrame` that are made with it. The associated data leaves the nonce out and
holds the length once as the length of the plaintext and once as that of the ciphertext; the codec ties the
two ends together.

* `result_of_open`: what opens is the result of one of the calls.
* `sealed_not_malleable`: frames open to what was sealed, nothing else opens, and no byte can be changed. -/

namespace ConsensusNode.Tunnel

open Js Crypto

variable (p : Platform)

/-- A call of `sealFrame` with the nonce that it draws; the arguments pass its checks. -/
structure FrameCall where
  nonce : Bytes
  type : FrameType
  sequence : ℕ
  plaintext : Bytes
  fits : nonce.length = NONCE_SIZE ∧ sequence ≤ MAX_U64 ∧ plaintext.length ≤ MAX_U32

namespace FrameCall

/-- The encryption it makes. -/
def encryption (c : FrameCall) : SealCall := ⟨c.nonce, aadBytes c.type c.sequence c.plaintext.length, c.plaintext⟩

/-- What it returns. -/
def result (key : Bytes) (c : FrameCall) : Except JsError Bytes :=
  sealFrame p c.nonce key c.type c.sequence c.plaintext

end FrameCall

/-- An ideal cipher under one key: what the calls have encrypted has a tag of 16 bytes and can be decrypted,
nothing else can, and no two encryptions give the same bytes. -/
structure IdealCipher (key : Bytes) (calls : Set FrameCall) : Prop where
  length : ∀ c ∈ calls, (c.encryption.output p key).length = c.plaintext.length + TAG_SIZE
  correct : ∀ c ∈ calls, p.decrypt key c.nonce c.encryption.aad (c.encryption.output p key) = some c.plaintext
  genuine : ∀ nonce aad s b, p.decrypt key nonce aad s = some b →
    ∃ c ∈ calls, c.encryption = ⟨nonce, aad, b⟩ ∧ c.encryption.output p key = s
  distinct : ∀ c ∈ calls, ∀ d ∈ calls, c.encryption.output p key = d.encryption.output p key →
    c.encryption = d.encryption

/-- No nonce is drawn twice. -/
def FreshNonces (calls : Set FrameCall) : Prop :=
  ∀ c ∈ calls, ∀ d ∈ calls, c.nonce = d.nonce → c.encryption = d.encryption

variable {p} {key : Bytes} {calls : Set FrameCall}

theorem FrameCall.result_eq_of_encryption {c d : FrameCall} (h : c.encryption = d.encryption) :
    c.result p key = d.result p key := by
  obtain ⟨hnonce, haad, hplain⟩ := SealCall.mk.inj h
  obtain ⟨htype, hsequence, -⟩ := aadBytes_inj c.fits.2.1 c.fits.2.2 d.fits.2.1 d.fits.2.2 haad
  unfold FrameCall.result
  rw [hnonce, htype, hsequence, hplain]

theorem opens_result (hkey : key.length = KEY_BYTES) (h : IdealCipher p key calls) {c : FrameCall}
    (hc : c ∈ calls) : ∃ raw frame, c.result p key = .ok raw ∧ openFrame p key raw = .ok (frame, c.plaintext) ∧
      frame.type = c.type ∧ frame.sequence = c.sequence :=
  openFrame_of_seal hkey c.fits.1 c.fits.2.1 c.fits.2.2 (h.length c hc) (h.correct c hc)

/-- **What opens was sealed.** -/
theorem result_of_open (h : IdealCipher p key calls) {raw plaintext : Bytes} {frame : FrameParts}
    (hopen : openFrame p key raw = .ok (frame, plaintext)) :
    ∃ c ∈ calls, c.result p key = .ok raw ∧ c.type = frame.type ∧ c.sequence = frame.sequence ∧
      c.plaintext = plaintext := by
  obtain ⟨henc, hkey, hdecrypt⟩ := openFrame_eq_ok.mp hopen
  obtain ⟨c, hc, hcall, houtput⟩ := h.genuine _ _ _ _ hdecrypt
  obtain ⟨hnonce, haad, hplain⟩ := SealCall.mk.inj hcall
  have hv := (encodeFrame_eq_ok.mp henc).1
  obtain ⟨htype, hsequence, -⟩ := aadBytes_inj c.fits.2.1 c.fits.2.2 hv.sequence hv.ciphertext haad
  refine ⟨c, hc, ?_, htype, hsequence, hplain⟩
  have hencrypt : p.encrypt key c.nonce (aadBytes c.type c.sequence c.plaintext.length) c.plaintext =
      frame.ciphertext ++ frame.tag := houtput
  refine sealFrame_eq_ok.mpr ⟨hkey, c.fits.2.2, frame.ciphertext, frame.tag, hencrypt, ?_⟩
  rw [htype, hsequence, hnonce]
  exact henc

/-- Where nonce and sealed bytes stand in a frame. -/
theorem parts_of_result {c : FrameCall} {raw : Bytes} (h : c.result p key = .ok raw) :
    slice raw 10 NONCE_SIZE = c.nonce ∧ raw.drop HEADER_SIZE = c.encryption.output p key := by
  obtain ⟨-, -, ciphertext, tag, hencrypt, henc⟩ := sealFrame_eq_ok.mp h
  obtain ⟨hv, rfl⟩ := encodeFrame_eq_ok.mp henc
  refine ⟨slice_nonce hv, ?_⟩
  have hhead : ([FRAME_VERSION, c.type.code] ++ beBytes 8 c.sequence ++ c.nonce ++
      beBytes 4 ciphertext.length).length = HEADER_SIZE := by
    have hnonce : c.nonce.length = 12 := c.fits.1
    simp [hnonce, HEADER_SIZE]
  unfold frameBytes
  rw [List.append_assoc, ← hhead, List.drop_left]
  exact hencrypt.symm

/-- **No byte can be changed.** -/
theorem openFrame_set (h : IdealCipher p key calls) (hfresh : FreshNonces calls) {c : FrameCall}
    (hc : c ∈ calls) {raw : Bytes} (hraw : c.result p key = .ok raw) {i : ℕ} (hi : i < raw.length) {b : UInt8}
    (hb : raw[i] ≠ b) (opened : FrameParts × Bytes) : openFrame p key (raw.set i b) ≠ .ok opened := by
  intro hopen
  obtain ⟨d, hd, hset, -⟩ := result_of_open h (show openFrame p key _ = .ok (opened.1, opened.2) from hopen)
  obtain ⟨hnonce, hsealed⟩ := parts_of_result hraw
  obtain ⟨hnonce', hsealed'⟩ := parts_of_result hset
  -- a change before the ciphertext leaves the sealed bytes, and one after it leaves the nonce
  have hsame : c.encryption = d.encryption := by
    rcases Nat.lt_or_ge i HEADER_SIZE with hlt | hge
    · refine h.distinct c hc d hd ?_
      rw [← hsealed, ← hsealed', List.drop_set_of_lt hlt]
    · refine hfresh c hc d hd ?_
      have hslice : slice (raw.set i b) 10 NONCE_SIZE = slice raw 10 NONCE_SIZE := by
        unfold slice
        unfold HEADER_SIZE at hge
        rw [List.drop_set, if_neg (by omega), List.take_set_of_le (by unfold NONCE_SIZE; omega)]
      rw [← hnonce, ← hnonce', hslice]
  have heq : raw = raw.set i b :=
    Except.ok.inj ((hraw.symm.trans (FrameCall.result_eq_of_encryption hsame)).trans hset)
  have hget : raw[i]? = (raw.set i b)[i]? := by rw [← heq]
  rw [List.getElem?_set_self hi, List.getElem?_eq_getElem hi] at hget
  exact hb (Option.some.inj hget)

/-- **Sealed frames are not malleable.** With an ideal cipher, every call of `sealFrame` gives a frame that
opens to its type, sequence number and plaintext; every byte string that opens is the result of such a call;
and if no nonce is drawn twice, a frame with one byte changed does not open. -/
theorem sealed_not_malleable (p : Platform) (key : Bytes) (hkey : key.length = KEY_BYTES) (calls : Set FrameCall)
    (h : IdealCipher p key calls) :
    (∀ c ∈ calls, ∃ raw frame, c.result p key = .ok raw ∧ openFrame p key raw = .ok (frame, c.plaintext) ∧
      frame.type = c.type ∧ frame.sequence = c.sequence) ∧
    (∀ raw frame plaintext, openFrame p key raw = .ok (frame, plaintext) →
      ∃ c ∈ calls, c.result p key = .ok raw ∧ c.type = frame.type ∧ c.sequence = frame.sequence ∧
        c.plaintext = plaintext) ∧
    (FreshNonces calls → ∀ c ∈ calls, ∀ raw, c.result p key = .ok raw → ∀ i (hi : i < raw.length) b,
      raw[i] ≠ b → ∀ opened, openFrame p key (raw.set i b) ≠ .ok opened) := by
  refine ⟨fun c hc => opens_result hkey h hc, fun raw frame plaintext => result_of_open h, ?_⟩
  intro hfresh c hc raw hraw i hi b hb
  exact openFrame_set h hfresh hc hraw hi hb

/-! ### A log of calls

The acknowledgement of `ackFrame`, the same one again as frame 1, and another one as frame 2. -/

def ackCall : FrameCall where
  nonce := ackFrame.nonce
  type := .data
  sequence := 0
  plaintext := encodeMessage ackInput.message
  fits := by decide +kernel

def againCall : FrameCall where
  nonce := beBytes 12 0x303132333435363738393a3b
  type := .data
  sequence := 1
  plaintext := encodeMessage ackInput.message
  fits := by decide +kernel

def otherCall : FrameCall where
  nonce := beBytes 12 0x404142434445464748494a4b
  type := .data
  sequence := 2
  plaintext := encodeMessage (.obj [(js "type", .str (js "ack")), (js "timestamp", .num (JsNumber.ofNat 1700000001)),
    (js "reply_to", .str (js "r2"))])
  fits := by decide +kernel

/-- The calls with the ciphertext and the tag that they get. -/
def ackLog : List (FrameCall × Bytes) :=
  [(ackCall, ackFrame.ciphertext ++ ackFrame.tag),
    (againCall, beBytes 48 0x2dd63e33b484f5df4a73da6757b40a76a2aeb566b9e07c59be3fd53570ff24d7aeca6980459949e89db811444ddd5428 ++
      beBytes 21 0xd3f8d807541a648ef5be6747f19fe346bcfbff6e49),
    (otherCall, beBytes 48 0x837608f8022fcc3b7aae956b99c34fb9dda1066b309d2c1fdc36e36cda170a5ac083a9410a6910937a0356181e3bcca4 ++
      beBytes 21 0xc3215eeb8389d8d1455a3a38fc9bcab5cfd7e4c955)]

def logTables : Tables where
  sealed := ackLog.map fun x => ((tunnelKey, x.1.nonce, x.1.encryption.aad, x.2), x.1.plaintext)

def ackCalls : Set FrameCall := {c | c ∈ ackLog.map Prod.fst}

theorem ackCalls_ideal : IdealCipher logTables.platform tunnelKey ackCalls := by
  have houtput : ∀ x ∈ ackLog, x.1.encryption.output logTables.platform tunnelKey = x.2 := by decide +kernel
  refine ⟨?_, ?_, ?_, ?_⟩
  · show ∀ c ∈ ackLog.map Prod.fst, _
    decide +kernel
  · show ∀ c ∈ ackLog.map Prod.fst, _
    decide +kernel
  · intro nonce aad s b hb
    obtain ⟨l₁, l₂, heq, -⟩ := List.lookup_eq_some_iff.mp hb
    have hmem : ((tunnelKey, nonce, aad, s), b) ∈ logTables.sealed := by
      rw [heq]
      simp
    obtain ⟨x, hx, hentry⟩ := List.mem_map.mp hmem
    simp only [Prod.mk.injEq, true_and] at hentry
    obtain ⟨⟨rfl, rfl, rfl⟩, rfl⟩ := hentry
    exact ⟨x.1, List.mem_map_of_mem hx, rfl, houtput x hx⟩
  · show ∀ c ∈ ackLog.map Prod.fst, ∀ d ∈ ackLog.map Prod.fst, _
    decide +kernel

theorem ackFrame_not_malleable : ackCall.result logTables.platform tunnelKey = .ok (frameBytes ackFrame) ∧
    (∀ raw frame plaintext, openFrame logTables.platform tunnelKey raw = .ok (frame, plaintext) →
      ∃ c ∈ ackCalls, c.result logTables.platform tunnelKey = .ok raw ∧ c.plaintext = plaintext) ∧
    ∀ i (hi : i < (frameBytes ackFrame).length) b, (frameBytes ackFrame)[i] ≠ b → ∀ opened,
      openFrame logTables.platform tunnelKey ((frameBytes ackFrame).set i b) ≠ .ok opened := by
  have hresult : ackCall.result logTables.platform tunnelKey = .ok (frameBytes ackFrame) := by decide +kernel
  have hfresh : FreshNonces ackCalls := by
    show ∀ c ∈ ackLog.map Prod.fst, ∀ d ∈ ackLog.map Prod.fst, _
    decide +kernel
  have hack : ackCall ∈ ackCalls := by
    show ackCall ∈ ackLog.map Prod.fst
    simp [ackLog]
  obtain ⟨-, hopens, hset⟩ := sealed_not_malleable logTables.platform tunnelKey (by decide +kernel) ackCalls
    ackCalls_ideal
  refine ⟨hresult, ?_, hset hfresh ackCall hack _ hresult⟩
  intro raw frame plaintext hopen
  obtain ⟨c, hc, hraw, -, -, hplain⟩ := hopens raw frame plaintext hopen
  exact ⟨c, hc, hraw, hplain⟩

end ConsensusNode.Tunnel
