import ConsensusNode.Lib.Run
import ConsensusNode.Lib.Window
import ConsensusNode.Tunnel.TunnelClient

/-! # What the tunnel delivers

One end sends messages, the network hands the other end arbitrary bytes. The receiving end is a window over
the sequence numbers (`Receiver.step_rejected`, `Receiver.step_accepted`), and what it opens was sealed by
the sender (`mem_sent_of_receive`), so it takes a sublist of what was sent.

* `accepted_subsequence`: this, that a rejected input changes nothing, and that everything is accepted if
  the network delivers every frame once and in order. -/

namespace ConsensusNode.Tunnel

open Js Crypto Lib Lib.Run

variable (p : Platform)

/-! ### The two ends -/

/-- The encryption that a call of `send` makes. -/
def sealCall (key : Bytes) (sequence : ℕ) (i : SendInput) : Except JsError SealCall := do
  let plaintext := encodeMessage i.message
  let aad ← frameAad i.frameType sequence plaintext.length
  checkKeyNonce key i.nonce
  return ⟨i.nonce, aad, plaintext⟩

/-- The sending end: its client, the frames sent with their payloads, and every encryption it made. -/
structure Sender where
  client : TunnelClient := {}
  sent : List (Bytes × Bytes) := []
  calls : List SealCall := []

def Sender.step (session : SecureSession) (s : Sender) (i : SendInput) : Sender :=
  let calls := match s.client.isOpen, sealCall session.sendKey s.client.sendSequence i with
    | true, .ok c => s.calls ++ [c]
    | _, _ => s.calls
  match s.client.send p session i with
  | (.ok raw, client) => ⟨client, s.sent ++ [(raw, encodeMessage i.message)], calls⟩
  | (.error _, client) => ⟨client, s.sent, calls⟩

/-- The receiving end: its client, and the frames it accepted with their plaintexts. -/
structure Receiver where
  client : TunnelClient := {}
  accepted : List (Bytes × Bytes) := []

def Receiver.step (session : SecureSession) (r : Receiver) (d : TunnelClient.Delivery) : Receiver :=
  match r.client.handleRawMessage p session d with
  | (.accepted _ plaintext _, client) => ⟨client, r.accepted ++ [(d.raw, plaintext)]⟩
  | (.rejected _, client) => ⟨client, r.accepted⟩

/-- The sequence number in a frame. -/
def frameNumber (x : Bytes × Bytes) : ℕ := beVal (slice x.1 2 8)

/-- The window that the receiving end is. -/
def Receiver.window (r : Receiver) : Window (Bytes × Bytes) :=
  ⟨r.client.lastReceiveSequence, r.accepted⟩

/-- An ideal cipher, for the encryptions of the sender and the bytes that arrive: what was encrypted can be
decrypted and is 16 bytes longer, and nothing else of what arrives can be decrypted. -/
structure IdealAead (key : Bytes) (calls : List SealCall) (delivered : List Bytes) : Prop where
  correct : ∀ c ∈ calls, p.decrypt key c.nonce c.aad (c.output p key) = some c.plaintext
  length : ∀ c ∈ calls, (c.output p key).length = c.plaintext.length + TAG_SIZE
  genuine : ∀ raw ∈ delivered, ∀ f, decodeFrame raw = .ok f →
    (p.decrypt key f.nonce (aadBytes f.type f.sequence f.ciphertext.length)
      (f.ciphertext ++ f.tag)).isSome →
    ∃ c ∈ calls, c.nonce = f.nonce ∧ c.aad = aadBytes f.type f.sequence f.ciphertext.length ∧
      c.output p key = f.ciphertext ++ f.tag

/-! ### The sending end -/

variable {p} {key : Bytes}

theorem sealCall_eq_ok {sequence : ℕ} {i : SendInput} {c : SealCall} :
    sealCall key sequence i = .ok c ↔ sequence ≤ MAX_U64 ∧ (encodeMessage i.message).length ≤ MAX_U32 ∧
      key.length = KEY_BYTES ∧ i.nonce.length = NONCE_SIZE ∧
      c = ⟨i.nonce, aadBytes i.frameType sequence (encodeMessage i.message).length,
        encodeMessage i.message⟩ := by
  simp only [sealCall, bind_eq_ok, frameAad_eq_ok, checkKeyNonce_eq_ok, pure, Except.pure, Except.ok.injEq]
  constructor
  · rintro ⟨aad, ⟨h1, h2, rfl⟩, _, ⟨h3, h4⟩, rfl⟩
    exact ⟨h1, h2, h3, h4, rfl⟩
  · rintro ⟨h1, h2, h3, h4, rfl⟩
    exact ⟨_, ⟨h1, h2, rfl⟩, (), ⟨h3, h4⟩, rfl⟩

theorem frameNumber_encode {f : FrameParts} {raw payload : Bytes} (h : encodeFrame f = .ok raw) :
    frameNumber (raw, payload) = f.sequence := by
  obtain ⟨hv, rfl⟩ := encodeFrame_eq_ok.mp h
  unfold frameNumber
  rw [slice_sequence, beVal_sequence hv.sequence]

/-- The item is a frame that one of the encryptions gave. -/
def SealedItem (p : Platform) (key : Bytes) (calls : List SealCall) (x : Bytes × Bytes) : Prop :=
  key.length = KEY_BYTES ∧ ∃ f, encodeFrame f = .ok x.1 ∧
    (⟨f.nonce, aadBytes f.type f.sequence x.2.length, x.2⟩ : SealCall) ∈ calls ∧
    p.encrypt key f.nonce (aadBytes f.type f.sequence x.2.length) x.2 = f.ciphertext ++ f.tag

/-- The call is one of `sealFrame`, and any frame that its output makes was sent. -/
def CallSent (p : Platform) (key : Bytes) (sent : List (Bytes × Bytes)) (c : SealCall) : Prop :=
  ∃ type sequence, frameAad type sequence c.plaintext.length = .ok c.aad ∧
    ∀ ciphertext tag raw, c.output p key = ciphertext ++ tag →
      encodeFrame ⟨type, sequence, c.nonce, ciphertext, tag⟩ = .ok raw → (raw, c.plaintext) ∈ sent

structure SenderInv (p : Platform) (key : Bytes) (s : Sender) : Prop where
  sorted : s.sent.Pairwise fun a b => frameNumber a < frameNumber b
  bound : ∀ x ∈ s.sent, frameNumber x < s.client.sendSequence
  items : ∀ x ∈ s.sent, SealedItem p key s.calls x
  calls : ∀ c ∈ s.calls, CallSent p key s.sent c

theorem SealedItem.mono {calls calls' : List SealCall} {x : Bytes × Bytes}
    (h : SealedItem p key calls x) (hsub : calls ⊆ calls') : SealedItem p key calls' x := by
  obtain ⟨hk, f, he, hc, hs⟩ := h
  exact ⟨hk, f, he, hsub hc, hs⟩

theorem CallSent.mono {sent sent' : List (Bytes × Bytes)} {c : SealCall} (h : CallSent p key sent c)
    (hsub : sent ⊆ sent') : CallSent p key sent' c := by
  obtain ⟨type, sequence, ha, hall⟩ := h
  exact ⟨type, sequence, ha, fun ct tag raw ho he => hsub (hall ct tag raw ho he)⟩

/-- A call of `send` that produces a frame. -/
theorem SenderInv.sent {session : SecureSession} {s : Sender} (h : SenderInv p session.sendKey s)
    {i : SendInput} {raw : Bytes} {c : SealCall}
    (hc : sealCall session.sendKey s.client.sendSequence i = .ok c)
    (hraw : sealFrame p i.nonce session.sendKey i.frameType s.client.sendSequence
      (encodeMessage i.message) = .ok raw) :
    SenderInv p session.sendKey
      ⟨{ s.client with sendSequence := s.client.sendSequence + 1 },
        s.sent ++ [(raw, encodeMessage i.message)], s.calls ++ [c]⟩ := by
  obtain ⟨hseq, hlen, hkey, hnonce, rfl⟩ := sealCall_eq_ok.mp hc
  obtain ⟨-, -, ct, tag, hout, henc⟩ := sealFrame_eq_ok.mp hraw
  have hnum : frameNumber (raw, encodeMessage i.message) = s.client.sendSequence :=
    frameNumber_encode henc
  refine ⟨?_, ?_, ?_, ?_⟩
  · refine List.pairwise_append.mpr ⟨h.sorted, List.pairwise_singleton _ _, fun a ha b hb => ?_⟩
    rw [List.mem_singleton.mp hb, hnum]
    exact h.bound a ha
  · intro x hx
    show frameNumber x < s.client.sendSequence + 1
    rcases List.mem_append.mp hx with hx | hx
    · have := h.bound x hx
      omega
    · rw [List.mem_singleton.mp hx, hnum]
      omega
  · intro x hx
    rcases List.mem_append.mp hx with hx | hx
    · exact (h.items x hx).mono (List.subset_append_left _ _)
    · rw [List.mem_singleton.mp hx]
      exact ⟨hkey, _, henc, by simp, hout⟩
  · intro c' hc'
    rcases List.mem_append.mp hc' with hc' | hc'
    · exact (h.calls c' hc').mono (List.subset_append_left _ _)
    · rw [List.mem_singleton.mp hc']
      refine ⟨i.frameType, s.client.sendSequence, frameAad_eq_ok.mpr ⟨hseq, hlen, rfl⟩, ?_⟩
      intro ct' tag' raw' ho he
      have hraw' := sealFrame_eq_ok.mpr ⟨hkey, hlen, ct', tag', ho, he⟩
      rw [hraw] at hraw'
      cases hraw'
      simp

/-- A call of `send` whose frame cannot be encoded. -/
theorem SenderInv.failed {session : SecureSession} {s : Sender} (h : SenderInv p session.sendKey s)
    {i : SendInput} {c : SealCall} {e : JsError}
    (hc : sealCall session.sendKey s.client.sendSequence i = .ok c)
    (hraw : sealFrame p i.nonce session.sendKey i.frameType s.client.sendSequence
      (encodeMessage i.message) = .error e) :
    SenderInv p session.sendKey
      ⟨{ s.client with sendSequence := s.client.sendSequence + 1 }, s.sent, s.calls ++ [c]⟩ := by
  obtain ⟨hseq, hlen, hkey, hnonce, rfl⟩ := sealCall_eq_ok.mp hc
  refine ⟨h.sorted, fun x hx => ?_, fun x hx => (h.items x hx).mono (List.subset_append_left _ _), ?_⟩
  · have := h.bound x hx
    show frameNumber x < s.client.sendSequence + 1
    omega
  · intro c' hc'
    rcases List.mem_append.mp hc' with hc' | hc'
    · exact h.calls c' hc'
    · rw [List.mem_singleton.mp hc']
      refine ⟨i.frameType, s.client.sendSequence, frameAad_eq_ok.mpr ⟨hseq, hlen, rfl⟩, ?_⟩
      intro ct' tag' raw' ho he
      rw [sealFrame_eq_ok.mpr ⟨hkey, hlen, ct', tag', ho, he⟩] at hraw
      cases hraw

theorem SenderInv.step {session : SecureSession} {s : Sender} (h : SenderInv p session.sendKey s)
    (i : SendInput) : SenderInv p session.sendKey (s.step p session i) := by
  by_cases hopen : s.client.isOpen = true
  · cases hraw : sealFrame p i.nonce session.sendKey i.frameType s.client.sendSequence
        (encodeMessage i.message) with
    | ok raw =>
      obtain ⟨hkey, hlen, ct, tag, hout, henc⟩ := sealFrame_eq_ok.mp hraw
      obtain ⟨hv, -⟩ := encodeFrame_eq_ok.mp henc
      have hc := sealCall_eq_ok.mpr ⟨hv.sequence, hlen, hkey, hv.nonce, rfl⟩
      have hstep := h.sent hc hraw
      simpa [Sender.step, TunnelClient.send, hopen, hraw, hc] using hstep
    | error e =>
      cases hc : sealCall session.sendKey s.client.sendSequence i with
      | ok c =>
        have hstep := h.failed hc hraw
        simpa [Sender.step, TunnelClient.send, hopen, hraw, hc] using hstep
      | error _ =>
        have hstep : SenderInv p session.sendKey
            ⟨{ s.client with sendSequence := s.client.sendSequence + 1 }, s.sent, s.calls⟩ := by
          refine ⟨h.sorted, fun x hx => ?_, h.items, h.calls⟩
          have := h.bound x hx
          show frameNumber x < s.client.sendSequence + 1
          omega
        simpa [Sender.step, TunnelClient.send, hopen, hraw, hc] using hstep
  · have hsame : s.step p session i = s := by
      simp [Sender.step, TunnelClient.send, hopen]
    rw [hsame]
    exact h

theorem senderInv_run (p : Platform) (session : SecureSession) (sends : List SendInput) :
    SenderInv p session.sendKey (run (Sender.step p session) {} sends) := by
  refine run_induct (J := fun _ s => SenderInv p session.sendKey s) (C := fun _ _ _ => True) ?_
    (fun _ i hi _ => hi.step i) (fun _ _ _ _ => trivial)
  refine ⟨List.Pairwise.nil, ?_, ?_, ?_⟩
  · intro x hx
    cases hx
  · intro x hx
    cases hx
  · intro c hc
    cases hc

/-! ### The receiving end -/

theorem dispatch_lastReceiveSequence (c : TunnelClient) (session : SecureSession) (f : FrameParts)
    (plaintext nonce : Bytes) (now : JsNumber) :
    (c.dispatch p session f plaintext nonce now).2.lastReceiveSequence = c.lastReceiveSequence := by
  unfold TunnelClient.dispatch
  split
  · exact (congrArg TunnelClient.lastReceiveSequence (c.send_frame session _)).trans rfl
  · rfl
  · rfl
  · split
    · rfl
    · exact (congrArg TunnelClient.lastReceiveSequence (c.resolvePending_frame _)).trans rfl

theorem receive_eq_ok {c : TunnelClient} {key raw plaintext : Bytes} {f : FrameParts} :
    c.receive p key raw = .ok (f, plaintext) ↔
      c.lastReceiveSequence < f.sequence ∧ openFrame p key raw = .ok (f, plaintext) := by
  simp only [TunnelClient.receive, bind_eq_ok, require_eq_ok, decide_eq_true_eq]
  constructor
  · rintro ⟨n, hn, _, hlt, ho⟩
    obtain ⟨he, -, -⟩ := openFrame_eq_ok.mp ho
    rw [peekFrameSequence_of_decode (decodeFrame_encodeFrame he)] at hn
    cases hn
    exact ⟨hlt, ho⟩
  · rintro ⟨hlt, ho⟩
    obtain ⟨he, -, -⟩ := openFrame_eq_ok.mp ho
    exact ⟨f.sequence, peekFrameSequence_of_decode (decodeFrame_encodeFrame he), (), hlt, ho⟩

/-- **A rejected input leaves the client as it was.** -/
theorem Receiver.step_rejected {session : SecureSession} {r : Receiver} {d : TunnelClient.Delivery}
    {e : JsError} (h : r.client.receive p session.receiveKey d.raw = .error e) :
    r.step p session d = r := by
  unfold Receiver.step TunnelClient.handleRawMessage
  rw [h]

/-- **An accepted input is taken by the window.** -/
theorem Receiver.step_accepted {session : SecureSession} {r : Receiver} {d : TunnelClient.Delivery}
    {f : FrameParts} {plaintext : Bytes}
    (h : r.client.receive p session.receiveKey d.raw = .ok (f, plaintext)) :
    (r.step p session d).window = r.window.offer frameNumber (d.raw, plaintext) := by
  obtain ⟨hlt, ho⟩ := receive_eq_ok.mp h
  obtain ⟨he, -, -⟩ := openFrame_eq_ok.mp ho
  have hnum : frameNumber (d.raw, plaintext) = f.sequence := frameNumber_encode he
  have hoffer : r.window.offer frameNumber (d.raw, plaintext) =
      ⟨f.sequence, r.accepted ++ [(d.raw, plaintext)]⟩ := by
    unfold Window.offer Receiver.window
    rw [hnum, if_neg (by show ¬ (f.sequence : ℤ) ≤ r.client.lastReceiveSequence; omega)]
  rw [hoffer]
  unfold Receiver.step TunnelClient.handleRawMessage Receiver.window
  rw [h]
  dsimp only
  rw [dispatch_lastReceiveSequence]

/-- **What is opened was sent.** -/
theorem mem_sent_of_open {s : Sender} (hs : SenderInv p key s) {delivered : List Bytes}
    (hi : IdealAead p key s.calls delivered) {raw plaintext : Bytes} (hraw : raw ∈ delivered)
    {f : FrameParts} (h : openFrame p key raw = .ok (f, plaintext)) : (raw, plaintext) ∈ s.sent := by
  obtain ⟨he, -, hd⟩ := openFrame_eq_ok.mp h
  obtain ⟨hv, -⟩ := encodeFrame_eq_ok.mp he
  obtain ⟨c, hc, hnonce, haad, hout⟩ := hi.genuine raw hraw f (decodeFrame_encodeFrame he) (by rw [hd]; rfl)
  have hplain : c.plaintext = plaintext := by
    have := hi.correct c hc
    rw [hnonce, haad, hout, hd] at this
    exact (Option.some.inj this).symm
  obtain ⟨type, sequence, ha, hsent⟩ := hs.calls c hc
  obtain ⟨rfl, rfl, -⟩ := frameAad_inj ha
    (haad ▸ frameAad_eq_ok.mpr ⟨hv.sequence, hv.ciphertext, rfl⟩)
  rw [← hplain]
  exact hsent _ _ raw hout (by rw [hnonce]; exact he)

/-- **What was sent can be opened.** -/
theorem open_of_mem_sent {s : Sender} (hs : SenderInv p key s) {delivered : List Bytes}
    (hi : IdealAead p key s.calls delivered) {x : Bytes × Bytes} (hx : x ∈ s.sent) :
    ∃ f, openFrame p key x.1 = .ok (f, x.2) ∧ frameNumber x = f.sequence := by
  obtain ⟨hkey, f, he, hc, hout⟩ := hs.items x hx
  obtain ⟨hv, -⟩ := encodeFrame_eq_ok.mp he
  have hlen : f.ciphertext.length = x.2.length := by
    have := hi.length _ hc
    dsimp only [SealCall.output] at this
    rw [hout, List.length_append, hv.tag] at this
    omega
  have hnumber : frameNumber (x.1, x.2) = f.sequence := frameNumber_encode he
  refine ⟨f, openFrame_eq_ok.mpr ⟨he, hkey, ?_⟩, hnumber⟩
  have := hi.correct _ hc
  unfold SealCall.output at this
  rw [hlen, ← hout]
  exact this

/-! ### Runs -/

/-- The sending end after a list of calls. -/
def senderAfter (p : Platform) (session : SecureSession) (sends : List SendInput) : Sender :=
  run (Sender.step p session) {} sends

/-- The receiving end after a list of inputs. -/
def receiverAfter (p : Platform) (session : SecureSession) (ds : List TunnelClient.Delivery) : Receiver :=
  run (Receiver.step p session) {} ds

/-- What holds of the receiving end while the frames of `s` arrive. -/
structure ReceiverInv (s : Sender) (r : Receiver) : Prop where
  increasing : r.window.Increasing frameNumber
  sent : ∀ x ∈ r.accepted, x ∈ s.sent

theorem ReceiverInv.step {session : SecureSession} {s : Sender} {delivered : List Bytes}
    (hs : SenderInv p session.receiveKey s) (hi : IdealAead p session.receiveKey s.calls delivered)
    {r : Receiver} (h : ReceiverInv s r) {d : TunnelClient.Delivery} (hd : d.raw ∈ delivered) :
    ReceiverInv s (r.step p session d) := by
  cases hrec : r.client.receive p session.receiveKey d.raw with
  | error e =>
    rw [Receiver.step_rejected hrec]
    exact h
  | ok x =>
    obtain ⟨f, plaintext⟩ := x
    have hw := Receiver.step_accepted hrec
    refine ⟨by rw [hw]; exact h.increasing.offer _, ?_⟩
    have hacc : (r.step p session d).accepted = (r.window.offer frameNumber (d.raw, plaintext)).accepted :=
      congrArg Window.accepted hw
    rw [hacc]
    unfold Window.offer
    split_ifs
    · exact h.sent
    · intro x hx
      rcases List.mem_append.mp hx with hx | hx
      · exact h.sent x hx
      · rw [List.mem_singleton.mp hx]
        exact mem_sent_of_open hs hi hd (receive_eq_ok.mp hrec).2

theorem receiverInv_run {session : SecureSession} {s : Sender} {ds : List TunnelClient.Delivery}
    (hs : SenderInv p session.receiveKey s)
    (hi : IdealAead p session.receiveKey s.calls (ds.map TunnelClient.Delivery.raw)) :
    ReceiverInv s (receiverAfter p session ds) := by
  refine run_induct (J := fun _ r => ReceiverInv s r)
    (C := fun _ _ d => d.raw ∈ ds.map TunnelClient.Delivery.raw)
    ⟨Window.increasing_empty, fun x hx => by cases hx⟩ (fun _ d h hd => h.step hs hi hd) ?_
  intro pre d post e
  rw [e]
  simp

/-- A frame that was sent is taken by the window if its number is new, and rejected otherwise. -/
theorem window_step_of_sent {session : SecureSession} {s : Sender} {delivered : List Bytes}
    (hs : SenderInv p session.receiveKey s) (hi : IdealAead p session.receiveKey s.calls delivered)
    {x : Bytes × Bytes} (hx : x ∈ s.sent) {d : TunnelClient.Delivery} (hd : d.raw = x.1) (r : Receiver) :
    (r.step p session d).window = r.window.offer frameNumber x := by
  obtain ⟨f, ho, hnum⟩ := open_of_mem_sent hs hi hx
  rw [← hd] at ho
  cases hrec : r.client.receive p session.receiveKey d.raw with
  | ok y =>
    obtain ⟨f', plaintext⟩ := y
    rw [Receiver.step_accepted hrec]
    have := (receive_eq_ok.mp hrec).2
    rw [ho] at this
    cases this
    rw [hd]
  | error e =>
    have hle : (f.sequence : ℤ) ≤ r.client.lastReceiveSequence := by
      by_contra hlt
      rw [receive_eq_ok.mpr ⟨by omega, ho⟩] at hrec
      cases hrec
    rw [Receiver.step_rejected hrec]
    unfold Window.offer
    rw [hnum]
    exact (if_pos hle).symm

theorem window_run_of_sent {session : SecureSession} {s : Sender} {delivered : List Bytes}
    (hs : SenderInv p session.receiveKey s) (hi : IdealAead p session.receiveKey s.calls delivered) :
    ∀ (xs : List (Bytes × Bytes)) (ds : List TunnelClient.Delivery) (r : Receiver), (∀ x ∈ xs, x ∈ s.sent) →
      ds.map TunnelClient.Delivery.raw = xs.map Prod.fst →
      (run (Receiver.step p session) r ds).window = xs.foldl (Window.offer frameNumber) r.window
  | [], [], _, _, _ => rfl
  | [], _ :: _, _, _, h => by cases h
  | _ :: _, [], _, _, h => by cases h
  | x :: xs, d :: ds, r, hmem, h => by
    obtain ⟨hd, hds⟩ := List.cons.inj h
    rw [run_cons, window_run_of_sent hs hi xs ds _ (fun y hy => hmem y (by simp [hy])) hds,
      window_step_of_sent hs hi (hmem x (by simp)) hd, List.foldl_cons]

/-- **Delivery.** With an ideal cipher, what the receiving end accepts is a subsequence of what was sent,
each frame with its own payload and none of them twice; a rejected input leaves the receiving client
unchanged; and if every frame arrives once and in order, all are accepted. -/
theorem accepted_subsequence (p : Platform) (a b : SecureSession) (hkey : b.receiveKey = a.sendKey)
    (sends : List SendInput) (ds : List TunnelClient.Delivery)
    (hideal : IdealAead p a.sendKey (senderAfter p a sends).calls (ds.map TunnelClient.Delivery.raw)) :
    (receiverAfter p b ds).accepted.Sublist (senderAfter p a sends).sent ∧
    ((receiverAfter p b ds).accepted.map Prod.fst).Nodup ∧
    Steps (Receiver.step p b) (fun _ r d => ∀ e, (r.client.handleRawMessage p b d).1 = .rejected e →
      (r.client.handleRawMessage p b d).2.lastReceiveSequence = r.client.lastReceiveSequence) {} ds ∧
    (ds.map TunnelClient.Delivery.raw = (senderAfter p a sends).sent.map Prod.fst →
      (receiverAfter p b ds).accepted = (senderAfter p a sends).sent) := by
  have hs : SenderInv p a.sendKey (senderAfter p a sends) := senderInv_run p a sends
  rw [← hkey] at hs hideal
  have hinv := receiverInv_run hs hideal
  refine ⟨hinv.increasing.sublist hs.sorted hinv.sent, ?_, ?_, ?_⟩
  · -- equal frames have equal numbers
    have hsorted : (receiverAfter p b ds).accepted.Pairwise fun x y => frameNumber x < frameNumber y :=
      hinv.increasing.sorted
    refine List.pairwise_map.mpr (hsorted.imp fun {x y} hlt heq => ?_)
    unfold frameNumber at hlt
    rw [heq] at hlt
    omega
  · intro pre d post _ e h
    unfold TunnelClient.handleRawMessage at h ⊢
    split at h
    · rfl
    · cases h
  · intro heq
    have hall := window_run_of_sent hs hideal (senderAfter p a sends).sent ds {} (fun x hx => hx) heq
    have hlast : ∀ x ∈ (senderAfter p a sends).sent, ({} : Receiver).window.last < frameNumber x :=
      fun x _ => by
        show (-1 : ℤ) < frameNumber x
        omega
    exact (congrArg Window.accepted hall).trans (Window.offer_all hs.sorted hlast)

/-! ### A run

One acknowledgement is sent; noise arrives, then the frame, then the frame again. -/

def tunnelKey : Bytes := beBytes 32 0x000102030405060708090a0b0c0d0e0f101112131415161718191a1b1c1d1e1f

def ackInput : SendInput where
  message := .obj [(js "type", .str (js "ack")), (js "timestamp", .num (JsNumber.ofNat 1700000000)),
    (js "reply_to", .str (js "r1"))]
  nonce := beBytes 12 0x202122232425262728292a2b

/-- The frame of the acknowledgement, sealed with `tunnelKey` as frame 0. -/
def ackFrame : FrameParts where
  type := .data
  sequence := 0
  nonce := ackInput.nonce
  ciphertext := beBytes 53 0x08c5fc05618ade00b9a4cea36b13adcc12031b416408f23da4db0c938c8beb223387b266e039a50294a39448149e417ae77e5447f3
  tag := beBytes 16 0xf575efe7c1a679be20730b0911474589

def ackTables : Tables where
  sealed := [((tunnelKey, ackFrame.nonce, aadBytes .data 0 53, ackFrame.ciphertext ++ ackFrame.tag),
    encodeMessage ackInput.message)]

def sendingSession : SecureSession where
  sessionId := js "s"
  sendKey := tunnelKey
  receiveKey := []

def receivingSession : SecureSession where
  sessionId := js "s"
  sendKey := []
  receiveKey := tunnelKey

def ackDeliveries : List TunnelClient.Delivery :=
  [[1, 16, 0], frameBytes ackFrame, frameBytes ackFrame].map fun raw => ⟨raw, [], JsNumber.ofNat 0⟩

theorem ackRun_calls : (senderAfter ackTables.platform sendingSession [ackInput]).calls =
    [⟨ackFrame.nonce, aadBytes .data 0 53, encodeMessage ackInput.message⟩] := by
  decide +kernel

theorem ackRun_ideal : IdealAead ackTables.platform tunnelKey
    (senderAfter ackTables.platform sendingSession [ackInput]).calls
    (ackDeliveries.map TunnelClient.Delivery.raw) := by
  rw [ackRun_calls]
  refine ⟨?_, ?_, ?_⟩
  · decide +kernel
  · decide +kernel
  · intro raw hraw f hf _
    have hcases : raw = [1, 16, 0] ∨ raw = frameBytes ackFrame := by
      simpa [ackDeliveries] using hraw
    rcases hcases with rfl | rfl
    · exact absurd hf (by intro h; cases h)
    · have hdec : decodeFrame (frameBytes ackFrame) = .ok ackFrame := by decide
      rw [hdec] at hf
      cases hf
      exact ⟨_, List.mem_singleton_self _, rfl, by decide +kernel, by decide +kernel⟩

theorem ackRun_subsequence :
    (receiverAfter ackTables.platform receivingSession ackDeliveries).accepted =
      [(frameBytes ackFrame, encodeMessage ackInput.message)] ∧
    (receiverAfter ackTables.platform receivingSession ackDeliveries).accepted.Sublist
      (senderAfter ackTables.platform sendingSession [ackInput]).sent :=
  ⟨by decide +kernel, (accepted_subsequence ackTables.platform sendingSession receivingSession rfl
    [ackInput] ackDeliveries ackRun_ideal).1⟩

end ConsensusNode.Tunnel
