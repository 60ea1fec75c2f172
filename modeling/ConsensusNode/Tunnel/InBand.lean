import ConsensusNode.Tunnel.EndToEnd

/-! # Which requests are answered

`resolveProxyResponse` has three `try` blocks. Between the first and the second it decodes the body and takes
the method in upper case, and both fail for values of other types, which the first block has not checked.

* `resolve_answers_iff`: no exception leaves `resolveProxyResponse` exactly for payloads that are `Usable`.
* `answered_iff`: after a completed handshake, one sealed reply is sent exactly for those. -/

namespace ConsensusNode.Tunnel

open Js Crypto Tickets ConsensusNode.Runtime

variable {p : Platform}

/-- `body` is absent, `null`, a string or something that `Buffer.from` takes; `method` is absent, `null` or a
string. -/
structure Usable (p : Platform) (payload : ProxyRequestPayload) : Prop where
  body : payload.body = none ∨ payload.body = some .null ∨ (∃ s, payload.body = some (.str s)) ∨
    ∃ v b, payload.body = some v ∧ p.bufferFrom v = .ok b
  method : payload.method = none ∨ payload.method = some .null ∨ ∃ s, payload.method = some (.str s)

/-- What the frame opens to, if it is a request at all, is usable. -/
def UsableFrame (p : Platform) (receiveKey frame : Bytes) : Prop :=
  ∀ payload, decodePayload p receiveKey frame = .ok payload → Usable p payload

theorem decodeBody_isOk_iff {body encoding : Option Json} : (∃ b, decodeBody p body encoding = .ok b) ↔
    body = none ∨ body = some .null ∨ (∃ s, body = some (.str s)) ∨ ∃ v b, body = some v ∧ p.bufferFrom v = .ok b := by
  rcases body with _ | v
  · exact ⟨fun _ => .inl rfl, fun _ => ⟨_, rfl⟩⟩
  · have hother : (∃ b, (p.bufferFrom v).map (fun b => some (RequestBody.buffer b)) = .ok b) ↔
        ∃ b, p.bufferFrom v = .ok b := by
      rcases p.bufferFrom v with err | b
      · simp [Except.map]
      · simp [Except.map]
    rcases v with _ | _ | _ | s | _ | _
    case null => exact ⟨fun _ => .inr (.inl rfl), fun _ => ⟨_, rfl⟩⟩
    case str => exact ⟨fun _ => .inr (.inr (.inl ⟨s, rfl⟩)), fun _ => ⟨_, rfl⟩⟩
    all_goals
      simp only [decodeBody, hother, reduceCtorEq, Option.some.injEq, exists_const, false_or, exists_and_left,
        exists_eq_left']

theorem payloadMethod_isOk_iff {method : Option Json} : (∃ m, payloadMethod p method = .ok m) ↔
    method = none ∨ method = some .null ∨ ∃ s, method = some (.str s) := by
  rcases method with _ | v
  · exact ⟨fun _ => .inl rfl, fun _ => ⟨_, rfl⟩⟩
  · rcases v with _ | _ | _ | s | _ | _
    case null => exact ⟨fun _ => .inr (.inl rfl), fun _ => ⟨_, rfl⟩⟩
    case str => exact ⟨fun _ => .inr (.inr ⟨s, rfl⟩), fun _ => ⟨_, rfl⟩⟩
    all_goals simp [payloadMethod]

theorem usable_iff {payload : ProxyRequestPayload} : Usable p payload ↔
    (∃ b, decodeBody p payload.body payload.body_encoding = .ok b) ∧ ∃ m, payloadMethod p payload.method = .ok m := by
  rw [decodeBody_isOk_iff, payloadMethod_isOk_iff]
  exact ⟨fun h => ⟨h.body, h.method⟩, fun h => ⟨h.1, h.2⟩⟩

theorem bind_eq_error {α β ε : Type} {x : Except ε α} {f : α → Except ε β} {e : ε} :
    x >>= f = .error e ↔ x = .error e ∨ ∃ a, x = .ok a ∧ f a = .error e := by
  rcases x with e' | a
  · simp [bind, Except.bind]
  · simp [bind, Except.bind]

theorem mapError_eq_error {α ε δ : Type} {x : Except ε α} {f : ε → δ} {d : δ} :
    x.mapError f = .error d ↔ ∃ e, x = .error e ∧ f e = d := by
  rcases x with e | a
  · simp [Except.mapError]
  · simp [Except.mapError]

/-- **An exception that leaves `planServe`** comes from the body or from the method. -/
theorem planServe_eq_throw {receiveKey frame : Bytes} {err : JsError} :
    planServe p receiveKey frame = .error (.throw err) ↔ ∃ payload, decodePayload p receiveKey frame = .ok payload ∧
      (decodeBody p payload.body payload.body_encoding = .error err ∨
        ∃ b, decodeBody p payload.body payload.body_encoding = .ok b ∧
          payloadMethod p payload.method = .error err) := by
  simp only [planServe, bind_eq_error, mapError_eq_error, mapError_eq_ok, pure, Except.pure, reduceCtorEq,
    and_false, exists_false, false_or, or_false, Refusal.throw.injEq, exists_eq_right]

theorem exists_ok_iff {α : Type} {x : Except JsError α} : (∃ a, x = .ok a) ↔ ∀ err, x ≠ .error err := by
  rcases x with err | a
  · simp
  · simp

/-- No exception leaves `planServe` exactly for usable payloads. -/
theorem planServe_not_throw_iff {receiveKey frame : Bytes} :
    (∀ err, planServe p receiveKey frame ≠ .error (.throw err)) ↔ UsableFrame p receiveKey frame := by
  unfold UsableFrame
  simp only [usable_iff, exists_ok_iff (x := payloadMethod p _), ne_eq, planServe_eq_throw, not_exists, not_and,
    not_or]
  constructor
  · intro h payload hpayload
    rcases hbody : decodeBody p payload.body payload.body_encoding with err | body
    · exact absurd hbody (h err payload hpayload).1
    · exact ⟨⟨body, rfl⟩, fun err => (h err payload hpayload).2 body hbody⟩
  · intro h err payload hpayload
    obtain ⟨⟨body, hbody⟩, hmethod⟩ := h payload hpayload
    refine ⟨fun herr => ?_, fun _ _ => hmethod err⟩
    rw [hbody] at herr
    cases herr

/-- **No exception leaves `resolveProxyResponse`** exactly for usable payloads. -/
theorem resolve_answers_iff (deps : DataPlaneServeDeps) (replay : JtiReplayCache) (r : DataRequest) :
    (∀ err, (resolveProxyResponse p deps replay r).1 ≠ .error (.throw err)) ↔
      UsableFrame p r.session.receiveKey r.frame := by
  rw [← planServe_not_throw_iff]
  unfold resolveProxyResponse
  rcases planServe p r.session.receiveKey r.frame with e | plan
  · simp
  · rcases hverify : verifyRequestTicket p r.clock r.clock' (ticketOptions deps plan) (some replay) with
      ⟨e | v, replay'⟩
    · simp [hverify]
    · simp [hverify]

/-! ### The reply -/

theorem answerRequest_isOk_iff (c : Connection) (session : SecureSession) (replay : JtiReplayCache)
    (message : Bytes) : (∃ response, (c.answerRequest p session replay message).1 = .ok response) ↔
      UsableFrame p session.receiveKey message := by
  rw [← resolve_answers_iff c.deps replay ⟨session, message, c.ticketClock, c.replayClock⟩]
  unfold Connection.answerRequest
  rcases resolveProxyResponse p c.deps replay ⟨session, message, c.ticketClock, c.replayClock⟩ with
    ⟨(⟨code, e⟩ | e) | req, replay'⟩
  · simp
  · simp
  · simp

/-- The keys of a session that the node has accepted have 32 bytes. -/
theorem length_acceptInit (hp : Lawful p) {c : Connection} {init accept : Bytes} {session : SecureSession}
    (h : c.acceptInit p init = .ok (session, accept)) : session.sendKey.length = KEY_BYTES := by
  simp only [Connection.acceptInit, bind_eq_ok, pure, Except.pure, Except.ok.injEq, Prod.mk.injEq] at h
  obtain ⟨_, -, H, hH, rfl, -⟩ := h
  obtain ⟨_, _, _, -, -, -, -, -, -, hsession⟩ := acceptDataInit_eq_ok hH
  rw [hsession]
  exact hp.hkdf _ _ _ _

/-- **Answered in-band.** For every request frame, no exception leaves `resolveProxyResponse` if and only if
what the frame opens to, where it is a request, has a usable body and method. So after a completed handshake
the node sends one sealed reply if and only if that is so; replies are at most as long as a frame can carry. -/
theorem answered_iff (p : Platform) :
    (∀ (deps : DataPlaneServeDeps) (replay : JtiReplayCache) (r : DataRequest),
      (∀ err, (resolveProxyResponse p deps replay r).1 ≠ .error (.throw err)) ↔
        UsableFrame p r.session.receiveKey r.frame) ∧
    (Lawful p → ∀ (c : Connection) (init accept : Bytes) (session : SecureSession),
      c.acceptInit p init = .ok (session, accept) → c.responseNonce.length = NONCE_SIZE →
      ∀ (w : DataWorld) (message : Bytes) (rest : List Bytes), w.node = .waitRequest session →
        w.toNode = message :: rest →
        (∀ response, (c.answerRequest p session w.replay message).1 = .ok response →
          (encodeJson (responsePayload c.nativeMessage response)).length ≤ MAX_U32) →
        ((∃ response frame, (c.answerRequest p session w.replay message).1 = .ok response ∧
          c.sealResponse p session response = .ok frame ∧ (c.nodeTurn p w).node = .closed ∧
          (c.nodeTurn p w).toClient = w.toClient ++ [frame]) ↔ UsableFrame p session.receiveKey message)) := by
  refine ⟨resolve_answers_iff, ?_⟩
  intro hp c init accept session hinit hnonce w message rest hw hmessage hsize
  rw [← answerRequest_isOk_iff c session w.replay message]
  rcases hanswer : c.answerRequest p session w.replay message with ⟨err | response, replay, calls⟩
  · have hturn : (c.nodeTurn p w).node = .threw err := by
      unfold Connection.nodeTurn
      rw [hw, hmessage]
      dsimp only
      rw [hanswer]
    constructor
    · rintro ⟨_, _, -, -, hclosed, -⟩
      rw [hturn] at hclosed
      cases hclosed
    · rintro ⟨_, hok⟩
      cases hok
  · rw [hanswer] at hsize
    obtain ⟨frame, _, hseal, -, -⟩ := openFrame_sealFrame hp (length_acceptInit hp hinit) hnonce (hsize response rfl)
    have hframe : c.sealResponse p session response = .ok frame := hseal
    refine ⟨fun _ => ⟨response, rfl⟩, fun _ => ⟨response, frame, rfl, hframe, ?_, ?_⟩⟩
    · unfold Connection.nodeTurn
      rw [hw, hmessage]
      dsimp only
      rw [hanswer]
      dsimp only
      rw [hframe]
    · unfold Connection.nodeTurn
      rw [hw, hmessage]
      dsimp only
      rw [hanswer]
      dsimp only
      rw [hframe]

namespace Sample

/-- The session of the node after the handshake of `connection`. -/
def acceptedSession : SecureSession := (connection proxyTicket).session honest secret .server

/-- The frame of the client's request. -/
def requestMessage : Bytes :=
  (sealFrame honest requestNonce ((connection proxyTicket).session honest secret .client).sendKey .data 0
    (requestText proxyTicket)).toOption.getD []

theorem open_requestMessage : ∃ frame,
    openFrame honest acceptedSession.receiveKey requestMessage = .ok (frame, requestText proxyTicket) ∧
      frame.type = .data := by
  have hnonce : requestNonce.length = NONCE_SIZE := rfl
  have hsize : (requestText proxyTicket).length ≤ MAX_U32 := by
    rw [length_requestText.1]
    decide
  obtain ⟨raw, frame, hseal, hopen, htype⟩ := openFrame_sealFrame lawful_honest
    (length_sendKey lawful_honest (connection proxyTicket) secret .client) hnonce hsize
  have hmessage : requestMessage = raw := by
    unfold requestMessage
    rw [hseal]
    rfl
  rw [hmessage]
  exact ⟨frame, hopen, htype⟩

/-- The node waits for a request, and it has come. -/
def requestWorld : DataWorld where
  client := .start
  node := .waitRequest acceptedSession
  toNode := [requestMessage]
  toClient := []
  replay := .new 100000
  served := []

theorem request_answered :
    (∀ err, (resolveProxyResponse honest (connection proxyTicket).deps requestWorld.replay
      ⟨acceptedSession, requestMessage, JsNumber.ofNat 0, JsNumber.ofNat 0⟩).1 ≠ .error (.throw err)) ∧
    ∃ response frame,
      ((connection proxyTicket).answerRequest honest acceptedSession requestWorld.replay requestMessage).1 =
        .ok response ∧
      (connection proxyTicket).sealResponse honest acceptedSession response = .ok frame ∧
      ((connection proxyTicket).nodeTurn honest requestWorld).node = .closed ∧
      ((connection proxyTicket).nodeTurn honest requestWorld).toClient = requestWorld.toClient ++ [frame] := by
  obtain ⟨_, hopen, htype⟩ := open_requestMessage
  have hfresh : (JtiReplayCache.new 100000).seen.has proxyTicket.input.jti = false := rfl
  have hserve : (connection proxyTicket).serve ((connection proxyTicket).request.plan honest
      (connection proxyTicket).token (some honestPrepared)).served = .ok honestResult := rfl
  obtain ⟨_, hanswer⟩ := answerRequest_sent lawful_honest typed_honestRequest accepted_honestRequest
    (ticketFor_of_returned rfl rfl (returned_honest proxyTicket [])) rfl hfresh hserve hopen htype
  have hframe : UsableFrame honest acceptedSession.receiveKey requestMessage :=
    (answerRequest_isOk_iff (connection proxyTicket) acceptedSession (.new 100000) requestMessage).mp
      ⟨_, congrArg Prod.fst hanswer⟩
  have hid : proxyTicket.input.nodeId ≠ [] := by decide
  obtain ⟨_, -, hinit⟩ := acceptInit_client lawful_honest (canConnect hid)
  have hnode : requestWorld.node = .waitRequest acceptedSession := rfl
  have hmessage : requestWorld.toNode = requestMessage :: [] := rfl
  have hsize : ∀ response,
      ((connection proxyTicket).answerRequest honest acceptedSession requestWorld.replay requestMessage).1 =
        .ok response →
      (encodeJson (responsePayload (connection proxyTicket).nativeMessage response)).length ≤ MAX_U32 := by
    intro response hresponse
    obtain rfl : ProxyResponsePayload.proxy_response honestResult = response :=
      Except.ok.inj ((congrArg Prod.fst hanswer).symm.trans hresponse)
    decide +kernel
  have hanswered := (answered_iff honest).2 lawful_honest _ _ _ _ hinit rfl _ _ _ hnode hmessage hsize
  have hresolved := (answered_iff honest).1 (connection proxyTicket).deps requestWorld.replay
    ⟨acceptedSession, requestMessage, JsNumber.ofNat 0, JsNumber.ofNat 0⟩
  dsimp only at hresolved
  exact ⟨hresolved.mpr hframe, hanswered.mpr hframe⟩

/-! ### A request with a number for a method -/

/-- The text `{"type":"proxy_request","token":"t","target_url":"https://api.example.com/","method":1}`. -/
def numberMethod : Bytes :=
  encodeJson (.obj [(js "type", .str (js "proxy_request")), (js "token", .str (js "t")),
    (js "target_url", .str (js "https://api.example.com/")), (js "method", .num (JsNumber.ofNat 1))])

/-- The client's frame with it. -/
def numberFrame : FrameParts where
  type := .data
  sequence := 0
  nonce := requestNonce
  ciphertext :=
    beBytes 48 0x053bfb972d2135c604960a46c30e5e875fd7640c6dcd5106422aa6e2628cebbb823d1512a37f599ab7a240b26ed93fa4 ++
    beBytes 39 0x5a3f62a68fda185b44588d5b13a15747ab2b3d2d8966171d61000970453f9bde8e582ab66662b5
  tag := beBytes 16 0x8fb4324b733da88dd5c95edfd04771b2

def numberPlatform : Platform where
  __ := platform
  decrypt key nonce aad s :=
    if key = clientToServer ∧ nonce = requestNonce ∧ aad = aadBytes .data 0 87 ∧
      s = numberFrame.ciphertext ++ numberFrame.tag then some numberMethod else none

/-- The node's session with the client, as `nodeRun_answers` derives it. -/
def nodeSession : SecureSession where
  sessionId := hex sessionId
  sendKey := serverToClient
  receiveKey := clientToServer

def numberDeps : DataPlaneServeDeps where
  nodeId := js "node-1"
  pinnedKey := identityKey

def numberRequest : DataRequest where
  session := nodeSession
  frame := frameBytes numberFrame
  clock := JsNumber.ofNat 1700000002
  clock' := JsNumber.ofNat 1700000002

/-- **The exception leaves `resolveProxyResponse`.** -/
theorem number_method_throws :
    (resolveProxyResponse numberPlatform numberDeps (.new 100000) numberRequest).1 = .error (.throw .native) ∧
    ¬ ∀ (deps : DataPlaneServeDeps) (replay : JtiReplayCache) (r : DataRequest) (err : JsError),
      (resolveProxyResponse numberPlatform deps replay r).1 ≠ .error (.throw err) := by
  have hthrow : (resolveProxyResponse numberPlatform numberDeps (.new 100000) numberRequest).1 =
      .error (.throw .native) := by decide +kernel
  exact ⟨hthrow, fun h => h _ _ _ _ hthrow⟩

end Sample

end ConsensusNode.Tunnel
