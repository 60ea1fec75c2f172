import ConsensusNode.Tunnel.Completeness

/-! # A data-plane request, end to end

An honest client and an honest node, and an ordered, lossless channel between them: in whatever order the
two take their turns, the node calls `serve` once, with the request of the client, and the client returns
what `serve` has returned.

* `served_at_most_once`: no connection calls `serve` twice, whatever its client sends.
* `acceptInit_client`, `sendRequest_accept`, `answerRequest_sent`, `readResponse_sealed`: the four messages.
* `awaits_honest`: the two parties wait for each other, so that the order of the turns is no matter.
* `data_request_completes`: the whole connection. -/

namespace ConsensusNode.Tunnel

open Js Lib.Run Crypto Tickets ConsensusNode.Runtime

variable {p : Platform}

/-! ### Any connection -/

/-- Until the node has a request it has not called `serve`. -/
def AtMostOnce (w : DataWorld) : Prop :=
  w.served.length ≤ 1 ∧
    (w.node = .waitInit ∨ (∃ session, w.node = .waitRequest session) → w.served = [])

theorem length_answerRequest (c : Connection) (session : SecureSession) (replay : JtiReplayCache)
    (message : Bytes) : (c.answerRequest p session replay message).2.2.length ≤ 1 := by
  unfold Connection.answerRequest
  split
  · exact le_refl _
  · exact Nat.zero_le _
  · exact Nat.zero_le _

theorem atMostOnce_clientTurn (c : Connection) {w : DataWorld} (h : AtMostOnce w) :
    AtMostOnce (c.clientTurn p w) := by
  unfold Connection.clientTurn
  split
  · exact h
  · split
    · exact h
    · exact h
  · split
    · exact h
    · exact h
  · exact h

theorem atMostOnce_nodeTurn (c : Connection) {w : DataWorld} (h : AtMostOnce w) :
    AtMostOnce (c.nodeTurn p w) := by
  unfold Connection.nodeTurn
  split
  · rename_i hnode _
    have hnil : w.served = [] := h.2 (.inl hnode)
    split
    · exact ⟨h.1, fun _ => hnil⟩
    · exact ⟨h.1, fun _ => hnil⟩
  · rename_i session message rest hnode _
    have hnil : w.served = [] := h.2 (.inr ⟨session, hnode⟩)
    have hlen := length_answerRequest (p := p) c session w.replay message
    rcases hans : c.answerRequest p session w.replay message with ⟨response | err, replay, calls⟩
    · rw [hans] at hlen
      simp only [hnil, List.nil_append]
      exact ⟨hlen, by simp⟩
    · rw [hans] at hlen
      simp only [hnil, List.nil_append]
      split
      · exact ⟨hlen, by simp⟩
      · exact ⟨hlen, by simp⟩
  · exact h

/-- **No connection calls `serve` twice.** -/
theorem served_at_most_once (c : Connection) (replay : JtiReplayCache) (turns : List Party) :
    (run (turn p c) (connected replay) turns).served.length ≤ 1 := by
  have hinv : AtMostOnce (run (turn p c) (connected replay) turns) := by
    refine run_induct (J := fun _ w => AtMostOnce w) (C := fun _ _ _ => True) ⟨Nat.zero_le _, fun _ => rfl⟩ ?_
      (fun _ _ _ _ => trivial)
    intro pre party h _
    rcases party with _ | _
    · exact atMostOnce_clientTurn c h
    · exact atMostOnce_nodeTurn c h
  exact hinv.1

/-! ### The four messages -/

section Messages

variable {c : Connection} {key : Key} {secret : Bytes}

theorem exact_init (h : IsClock c.initClock) : Exact (c.client p).message.toJson := by
  refine exact_obj ?_ ?_ ?_
  · show [js "type", js "protocol", js "version", js "node_id", js "client_public_key", js "client_nonce",
      js "timestamp"].Nodup
    decide
  · show [js "type", js "protocol", js "version", js "node_id", js "client_public_key", js "client_nonce",
      js "timestamp"].Pairwise _
    decide
  · intro e he
    simp only [List.mem_cons, List.not_mem_nil, or_false] at he
    rcases he with rfl | rfl | rfl | rfl | rfl | rfl | rfl
    · exact exact_str _
    · exact exact_str _
    · exact exact_ofInt (by decide)
    · exact exact_str _
    · exact exact_str _
    · exact exact_str _
    · exact exact_clock h

theorem exact_proofFields (h : IsClock c.acceptClock) (sig : Bytes) : Exact (.obj (c.proofFields p sig)) := by
  refine exact_obj ?_ ?_ ?_
  · show [js "protocol", js "version", js "node_id", js "client_nonce", js "node_nonce", js "timestamp",
      js "channel_binding", js "signature"].Nodup
    decide
  · show [js "protocol", js "version", js "node_id", js "client_nonce", js "node_nonce", js "timestamp",
      js "channel_binding", js "signature"].Pairwise _
    decide
  · intro e he
    have hmem : e ∈ [(js "protocol", Json.str RESPONDER_AUTH_PROTOCOL),
        (js "version", .num (JsNumber.ofNat RESPONDER_AUTH_VERSION)), (js "node_id", .str c.deps.nodeId),
        (js "client_nonce", .str (base64 c.clientNonce)), (js "node_nonce", .str (base64 c.nodeNonce)),
        (js "timestamp", .num c.acceptClock), (js "channel_binding", .str (base64 (c.transcript p))),
        (js "signature", .str (base64 sig))] := he
    simp only [List.mem_cons, List.not_mem_nil, or_false] at hmem
    rcases hmem with rfl | rfl | rfl | rfl | rfl | rfl | rfl | rfl
    · exact exact_str _
    · exact exact_ofInt (by decide)
    · exact exact_str _
    · exact exact_str _
    · exact exact_str _
    · exact exact_clock h
    · exact exact_str _
    · exact exact_str _

theorem exact_accept (h : IsClock c.acceptClock) (sig : Bytes) : Exact (c.accept p secret sig).toJson := by
  refine exact_obj ?_ ?_ ?_
  · show [js "type", js "protocol", js "version", js "node_public_key", js "session_id", js "proof"].Nodup
    decide
  · show [js "type", js "protocol", js "version", js "node_public_key", js "session_id",
      js "proof"].Pairwise _
    decide
  · intro e he
    simp only [List.mem_cons, List.not_mem_nil, or_false] at he
    rcases he with rfl | rfl | rfl | rfl | rfl | rfl
    · exact exact_str _
    · exact exact_str _
    · exact exact_ofInt (by decide)
    · exact exact_str _
    · exact exact_str _
    · exact exact_proofFields h sig

/-- A result as the types of `serve` have it. -/
structure IsResult (result : ProxyResult) : Prop where
  status : IsDouble (JsNumber.ofNat result.status)
  headers : IsRecord result.headers

theorem exact_response {result : ProxyResult} (h : IsResult result) (native : JsString) :
    Exact (responsePayload native (.proxy_response result)) := by
  refine exact_definedFields ?_ ?_ ?_
  · show [js "type", js "status", js "status_text", js "headers", js "body", js "body_encoding", js "cached",
      js "profile_hash"].Nodup
    decide
  · show [js "type", js "status", js "status_text", js "headers", js "body", js "body_encoding", js "cached",
      js "profile_hash"].Pairwise _
    decide
  · intro e he v hv
    simp only [List.mem_cons, List.not_mem_nil, or_false] at he
    rcases he with rfl | rfl | rfl | rfl | rfl | rfl | rfl | rfl
    · cases hv
      exact exact_str _
    · cases hv
      exact ⟨⟨trivial, fixes_num h.status⟩, rfl⟩
    · cases hv
      exact exact_str _
    · cases hv
      exact exact_headersJson h.headers
    · cases hv
      exact exact_str _
    · cases hv
      exact exact_str _
    · cases hv
      exact ⟨⟨trivial, trivial⟩, rfl⟩
    · obtain ⟨hash, -, rfl⟩ := Option.map_eq_some_iff.mp hv
      exact exact_str _

theorem length_sendKey (hp : Lawful p) (c : Connection) (secret : Bytes) (role : TunnelRole) :
    (c.session p secret role).sendKey.length = KEY_BYTES := by
  rcases role with _ | _
  · exact hp.hkdf _ _ _ _
  · exact hp.hkdf _ _ _ _

theorem acceptInit_client (hp : Lawful p) (h : CanConnect p c key secret) :
    ∃ sig, p.sign c.identityPem (signingPayload (unsignedFields (c.unsigned p))) = some sig ∧
      c.acceptInit p (encodeJson (c.client p).message.toJson) =
        .ok (c.session p secret .server, encodeJson (c.accept p secret sig).toJson) := by
  obtain ⟨sig, hsig, haccept⟩ := acceptDataInit_client hp h
  refine ⟨sig, hsig, ?_⟩
  simp only [Connection.acceptInit, bind_eq_ok]
  exact ⟨_, decodeJson_encodeJson (exact_init h.clocks.1), _, haccept, rfl⟩

/-- The client sends a frame that the node can open. -/
theorem sendRequest_accept (hp : Lawful p) (h : CanConnect p c key secret)
    (hnonce : c.requestNonce.length = NONCE_SIZE)
    (hsize : (encodeJson (requestPayload c.token c.request)).length ≤ MAX_U32) {sig : Bytes}
    (hsig : p.sign c.identityPem (signingPayload (unsignedFields (c.unsigned p))) = some sig) :
    ∃ raw frame, c.sendRequest p (c.client p) (encodeJson (c.accept p secret sig).toJson) =
        .ok (c.session p secret .client, raw) ∧
      openFrame p (c.session p secret .server).receiveKey raw =
        .ok (frame, encodeJson (requestPayload c.token c.request)) ∧ frame.type = .data := by
  obtain ⟨raw, frame, hseal, hopen, htype⟩ := openFrame_sealFrame hp (length_sendKey hp c secret .client)
    hnonce hsize
  refine ⟨raw, frame, ?_, hopen, htype⟩
  simp only [Connection.sendRequest, bind_eq_ok]
  exact ⟨_, decodeJson_encodeJson (exact_accept h.clocks.2 sig), _, deriveClientDataSession_accept hp h hsig,
    raw, hseal, rfl⟩

theorem answerRequest_sent (hp : Lawful p) {prepared : Option PreparedProxyProfileV1} (hr : c.request.Typed)
    (ha : c.request.Accepted p prepared) {call : IssueCall} {secretKey : JsString} {exp : JsNumber}
    (ht : TicketFor p c call secretKey exp)
    (hscope : call.input.scope.getD TICKET_SCOPE_PROXY = TICKET_SCOPE_PROXY) {replay : JtiReplayCache}
    (hfresh : replay.seen.has call.input.jti = false) {result : ProxyResult}
    (hserve : c.serve (c.request.plan p c.token prepared).served = .ok result) {session : SecureSession}
    {raw : Bytes} {frame : FrameParts}
    (hopen : openFrame p session.receiveKey raw = .ok (frame, encodeJson (requestPayload c.token c.request)))
    (htype : frame.type = .data) :
    ∃ replay', c.answerRequest p session replay raw =
      (.ok (.proxy_response result), replay', [(c.request.plan p c.token prepared).served]) := by
  obtain ⟨replay', hresolve⟩ := resolveProxyResponse_ticketFor hp hr ha ht hscope hfresh hopen htype
  refine ⟨replay', ?_⟩
  unfold Connection.answerRequest
  simp only [hresolve, hserve]
  rfl

theorem answerRequest_scope (hp : Lawful p) {prepared : Option PreparedProxyProfileV1} (hr : c.request.Typed)
    (ha : c.request.Accepted p prepared) {call : IssueCall} {secretKey : JsString} {exp : JsNumber}
    (ht : TicketFor p c call secretKey exp)
    (hscope : call.input.scope.getD TICKET_SCOPE_PROXY ≠ TICKET_SCOPE_PROXY) {replay : JtiReplayCache}
    {session : SecureSession} {raw : Bytes} {frame : FrameParts}
    (hopen : openFrame p session.receiveKey raw = .ok (frame, encodeJson (requestPayload c.token c.request)))
    (htype : frame.type = .data) :
    c.answerRequest p session replay raw = (.ok (.error .unauthorized SCOPE_MISMATCH), replay, []) := by
  unfold Connection.answerRequest
  simp only [resolveProxyResponse_scope hp hr ha ht hscope hopen htype]

/-- The node sends a frame that the client can read. -/
theorem readResponse_sealed (hp : Lawful p) (hnonce : c.responseNonce.length = NONCE_SIZE)
    {response : ProxyResponsePayload} (hexact : Exact (responsePayload c.nativeMessage response))
    (hsize : (encodeJson (responsePayload c.nativeMessage response)).length ≤ MAX_U32) (secret : Bytes) :
    ∃ raw, c.sealResponse p (c.session p secret .server) response = .ok raw ∧
      Connection.readResponse p (c.session p secret .client) raw =
        .ok (responsePayload c.nativeMessage response) := by
  obtain ⟨raw, frame, hseal, hopen, htype⟩ := openFrame_sealFrame hp (length_sendKey hp c secret .server)
    hnonce hsize
  refine ⟨raw, hseal, ?_⟩
  have hopen' : openFrame p (c.session p secret .client).receiveKey raw = _ := hopen
  simp only [Connection.readResponse, bind_eq_ok, require_eq_ok]
  exact ⟨_, hopen', (), by simp [htype], decodeJson_encodeJson hexact⟩

end Messages

/-! ### The whole connection -/

/-- The turns that a connection needs. -/
def HONEST_TURNS : List Party := [.client, .node, .client, .node, .client]

/-- The response carries what `serve` has returned. -/
structure Delivers (response : Json) (result : ProxyResult) : Prop where
  type : response.field? (js "type") = some (.str (js "proxy_response"))
  status : response.field? (js "status") = some (.num (JsNumber.ofNat result.status))
  headers : response.field? (js "headers") = some (headersJson result.headers)
  body : ∃ text, response.field? (js "body") = some (.str text) ∧ decodeBase64 text = result.body

theorem delivers_responsePayload (native : JsString) (result : ProxyResult) :
    Delivers (responsePayload native (.proxy_response result)) result :=
  ⟨rfl, rfl, rfl, base64 result.body, rfl, decodeBase64_base64 _⟩

/-- What a connection comes to: the calls of `serve`, and the response. -/
structure Completed (w : DataWorld) (calls : List ProxyServeRequest) (response : Json) : Prop where
  served : w.served = calls
  node : w.node = .closed
  client : w.client = .returned response

theorem ignores_node {c : Connection} {w : DataWorld} (h : c.nodeTurn p w = w) (party : Party)
    (hne : party ≠ .client) : turn p c w party = w := by
  rcases party with _ | _
  · exact absurd rfl hne
  · exact h

theorem ignores_client {c : Connection} {w : DataWorld} (h : c.clientTurn p w = w) (party : Party)
    (hne : party ≠ .node) : turn p c w party = w := by
  rcases party with _ | _
  · exact h
  · exact absurd rfl hne

/-- **Each party waits for the other**, whatever the node answers to the request. -/
theorem awaits_answer (hp : Lawful p) {c : Connection} {key : Key} {secret : Bytes}
    (h : CanConnect p c key secret)
    (hnonces : c.requestNonce.length = NONCE_SIZE ∧ c.responseNonce.length = NONCE_SIZE)
    {replay : JtiReplayCache} {answer : ProxyResponsePayload} {calls : List ProxyServeRequest}
    (hanswer : ∀ raw frame, openFrame p (c.session p secret .server).receiveKey raw =
      .ok (frame, encodeJson (requestPayload c.token c.request)) → frame.type = .data →
      ∃ replay', c.answerRequest p (c.session p secret .server) replay raw = (.ok answer, replay', calls))
    (hrequest : (encodeJson (requestPayload c.token c.request)).length ≤ MAX_U32)
    (hexact : Exact (responsePayload c.nativeMessage answer))
    (hresponse : (encodeJson (responsePayload c.nativeMessage answer)).length ≤ MAX_U32) :
    ∃ w, Awaits (turn p c) (connected replay) HONEST_TURNS w ∧
      Completed w calls (responsePayload c.nativeMessage answer) := by
  obtain ⟨sig, hsig, haccept⟩ := acceptInit_client hp h
  obtain ⟨raw, frame, hsend, hopen, htype⟩ := sendRequest_accept hp h hnonces.1 hrequest hsig
  obtain ⟨replay', hanswered⟩ := hanswer raw frame hopen htype
  obtain ⟨raw', hseal, hread⟩ := readResponse_sealed hp hnonces.2 hexact hresponse secret
  let response := responsePayload c.nativeMessage answer
  -- the six worlds of the connection; each is fixed by one party's turn, and waits for the other's
  let w₁ : DataWorld :=
    ⟨.waitAccept (c.client p), .waitInit, [encodeJson (c.client p).message.toJson], [], replay, []⟩
  let w₂ : DataWorld := ⟨.waitAccept (c.client p), .waitRequest (c.session p secret .server), [],
    [encodeJson (c.accept p secret sig).toJson], replay, []⟩
  let w₃ : DataWorld := ⟨.waitResponse (c.session p secret .client), .waitRequest (c.session p secret .server),
    [raw], [], replay, []⟩
  let w₄ : DataWorld := ⟨.waitResponse (c.session p secret .client), .closed, [], [raw'], replay', calls⟩
  let w₅ : DataWorld := ⟨.returned response, .closed, [], [], replay', calls⟩
  have h₁ : turn p c (connected replay) .client = w₁ := rfl
  have h₂ : turn p c w₁ .node = w₂ := by
    show c.nodeTurn p w₁ = w₂
    simp only [Connection.nodeTurn, w₁, haccept, List.nil_append]
    rfl
  have h₃ : turn p c w₂ .client = w₃ := by
    show c.clientTurn p w₂ = w₃
    simp only [Connection.clientTurn, w₂, hsend, List.nil_append]
    rfl
  have h₄ : turn p c w₃ .node = w₄ := by
    show c.nodeTurn p w₃ = w₄
    simp only [Connection.nodeTurn, w₃, hanswered, hseal, List.nil_append]
    rfl
  have h₅ : turn p c w₄ .client = w₅ := by
    show c.clientTurn p w₄ = w₅
    simp only [Connection.clientTurn, w₄, hread]
    rfl
  refine ⟨w₅, ?_, rfl, rfl, rfl⟩
  refine .next (ignores_node rfl) ?_
  rw [h₁]
  refine .next (ignores_client rfl) ?_
  rw [h₂]
  refine .next (ignores_node rfl) ?_
  rw [h₃]
  refine .next (ignores_client rfl) ?_
  rw [h₄]
  refine .next (ignores_node rfl) ?_
  rw [h₅]
  refine .done ?_
  rintro (_ | _)
  · rfl
  · rfl

/-- **End-to-end completeness.** The parties can make a handshake; the request has the types of the client's
interface and its profile is accepted; the ticket was issued for this request and this node, with the scope
of the proxy, and its `jti` is not in the cache; `serve` returns, and neither payload is too long for a
frame. Then in every run in which the two parties get their turns the node calls `serve` once, with the URL,
the upper-cased method and the body of the request, and the client returns the response. -/
theorem data_request_completes (p : Platform) (hp : Lawful p) (c : Connection) (key : Key) (secret : Bytes)
    (h : CanConnect p c key secret)
    (hnonces : c.requestNonce.length = NONCE_SIZE ∧ c.responseNonce.length = NONCE_SIZE)
    (prepared : Option PreparedProxyProfileV1) (hr : c.request.Typed) (ha : c.request.Accepted p prepared)
    (call : IssueCall) (secretKey : JsString) (exp : JsNumber) (ht : TicketFor p c call secretKey exp)
    (hscope : call.input.scope.getD TICKET_SCOPE_PROXY = TICKET_SCOPE_PROXY)
    (replay : JtiReplayCache) (hfresh : replay.seen.has call.input.jti = false) (result : ProxyResult)
    (hserve : c.serve (c.request.plan p c.token prepared).served = .ok result) (hresult : IsResult result)
    (hrequest : (encodeJson (requestPayload c.token c.request)).length ≤ MAX_U32)
    (hresponse : (encodeJson (responsePayload c.nativeMessage (.proxy_response result))).length ≤ MAX_U32)
    (turns : List Party) (hturns : HONEST_TURNS.Sublist turns) :
    ∃ req response, Completed (run (turn p c) (connected replay) turns) [req] response ∧
      c.serve req = .ok result ∧
      req.target_url = c.request.target_url ∧
      req.method = some (p.toUpperCase (c.request.method.getD (js "GET"))) ∧
      req.body = c.request.body.map (fun b => .buffer b.bytes) ∧
      Delivers response result := by
  obtain ⟨w, hwait, hdone⟩ := awaits_answer hp h hnonces
    (fun _ _ hopen htype => answerRequest_sent hp hr ha ht hscope hfresh hserve hopen htype) hrequest
    (exact_response hresult _) hresponse
  have hrun : run (turn p c) (connected replay) turns = w := hwait.run_eq hturns
  rw [hrun]
  exact ⟨_, _, hdone, hserve, rfl, rfl, rfl, delivers_responsePayload _ _⟩

/-- **A ticket of another scope**: the node answers without a call of `serve`. -/
theorem other_scope_refused (hp : Lawful p) {c : Connection} {key : Key} {secret : Bytes}
    (h : CanConnect p c key secret)
    (hnonces : c.requestNonce.length = NONCE_SIZE ∧ c.responseNonce.length = NONCE_SIZE)
    {prepared : Option PreparedProxyProfileV1} (hr : c.request.Typed) (ha : c.request.Accepted p prepared)
    {call : IssueCall} {secretKey : JsString} {exp : JsNumber} (ht : TicketFor p c call secretKey exp)
    (hscope : call.input.scope.getD TICKET_SCOPE_PROXY ≠ TICKET_SCOPE_PROXY) (replay : JtiReplayCache)
    (hrequest : (encodeJson (requestPayload c.token c.request)).length ≤ MAX_U32) {turns : List Party}
    (hturns : HONEST_TURNS.Sublist turns) :
    Completed (run (turn p c) (connected replay) turns) []
      (responsePayload c.nativeMessage (.error .unauthorized SCOPE_MISMATCH)) := by
  have hexact : Exact (responsePayload c.nativeMessage (.error .unauthorized SCOPE_MISMATCH)) := by
    refine exact_obj ?_ ?_ ?_
    · show [js "type", js "code", js "message"].Nodup
      decide
    · show [js "type", js "code", js "message"].Pairwise _
      decide
    · intro e he
      simp only [List.mem_cons, List.not_mem_nil, or_false] at he
      rcases he with rfl | rfl | rfl
      · exact exact_str _
      · exact exact_str _
      · exact exact_str _
  have hsize : (encodeJson (responsePayload c.nativeMessage (.error .unauthorized SCOPE_MISMATCH))).length ≤
      MAX_U32 := by
    show (encodeJson (responsePayload [] (.error .unauthorized SCOPE_MISMATCH))).length ≤ MAX_U32
    decide
  obtain ⟨w, hwait, hdone⟩ := awaits_answer hp h hnonces
    (fun _ _ hopen htype => ⟨replay, answerRequest_scope hp hr ha ht hscope hopen htype⟩) hrequest hexact hsize
  have hrun : run (turn p c) (connected replay) turns = w := hwait.run_eq hturns
  rw [hrun]
  exact hdone

/-! ### A connection -/

namespace Sample

def honestProfile : Json :=
  .obj [(js "protocol", .str PROXY_PROFILE_PROTOCOL), (js "version", .num (JsNumber.ofNat 1)),
    (js "base_url", .str (js "https://api.example.com/")), (js "allowed_methods", .arr [.str (js "post")]),
    (js "allowed_paths", .arr [.str (js "/v1")]), (js "cache_ttl", .num (JsNumber.ofNat 60))]

def honestRequest : ClientRequest where
  target_url := js "https://api.example.com/v1/items"
  method := some (js "post")
  headers := some [(js "Content-Type", js "text/plain")]
  body := some (.text (js "ping"))
  profile := some honestProfile

/-- The profile in its normal form. -/
def honestNormal : ProxyExecutionProfileV1 where
  base_url := js "https://api.example.com/"
  allowed_methods := [js "POST"]
  allowed_paths := [js "/v1"]
  cache_ttl := JsNumber.ofNat 60
  verbose := false
  node_region := none
  node_domain := none
  node_exclude := none
  direct := true

def profileDigestBytes : Bytes :=
  beBytes 32 0x0d336bfe47222c9fe1c094b2d1a49091a5baead6a2da8e61214ccb206839a0d6

def bodyDigestBytes : Bytes :=
  beBytes 32 0x758d61f26a44448384e5c4468a0dcb7a2abe456067b0f7b505bc28b9411fe931

def dedupeDigestBytes : Bytes :=
  beBytes 32 0x1772b32aeb43cdc521e6f4ce7bb66f2f1271b2f207d93af82bebb7f3a726ddac

/-- A ticket for the request: for a node, with a scope or without one. -/
def ticketInput (nodeId : JsString) (scope : Option JsString) : IssueTicketInput where
  nodeId := nodeId
  dedupeKey := hex dedupeDigestBytes
  jti := js "jti-1"
  scope := scope

def proxyTicket : IssueCall where
  clock := JsNumber.ofNat 1700000000
  input := ticketInput (js "node-1") none
  kid := js "orchestrator-1"
  double := isDouble_ofInt (by decide)
  fits := by
    unfold Fits
    decide +kernel

/-- A ticket with another scope. -/
def adminTicket : IssueCall where
  clock := JsNumber.ofNat 1700000000
  input := ticketInput (js "node-1") (some (js "admin"))
  kid := js "orchestrator-1"
  double := isDouble_ofInt (by decide)
  fits := by
    unfold Fits
    decide +kernel

/-- A ticket for a node without a name. -/
def unnamedTicket : IssueCall where
  clock := JsNumber.ofNat 1700000000
  input := ticketInput [] none
  kid := js "orchestrator-1"
  double := isDouble_ofInt (by decide)
  fits := by
    unfold Fits
    decide +kernel

def proxySignature : Bytes :=
  beBytes 48 0x1bf1fc8e908fdb285c6d410ad0d3e28558b3314f330ba2be7887fe7a30ca6f6d120cec3e641b272755ba35b0b1126cce ++
  beBytes 16 0xdc7927e015937b1113e5267c1d25090a

def adminSignature : Bytes :=
  beBytes 48 0xdc577e877bd1e8765ce8fc286ac6cc7880cf81d2fde2b551da934e7aa0c428016103221618cea8058c34879da1299116 ++
  beBytes 16 0x94bc9e2dd58cf24aa92e246431877e01

def unnamedSignature : Bytes :=
  beBytes 48 0x4fad648bb3650933cd7b698f237135199282135fcd852c0aeb6cfc2a1684e556ff7061730cdf46ba6a007b7416a01eaa ++
  beBytes 16 0x31bd071e2fc0000d34c252c9bdfd4c03

def honestTables : Tables where
  digests := tables.digests ++ [
    (utf8 (stringify (stableValue (profileJson honestNormal))), profileDigestBytes),
    (utf8 (js "ping"), bodyDigestBytes),
    (utf8 (stableStringify (.obj (canonicalRequest (js "POST") (js "https://api.example.com/v1/items")
      [(js "content-type", js "text/plain")] (hex bodyDigestBytes) (some (hex profileDigestBytes))))),
      dedupeDigestBytes)]
  urls := [
    (js "https://api.example.com/", .plain (js "https:") (js "api.example.com") (js "/")),
    (js "https://api.example.com/v1/items", .plain (js "https:") (js "api.example.com") (js "/v1/items"))]

def signatures : List (Bytes × Bytes) :=
  [(signingPayload (unsignedFields proof), signature), (proxyTicket.sign.payload, proxySignature),
    (adminTicket.sign.payload, adminSignature), (unnamedTicket.sign.payload, unnamedSignature)]

def signatureOf (payload : Bytes) : Bytes := (signatures.lookup payload).getD (List.replicate SIG_LEN 0)

/-- `new URL("/v1", PROFILE_BASE)`. -/
def pathUrl (s base : JsString) : Option Url :=
  if s = js "/v1" ∧ base = PROFILE_BASE then some (.plain (js "http:") (js "profile.local") (js "/v1")) else none

def tokenOf (call : IssueCall) : JsString := tokenText call.sign.m (signatureOf call.sign.payload) call.sign.f

def requestText (call : IssueCall) : Bytes := encodeJson (requestPayload (tokenOf call) honestRequest)

def honestResult : ProxyResult where
  status := 200
  statusText := js "OK"
  headers := [(js "content-type", js "text/plain")]
  body := utf8 (js "pong")
  cached := false
  profile_hash := some (hex profileDigestBytes)

def scopeRefused : ProxyResponsePayload := .error .unauthorized (.thrown (js "ticket: scope mismatch"))

def responseText (response : ProxyResponsePayload) : Bytes := encodeJson (responsePayload [] response)

def requestNonce : Bytes := List.replicate 12 0x66

def responseNonce : Bytes := List.replicate 12 0x77

def proxyRequestSealed : Bytes :=
  beBytes 48 0x053bfb972d2135c604960a46c30e5e875fd7640c6dcd5106422aa6e2628cebbb823f0310f17e5a84b9a41a8862e123e5 ++
  beBytes 48 0x5350639d92e00103594296712dba485b920b3923df021e134b7951382f1896cea10e37dd3524a1feb9b9cf4c908b214b ++
  beBytes 48 0x9a5d5bde27cc5b3a5057a29d5192f80e1af04d8f4a0df63c20600d4e49b36ec0ca6afbc6d28cab21f9e7e788b597aa15 ++
  beBytes 48 0xb00480e85c12d0e485c201e703b554e68b6c1ca76bc1af042215fbe58acc3596271b25fe8b450dfd2a1cffe3b41924b7 ++
  beBytes 48 0x4faad7d58f77b352122daa1f72f974468acc3dbcce5198e6700a5eb2bdf2190697a764dacbe361ae68cfb11c9782524c ++
  beBytes 48 0x498a133742bec40e449e73fd87bb3a179924314710f98492e9d8cca339b0b708d6ffe340ed6055b9071da4ef61bd72d7 ++
  beBytes 48 0xfe8041e21771e995f0a12511164952fcf60366352fb81d8206329e7d29fb9cfdcb886f71dd818abbc453a08fc3f24f50 ++
  beBytes 48 0xca807caff0f0e5acf53fac97846113ab6e8f399000eecdddff6fd20d78d9c00d6ee9cd29c5e531c14d2888b65ba4e6bf ++
  beBytes 48 0xccd67cca0c8b1112d38bfd5de04c4adc2c1759ead77c96aaade4f25547b4448b1bad74a6f474bd76e7c12a819b927102 ++
  beBytes 48 0xfb3fdc7483382709788bd8dffb3bd293333263dbef9f5b22c10bb20d383456b19dc432afd702499d91abada6a0ab4003 ++
  beBytes 48 0x4d361ae298ec82066311f77fd77ca919a155da6a7debb9ab84799e40ccfb8d409ffab26ef680a6605868cae553fef1da ++
  beBytes 48 0xe4ddf60d9231fd0e0bfcd7244efdb487468cf2a8495d91ca5ad0489f45f15e0b9577e42e38db643d881bdf76007c196e ++
  beBytes 48 0xa9947cbd12099242cef7998d660608fa571c6fcd28a888df492a41ffa74dd992cc4cefa6eaf53c246849cbe1dc7b1905 ++
  beBytes 48 0x447eeee7bf86ce25c791055e1fe8c745164d6504ed493b337b96fc2b75aae56ac3f49e215b2421544cd4893cb00acc06 ++
  beBytes 48 0xa76f226466fa98df99480b2006e080ede2b94a04e8b0ddc90bf6d655c4456561c94d967848b02d5e891af17e18eef2b1 ++
  beBytes 17 0x087cffff683f5c47830df9e4da5cd5cad1

def proxyResponseSealed : Bytes :=
  beBytes 48 0x872a74a13e238688c4379c2365b91254a50111637913e1cf3f62054a6b2d801e254ef97031a6ba6dbeeab8d4767aead6 ++
  beBytes 48 0xc7166456b73e9f1722cfe5ce29725483e6aa0766bafc74a3ac76671b469aed9939e0be094a344efebe14d61f2d70e44d ++
  beBytes 48 0xbe149461eaf872128b567d7d0980e3a5d48834ef4ba3c1023bc7b8652342550cd06c0e67469708eee2e99f6cf40ce26e ++
  beBytes 48 0x75978b70fdb8016b311d65b6c41d52a9e12b537a6f9518f95ef4ba91cb56cdec7805886409dafc028bf2870ac8e76784 ++
  beBytes 48 0x54f40c793f31454bdefa89ee23d885875f43245a15029104d01d015184569b8a17fad7975aa933a6c559d41fb3898644 ++
  beBytes 13 0xdeb5eb8e05a24737a1d227cac8

def adminRequestSealed : Bytes :=
  beBytes 48 0x053bfb972d2135c604960a46c30e5e875fd7640c6dcd5106422aa6e2628cebbb823f0310f17e5a84b9a41a8862e123e5 ++
  beBytes 48 0x5350639d92e00103594296712dba485b920b3923df021e134b7951382f1896cea10e37dd3524a1feb9b9cf4c908b214b ++
  beBytes 48 0x9a5d5bde27cc5b3a5057a29d5192f80e1af04d8f4a0df63c20600d4e49b36ec0ca6afbc6d28cab21f9e7e788b597aa15 ++
  beBytes 48 0xb00480e85c12d0e485c201e703b554e68b6c1ca76bc1af042215fbe58acc3596271b25fe8b450dfd2a1cffe3b41924b7 ++
  beBytes 48 0x4faad7d58f77b352122daa1f72f974468acc3dbcce5198dc6f125cb6a2ad190697a764dacbe361ae68cfb11c9782524c ++
  beBytes 48 0x498a133742bec40e449e73fd87bb3a179924314710f98492e9d8cca339b0b708d6ffe340ed6055b9071da4ef61bd72d7 ++
  beBytes 48 0xc88e61db31238fcfacba78111e1228f4c535757b0887058b483c9d6f3bc5c4dec190737add9f9abaea0d9693f5c55546 ++
  beBytes 48 0xcfbb5194c8c3fe97d60dbf8b854632976aa434b4449ccddc9c56cb3906b8c631689ee90cf3cf31c14d2888b65ba4e6bf ++
  beBytes 48 0xccd67cca0c8b1112d38bfd5de04c4adc2c1759ead77c96aaade4f25547b4448b1bad74a6f474bd76e7c12a819b927102 ++
  beBytes 48 0xfb3fdc7483382709788bd8dffb3bd293333263dbef9f5b22c10bb20d383456b19dc432afd702499d91abada6a0ab4003 ++
  beBytes 48 0x4d361ae298ec82066311f77fd77ca919a155da6a7debb9ab84799e40ccfb8d409ffab26ef680a6605868cae553fef1da ++
  beBytes 48 0xe4ddf60d9231fd0e0bfcd7244efdb487468cf2a8495d91ca5ad0489f45f15e0b9577e42e38db643d881bdf76007c196e ++
  beBytes 48 0xa9947cbd12099242cef7998d660608fa571c6fcd28a888df492a41ffa74dd992cc4cefa6eaf53c246849cbe1dc7b1905 ++
  beBytes 48 0x447eeee7bf86ce25c791055e1fe8c745164d6504ed493b337b96fc2b75aae56ac3f49e215b2421544cd4893cb00acc06 ++
  beBytes 48 0xa76f226466fa98df99480b2006e080ede2b94a04e8b0ddc90bf6d655c4456561c94d967848b02d5e891af17e18eef2b1 ++
  beBytes 17 0x08c308a0c6c5a6f74ea96b98ccfa2e347e

def adminResponseSealed : Bytes :=
  beBytes 48 0x872a74a13e238688c4229c3e72b26f0ae2110e687242becf662e174b7e319a1f6e0eae2423a6ba73aff8bfc06240bc89 ++
  beBytes 41 0x9d162f0ffe14a00f2e9eeec43873119cfcfb507cecfc73efa56e15286dfa41b6b3cb0260e1cf6ca648

/-- One sealed frame: key, nonce, associated data, plaintext, and the ciphertext with its tag. -/
structure SealedFrame where
  key : Bytes
  nonce : Bytes
  aad : Bytes
  plain : Bytes
  sealed : Bytes

def requestFrame (call : IssueCall) (sealed : Bytes) : SealedFrame :=
  ⟨clientToServer, requestNonce, aadBytes .data 0 (requestText call).length, requestText call, sealed⟩

def responseFrame (response : ProxyResponsePayload) (sealed : Bytes) : SealedFrame :=
  ⟨serverToClient, responseNonce, aadBytes .data 0 (responseText response).length, responseText response, sealed⟩

def frames : List SealedFrame :=
  [requestFrame proxyTicket proxyRequestSealed, responseFrame (.proxy_response honestResult) proxyResponseSealed,
    requestFrame adminTicket adminRequestSealed, responseFrame scopeRefused adminResponseSealed]

/-- The frames above as they are sealed, and any other plaintext with 16 zero bytes. -/
def sealWith (key nonce aad b : Bytes) : Bytes :=
  match frames.find? fun f => f.key = key ∧ f.nonce = nonce ∧ f.aad = aad ∧ f.plain = b with
  | some f => f.sealed
  | none => b ++ List.replicate TAG_SIZE 0

def openWith (key nonce aad s : Bytes) : Option Bytes :=
  match frames.find? fun f => f.key = key ∧ f.nonce = nonce ∧ f.aad = aad ∧ f.sealed = s with
  | some f => some f.plain
  | none => if s.drop (s.length - TAG_SIZE) = List.replicate TAG_SIZE 0 then some (s.take (s.length - TAG_SIZE))
      else none

/-- The keys that are derived from the secret, as long as they are asked for. -/
def deriveBytes (info : Bytes) (n : ℕ) : Bytes :=
  if (derived info).length = n then derived info else List.replicate n 0

def honest : Platform where
  __ := honestTables.platform
  parseUrlBase := pathUrl
  publicKeyOfPem s := if s = publicPem then some identityKey else none
  sign _ payload := some (signatureOf payload)
  verify _ payload sig := decide (sig = signatureOf payload)
  ecdhPublic := platform.ecdhPublic
  ecdh := platform.ecdh
  hkdf _ _ info n := deriveBytes info n
  encrypt := sealWith
  decrypt := openWith

/-- The client's request with a ticket, and a node that answers it. -/
def connection (call : IssueCall) : Connection where
  expectedNodeId := call.input.nodeId
  expectedNodePublicKeyPem := publicPem
  token := tokenOf call
  request := honestRequest
  clientKey := clientKey
  clientNonce := clientNonce
  requestNonce := requestNonce
  initClock := JsNumber.ofNat 1700000000
  proofClock := JsNumber.ofNat 1700000001
  deps := { nodeId := call.input.nodeId, pinnedKey := orchestratorKey }
  identityPem := privatePem
  nodeKey := nodeKey
  nodeNonce := nodeNonce
  responseNonce := responseNonce
  acceptClock := JsNumber.ofNat 1700000000
  ticketClock := JsNumber.ofNat 1700000002
  replayClock := JsNumber.ofNat 1700000002
  serve := fun _ => .ok honestResult
  nativeMessage := []

/-- The ticket and the proof are good when they are checked. -/
theorem clocks_honest :
    checkAge (JsNumber.ofNat 1700000000) (JsNumber.ofNat 1700000001) = .ok () ∧
    (JsNumber.ofNat 1700000000).add DEFAULT_TTL_SEC = some (JsNumber.ofNat 1700000060) ∧
    isExpired (JsNumber.ofNat 1700000060) DEFAULT_CLOCK_TOLERANCE_SEC (JsNumber.ofNat 1700000002) = false ∧
    isFuture (JsNumber.ofNat 1700000000) DEFAULT_CLOCK_TOLERANCE_SEC (JsNumber.ofNat 1700000002) = false := by
  decide +kernel

def honestPrepared : PreparedProxyProfileV1 where
  profile := honestNormal
  profile_hash := hex profileDigestBytes
  headers := [(js "Content-Type", js "text/plain"), (js "x-cache-ttl", js "60"), (js "x-direct", js "true")]

theorem accepted_honestRequest : honestRequest.Accepted honest (some honestPrepared) := by
  show prepareProxyProfileRequestV1 honest _ _ _ _ = _
  decide +kernel

theorem dedupeKey_honestRequest : generateDedupeKey honest
    (honestRequest.dedupeParams (some (hex profileDigestBytes))) = .ok (hex dedupeDigestBytes) := by
  decide +kernel

theorem asciiUpper_asciiUpper (s : JsString) : asciiUpper (asciiUpper s) = asciiUpper s := by
  unfold asciiUpper
  rw [List.map_map]
  refine List.map_congr_left fun c _ => ?_
  have hrange : ¬ (97 ≤ (if 97 ≤ c ∧ c ≤ 122 then c - 32 else c) ∧
      (if 97 ≤ c ∧ c ≤ 122 then c - 32 else c) ≤ 122) := by
    split_ifs with h
    · intro hlow
      have h32 : (32 : UInt16) ≤ c := UInt16.le_trans (by decide) h.1
      have hle := UInt16.le_iff_toNat_le.mp hlow.1
      have htop := UInt16.le_iff_toNat_le.mp h.2
      rw [UInt16.toNat_sub_of_le _ _ h32] at hle
      simp only [UInt16.reduceToNat] at hle htop
      omega
    · exact h
  exact if_neg hrange

theorem digest_honest (b : Bytes) : honest.sha256 b ≠ [] := by
  have hne : ∀ e ∈ honestTables.digests, e.2 ≠ [] := by decide
  show (honestTables.digests.lookup b).getD (b ++ List.replicate 33 0) ≠ []
  rcases h : honestTables.digests.lookup b with _ | d
  · simp
  · exact hne _ (honestTables.mem_digests h)

theorem length_deriveBytes (info : Bytes) (n : ℕ) : (deriveBytes info n).length = n := by
  unfold deriveBytes
  split_ifs with h
  · exact h
  · exact List.length_replicate

theorem length_requestText : (requestText proxyTicket).length = 721 ∧ (requestText adminTicket).length = 721 := by
  decide +kernel

/-- The frames are longer than their plaintexts by a tag, which is not zero, and no two are the same. -/
theorem frames_wellFormed : (∀ f ∈ frames, f.sealed.length = f.plain.length + TAG_SIZE) ∧
    (∀ f ∈ frames, f.sealed.drop (f.sealed.length - TAG_SIZE) ≠ List.replicate TAG_SIZE 0) ∧
    (frames.map SealedFrame.sealed).Nodup := by
  decide +kernel

theorem length_sealWith (key nonce aad b : Bytes) : (sealWith key nonce aad b).length = b.length + TAG_SIZE := by
  unfold sealWith
  split
  · rename_i f hf
    have hprop := List.find?_some hf
    simp only [decide_eq_true_eq] at hprop
    rw [frames_wellFormed.1 f (List.mem_of_find?_eq_some hf), hprop.2.2.2]
  · simp

theorem openWith_sealWith (key nonce aad b : Bytes) : openWith key nonce aad (sealWith key nonce aad b) = some b := by
  unfold sealWith
  split
  · rename_i f hf
    have hprop := List.find?_some hf
    simp only [decide_eq_true_eq] at hprop
    obtain ⟨hkey, hnonce, haad, hplain⟩ := hprop
    have hmem := List.mem_of_find?_eq_some hf
    unfold openWith
    split
    · rename_i g hg
      have hgprop := List.find?_some hg
      simp only [decide_eq_true_eq] at hgprop
      obtain rfl : g = f := List.inj_on_of_nodup_map frames_wellFormed.2.2 (List.mem_of_find?_eq_some hg) hmem
        hgprop.2.2.2
      rw [hplain]
    · rename_i hnone
      have := List.find?_eq_none.mp hnone f hmem
      simp [hkey, hnonce, haad] at this
  · unfold openWith
    split
    · rename_i g hg
      have hgprop := List.find?_some hg
      simp only [decide_eq_true_eq] at hgprop
      refine absurd ?_ (frames_wellFormed.2.1 g (List.mem_of_find?_eq_some hg))
      rw [hgprop.2.2.2]
      simp
    · simp

theorem lawful_honest : Lawful honest where
  case := ⟨fun _ _ => rfl, fun _ _ => rfl⟩
  upper := asciiUpper_asciiUpper
  digest := digest_honest
  hkdf := fun _ _ info n => length_deriveBytes info n
  sealed := length_sealWith
  opens := fun key nonce aad b _ _ => openWith_sealWith key nonce aad b

/-- Both keys of the connection sign with the table above. -/
theorem keyPair_honest (pem : JsString) (key : Key) : KeyPair honest pem key := by
  have hlen : ∀ payload, (signatureOf payload).length = SIG_LEN := by
    intro payload
    unfold signatureOf
    rcases h : signatures.lookup payload with _ | sig
    · rfl
    · obtain ⟨l₁, l₂, heq, -⟩ := List.lookup_eq_some_iff.mp h
      have hmem : (payload, sig) ∈ signatures := by
        rw [heq]
        simp
      have hall : ∀ e ∈ signatures, e.2.length = SIG_LEN := by decide
      exact hall _ hmem
  intro payload
  exact ⟨signatureOf payload, rfl, hlen payload, decide_eq_true rfl⟩

theorem canConnect {call : IssueCall} (h : call.input.nodeId ≠ []) :
    CanConnect honest (connection call) identityKey secret where
  node := rfl
  node_ne := h
  pinned := rfl
  identity := keyPair_honest _ _
  points := by
    show platform.ecdhPublic clientKey ≠ [] ∧ platform.ecdhPublic nodeKey ≠ []
    decide
  ecdh := by
    show platform.ecdh clientKey (platform.ecdhPublic nodeKey) = some secret ∧
      platform.ecdh nodeKey (platform.ecdhPublic clientKey) = some secret
    decide
  nonces := ⟨rfl, rfl⟩
  clocks := ⟨⟨1700000000, by norm_num, rfl⟩, ⟨1700000000, by norm_num, rfl⟩⟩
  age := clocks_honest.1

theorem typed_honestRequest : honestRequest.Typed where
  headers := by
    intro hs h
    cases h
    unfold IsRecord
    decide
  profile := by
    intro v h
    cases h
    refine ⟨readable_obj_iff.mpr ⟨by decide, ordered_iff_keys.mpr (by decide), ?_⟩, ?_⟩
    · intro e he
      simp only [List.mem_cons, List.not_mem_nil, or_false] at he
      rcases he with rfl | rfl | rfl | rfl | rfl | rfl
      · exact readable_str _
      · exact (exact_ofInt (by norm_num)).1
      · exact readable_str _
      · exact ⟨⟨trivial, trivial⟩, trivial, trivial⟩
      · exact ⟨⟨trivial, trivial⟩, trivial, trivial⟩
      · exact (exact_ofInt (by norm_num)).1
    · intro fs hfs e he hkey
      cases hfs
      simp only [List.mem_cons, List.not_mem_nil, or_false] at he
      rcases he with rfl | rfl | rfl | rfl | rfl | rfl
      · exact .text _ (by decide)
      · exact .number _ (by decide)
      · exact .text _ (by decide)
      · exact .texts [_] (by decide)
      · exact .texts [_] (by decide)
      · exact .number _ (by decide)

/-- A ticket for the request is good at the time of the connection. -/
theorem ticketFor_of_returned {call : IssueCall} {nodeId : JsString} {scope : Option JsString}
    (hinput : call.input = ticketInput nodeId scope) (hnow : call.now = JsNumber.ofNat 1700000000)
    {secretKey : JsString} (h : call.Returned honest secretKey (tokenOf call)) :
    TicketFor honest (connection call) call secretKey (JsNumber.ofNat 1700000060) where
  issued := h
  key := keyPair_honest _ _
  node := rfl
  request := by
    refine ⟨some (hex profileDigestBytes), profileHash_accepted accepted_honestRequest, ?_⟩
    rw [hinput]
    exact dedupeKey_honestRequest
  jti := by
    rw [hinput]
    show js "jti-1" ≠ []
    decide
  expires := by
    rw [hnow, hinput]
    exact clocks_honest.2.1
  finite := by
    rw [hnow]
    exact ⟨⟨_, _, rfl⟩, _, _, rfl⟩
  unexpired := clocks_honest.2.2.1
  started := by
    rw [hnow]
    exact clocks_honest.2.2.2

theorem returned_honest (call : IssueCall) (secretKey : JsString) :
    call.Returned honest secretKey (tokenOf call) :=
  signV4Public_eq_some.mpr ⟨_, rfl, rfl⟩

/-- The client posts `ping` and gets `pong`. -/
theorem honestRequest_completes : ∃ req response,
    Completed (run (turn honest (connection proxyTicket)) (connected (.new 100000)) HONEST_TURNS) [req] response ∧
      req.target_url = js "https://api.example.com/v1/items" ∧ req.method = some (js "POST") ∧
      req.body = some (.buffer (utf8 (js "ping"))) ∧ Delivers response honestResult := by
  have hsize : (encodeJson (requestPayload (connection proxyTicket).token
      (connection proxyTicket).request)).length ≤ MAX_U32 := by
    show (requestText proxyTicket).length ≤ MAX_U32
    rw [length_requestText.1]
    decide
  obtain ⟨req, response, hdone, -, hurl, hmethod, hbody, hdelivers⟩ := data_request_completes honest lawful_honest
    (connection proxyTicket) identityKey secret (canConnect (by decide)) ⟨rfl, rfl⟩ (some honestPrepared)
    typed_honestRequest accepted_honestRequest proxyTicket [] (JsNumber.ofNat 1700000060)
    (ticketFor_of_returned rfl rfl (returned_honest _ _)) rfl (.new 100000) rfl honestResult rfl
    ⟨isDouble_ofInt (by decide), by unfold IsRecord; decide⟩ hsize (by decide +kernel) HONEST_TURNS
    (List.Sublist.refl _)
  exact ⟨req, response, hdone, hurl, hmethod, hbody, hdelivers⟩

/-- A ticket of another scope, and a ticket for a node without a name: everything else is as above, and the
node does not call `serve`. -/
theorem honestRequest_refused :
    (∃ exp, TicketFor honest (connection adminTicket) adminTicket [] exp) ∧
    Completed (run (turn honest (connection adminTicket)) (connected (.new 100000)) HONEST_TURNS) []
      (responsePayload [] (.error .unauthorized SCOPE_MISMATCH)) ∧
    (∃ exp, TicketFor honest (connection unnamedTicket) unnamedTicket [] exp) ∧
    (run (turn honest (connection unnamedTicket)) (connected (.new 100000)) HONEST_TURNS).served = [] ∧
    (run (turn honest (connection unnamedTicket)) (connected (.new 100000)) HONEST_TURNS).node =
      .threw (.thrown (js "data-handshake: node_id must be a non-empty string")) := by
  have hadmin : TicketFor honest (connection adminTicket) adminTicket [] (JsNumber.ofNat 1700000060) :=
    ticketFor_of_returned rfl rfl (returned_honest _ _)
  have hsize : (encodeJson (requestPayload (connection adminTicket).token
      (connection adminTicket).request)).length ≤ MAX_U32 := by
    show (requestText adminTicket).length ≤ MAX_U32
    rw [length_requestText.2]
    decide
  have hunnamed : (run (turn honest (connection unnamedTicket)) (connected (.new 100000)) HONEST_TURNS).served = [] ∧
      (run (turn honest (connection unnamedTicket)) (connected (.new 100000)) HONEST_TURNS).node =
        .threw (.thrown (js "data-handshake: node_id must be a non-empty string")) := by
    decide +kernel
  refine ⟨⟨_, hadmin⟩, ?_, ⟨_, ticketFor_of_returned rfl rfl (returned_honest _ _)⟩, hunnamed⟩
  exact other_scope_refused lawful_honest (canConnect (by decide)) ⟨rfl, rfl⟩ typed_honestRequest
    accepted_honestRequest hadmin (by decide) (.new 100000) hsize (List.Sublist.refl _)

end Sample

end ConsensusNode.Tunnel
