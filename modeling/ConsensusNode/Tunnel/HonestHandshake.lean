import ConsensusNode.Tunnel.Completeness
import ConsensusNode.Tunnel.HandshakeAgreement

/-! # The handshake of two honest sides

Each side computes the signed payload and the transcript from a message that went through the wire. An init
has three fields that may be absent; they are absent after the wire too, and everything else is read back as
it was written.

* `decode_init`, `decode_accept`: the codec returns the message.
* `honest_handshake`: the handshake succeeds for every init and every server, with mirrored keys, and a frame
  that comes back to its sender does not open. -/

namespace ConsensusNode.Tunnel.Handshake

open Js Crypto Tickets

/-! ### Two sides -/

/-- What the two sides bring and draw. -/
structure Parties where
  input : ClientHandshakeInput
  clientKey : Bytes
  clientNonce : Bytes
  initClock : JsNumber
  serverKey : Bytes
  serverNonce : Bytes
  acceptClock : JsNumber
  serverSigningKeyPem : Option JsString
  serverPublicKeyPem : Option JsString

/-- The handshake through the codec: the sessions of the server and of the client. -/
def Parties.handshake (p : Platform) (c : Parties) : Except JsError (SecureSession × SecureSession) := do
  let client ← createClientHandshake p c.input c.clientKey c.clientNonce c.initClock
  let init ← decodeHandshakeMessage (encodeHandshakeMessage client.message.toJson)
  let server ← acceptClientHandshake p c.serverSigningKeyPem ⟨init, c.serverKey, c.serverNonce, c.acceptClock⟩
  let accept ← decodeHandshakeMessage (encodeHandshakeMessage server.message.toJson)
  let session ← deriveClientSessionFromAccept p client accept c.serverPublicKeyPem
  return (server.session, session)

/-- A server that signs or not, and a client that has pinned its key or no key. -/
inductive ServerKeys (p : Platform) : Option JsString → Option JsString → Prop where
  | unsigned : ServerKeys p none none
  | unpinned (pem : JsString) (key : Key) : pem ≠ [] → KeyPair p pem key → ServerKeys p (some pem) none
  | pinned (pem publicPem : JsString) (key : Key) : pem ≠ [] → KeyPair p pem key → publicPem ≠ [] →
      p.publicKeyOfPem publicPem = some key → ServerKeys p (some pem) (some publicPem)

/-- What the client signs. -/
def Parties.payload (p : Platform) (c : Parties) : JsString :=
  handshakeSigningPayload (initFields (unsignedInit p c.input c.clientKey c.clientNonce c.initClock))

/-- What both sides derive their sessions from. -/
def Parties.derivation (p : Platform) (c : Parties) (secret : Bytes) : Derivation :=
  ⟨secret, c.clientNonce, c.serverNonce, utf8 (c.payload p)⟩

/-- What honest sides have: an identity with a key pair, ECDH keys that agree on a secret, nonces of 32
bytes, clocks, and matching keys of the server. -/
structure Parties.Honest (p : Platform) (c : Parties) (key : Key) (secret : Bytes) : Prop where
  pem_ne : c.input.publicKeyPem ≠ []
  pem : p.publicKeyOfPem c.input.publicKeyPem = some key
  identity : KeyPair p c.input.privateKeyPem key
  points : p.ecdhPublic c.clientKey ≠ [] ∧ p.ecdhPublic c.serverKey ≠ []
  symmetric : ∀ d e, p.ecdh d (p.ecdhPublic e) = p.ecdh e (p.ecdhPublic d)
  agreed : p.ecdh c.clientKey (p.ecdhPublic c.serverKey) = some secret
  nonces : c.clientNonce.length = 32 ∧ c.serverNonce.length = 32
  clocks : IsClock c.initClock ∧ IsClock c.acceptClock
  server : ServerKeys p c.serverSigningKeyPem c.serverPublicKeyPem
  hkdf : ∀ info n, (p.hkdf secret (p.sha256 ((c.derivation p secret).binding p)) info n).length = n

variable {p : Platform}

/-! ### The codec -/

theorem definedFields_append (fs gs : List (JsString × Option Json)) :
    definedFields (fs ++ gs) = definedFields fs ++ definedFields gs :=
  List.filterMap_append

theorem exact_init {m : HandshakeInitMessage} (h : IsClock m.timestamp) : Exact m.toJson := by
  have hjoin : initFields m ++ [(js "signature", Json.str m.signature)] = definedFields _ :=
    (definedFields_append _ [(js "signature", some (Json.str m.signature))]).symm
  unfold HandshakeInitMessage.toJson
  rw [hjoin]
  refine exact_definedFields ?_ ?_ ?_
  · show [js "type", js "protocol", js "version", js "mode", js "timestamp", js "client_public_key",
      js "client_nonce", js "node_public_key_pem", js "node_id", js "candidate_id", js "release_version",
      js "signature"].Nodup
    decide
  · show [js "type", js "protocol", js "version", js "mode", js "timestamp", js "client_public_key",
      js "client_nonce", js "node_public_key_pem", js "node_id", js "candidate_id", js "release_version",
      js "signature"].Pairwise _
    decide
  · intro e he v hv
    simp only [List.cons_append, List.nil_append, List.mem_cons, List.not_mem_nil, or_false] at he
    rcases he with rfl | rfl | rfl | rfl | rfl | rfl | rfl | rfl | rfl | rfl | rfl | rfl
    case inr.inr.inl => cases hv; exact exact_ofInt (z := 1) (by norm_num)
    case inr.inr.inr.inr.inl => cases hv; exact exact_clock h
    case inr.inr.inr.inr.inr.inr.inr.inr.inl => exact exact_of_map_str hv
    case inr.inr.inr.inr.inr.inr.inr.inr.inr.inl => exact exact_of_map_str hv
    case inr.inr.inr.inr.inr.inr.inr.inr.inr.inr.inl => exact exact_of_map_str hv
    all_goals
      cases hv
      exact exact_str _

theorem exact_accept {m : HandshakeAcceptMessage} (h : IsClock m.timestamp) : Exact m.toJson := by
  have hjoin : m.toJson = .obj (definedFields ([(js "type", some (.str ACCEPT)),
      (js "protocol", some (.str HANDSHAKE_PROTOCOL)),
      (js "version", some (.num (JsNumber.ofNat HANDSHAKE_VERSION))), (js "timestamp", some (.num m.timestamp)),
      (js "server_public_key", some (.str m.server_public_key)), (js "server_nonce", some (.str m.server_nonce)),
      (js "session_id", some (.str m.session_id)), (js "signature", m.signature.map .str)])) := by
    rcases hsig : m.signature with _ | sig
    · unfold HandshakeAcceptMessage.toJson
      rw [hsig]
      rfl
    · unfold HandshakeAcceptMessage.toJson
      rw [hsig]
      rfl
  rw [hjoin]
  refine exact_definedFields ?_ ?_ ?_
  · show [js "type", js "protocol", js "version", js "timestamp", js "server_public_key", js "server_nonce",
      js "session_id", js "signature"].Nodup
    decide
  · show [js "type", js "protocol", js "version", js "timestamp", js "server_public_key", js "server_nonce",
      js "session_id", js "signature"].Pairwise _
    decide
  · intro e he v hv
    simp only [List.mem_cons, List.not_mem_nil, or_false] at he
    rcases he with rfl | rfl | rfl | rfl | rfl | rfl | rfl | rfl
    case inr.inr.inl => cases hv; exact exact_ofInt (z := 1) (by norm_num)
    case inr.inr.inr.inl => cases hv; exact exact_clock h
    case inr.inr.inr.inr.inr.inr.inr => exact exact_of_map_str hv
    all_goals
      cases hv
      exact exact_str _

/-- An init whose texts are not empty. -/
structure HandshakeInitMessage.Filled (m : HandshakeInitMessage) : Prop where
  clock : IsClock m.timestamp
  point : decodeBase64 m.client_public_key ≠ []
  nonce : decodeBase64 m.client_nonce ≠ []
  pem : m.node_public_key_pem ≠ []
  signature : m.signature ≠ []

structure HandshakeAcceptMessage.Filled (m : HandshakeAcceptMessage) : Prop where
  clock : IsClock m.timestamp
  point : decodeBase64 m.server_public_key ≠ []
  nonce : decodeBase64 m.server_nonce ≠ []
  session : m.session_id ≠ []
  signature : m.signature ≠ some []

theorem ne_nil_of_decode {s : JsString} (h : decodeBase64 s ≠ []) : s ≠ [] := by
  rintro rfl
  exact h rfl

theorem decodeBytes_of_ne {s field : JsString} (h : decodeBase64 s ≠ []) :
    decodeBytes s field = .ok (decodeBase64 s) := if_neg h

/-- The fields of the message on the wire. -/
def HandshakeInitMessage.wire (m : HandshakeInitMessage) : List (JsString × Json) :=
  initFields m ++ [(js "signature", .str m.signature)]

def HandshakeAcceptMessage.wire (m : HandshakeAcceptMessage) : List (JsString × Json) :=
  acceptFields m ++ definedFields [(js "signature", m.signature.map .str)]

theorem lookup_signature_wire (m : HandshakeInitMessage) :
    m.wire.lookup (js "signature") = some (.str m.signature) := by
  obtain ⟨_, _, _, _, _, node_id, candidate_id, release_version, _⟩ := m
  rcases node_id with _ | _ <;> rcases candidate_id with _ | _ <;> rcases release_version with _ | _ <;> rfl

theorem lookup_signature_acceptWire (m : HandshakeAcceptMessage) :
    m.wire.lookup (js "signature") = m.signature.map .str := by
  obtain ⟨_, _, _, _, signature⟩ := m
  rcases signature with _ | _
  · rfl
  · rfl

theorem assertTunnelMode_text (mode : TunnelMode) : assertTunnelMode (some (.str mode.text)) = .ok () := by
  rcases mode with _ | _
  · rfl
  · rfl

theorem assertHandshakeInit_filled {m : HandshakeInitMessage} (h : m.Filled) :
    assertHandshakeInit m.toJson =
      .ok ⟨m.wire, m.client_public_key, m.client_nonce, m.node_public_key_pem, m.signature⟩ := by
  have hbase : assertHandshakeBase m.toJson INIT = .ok m.wire := by
    show (require _ _ >>= fun _ => _) = _
    simp only [bind_eq_ok]
    exact ⟨(), rfl, (), rfl, (), rfl, _, requireFinite_clock h.clock, rfl⟩
  simp only [assertHandshakeInit, bind_eq_ok]
  refine ⟨m.wire, hbase, (), assertTunnelMode_text m.mode, m.client_public_key,
    requireText_str (ne_nil_of_decode h.point), m.client_nonce, requireText_str (ne_nil_of_decode h.nonce),
    m.node_public_key_pem, requireText_str h.pem, m.signature, ?_, _, decodeBytes_of_ne h.point, _,
    decodeBytes_of_ne h.nonce, rfl⟩
  rw [lookup_signature_wire]
  exact requireText_str h.signature

theorem assertHandshakeAccept_filled {m : HandshakeAcceptMessage} (h : m.Filled) :
    assertHandshakeAccept m.toJson =
      .ok ⟨m.wire, m.server_public_key, m.server_nonce, m.session_id, m.signature⟩ := by
  have hbase : assertHandshakeBase m.toJson ACCEPT = .ok m.wire := by
    show (require _ _ >>= fun _ => _) = _
    simp only [bind_eq_ok]
    exact ⟨(), rfl, (), rfl, (), rfl, _, requireFinite_clock h.clock, rfl⟩
  have hsignature : assertSignature (m.wire.lookup (js "signature")) = .ok m.signature := by
    rw [lookup_signature_acceptWire]
    rcases hsig : m.signature with _ | sig
    · rfl
    · have hne : sig ≠ [] := by
        rintro rfl
        exact h.signature hsig
      show (assertString (some (.str sig)) _).map some = _
      unfold assertString
      rw [requireText_str hne]
      rfl
  simp only [assertHandshakeAccept, bind_eq_ok]
  exact ⟨m.wire, hbase, m.server_public_key, requireText_str (ne_nil_of_decode h.point), m.server_nonce,
    requireText_str (ne_nil_of_decode h.nonce), m.session_id, requireText_str h.session, _,
    decodeBytes_of_ne h.point, _, decodeBytes_of_ne h.nonce, m.signature, hsignature, rfl⟩

/-- What is written is read back, if the check of the message passes. -/
theorem decodeHandshakeMessage_of_exact {v : Json} (h : Exact v) (hv : assertHandshakeMessage v = .ok ()) :
    decodeHandshakeMessage (encodeHandshakeMessage v) = .ok v := by
  unfold decodeHandshakeMessage encodeHandshakeMessage
  rw [parse_decode_stringify h.1.1 h.1.2, h.2]
  exact bind_eq_ok.mpr ⟨(), hv, rfl⟩

/-- **The init after the wire.** -/
theorem decode_init {m : HandshakeInitMessage} (h : m.Filled) :
    decodeHandshakeMessage (encodeHandshakeMessage m.toJson) = .ok m.toJson := by
  refine decodeHandshakeMessage_of_exact (exact_init h.clock) ?_
  show (assertHandshakeInit m.toJson).map _ = _
  rw [assertHandshakeInit_filled h]
  rfl

/-- **The accept message after the wire.** -/
theorem decode_accept {m : HandshakeAcceptMessage} (h : m.Filled) :
    decodeHandshakeMessage (encodeHandshakeMessage m.toJson) = .ok m.toJson := by
  refine decodeHandshakeMessage_of_exact (exact_accept h.clock) ?_
  show (assertHandshakeAccept m.toJson).map _ = _
  rw [assertHandshakeAccept_filled h]
  rfl

/-! ### The signed parts -/

theorem handshakeSigningPayload_wire (m : HandshakeInitMessage) :
    handshakeSigningPayload m.wire = handshakeSigningPayload (initFields m) := by
  have hsignature : withoutSignature [(js "signature", Json.str m.signature)] = [] := rfl
  unfold handshakeSigningPayload HandshakeInitMessage.wire
  unfold withoutSignature at hsignature ⊢
  rw [List.filter_append, hsignature, List.append_nil]

theorem handshakeSigningPayload_acceptWire (m : HandshakeAcceptMessage) :
    handshakeSigningPayload m.wire = handshakeSigningPayload (acceptFields m) := by
  have hsignature : withoutSignature (definedFields [(js "signature", m.signature.map Json.str)]) = [] := by
    rcases m.signature with _ | _
    · rfl
    · rfl
  unfold handshakeSigningPayload HandshakeAcceptMessage.wire
  unfold withoutSignature at hsignature ⊢
  rw [List.filter_append, hsignature, List.append_nil]

/-! ### The handshake -/

section Honest

variable {c : Parties} {key : Key} {secret : Bytes}

/-- The client's message, signed. -/
def Parties.init (p : Platform) (c : Parties) (sig : Bytes) : HandshakeInitMessage :=
  { unsignedInit p c.input c.clientKey c.clientNonce c.initClock with signature := base64 sig }

/-- The server's message, signed or not. -/
def Parties.accept (p : Platform) (c : Parties) (secret : Bytes) (signature : Option JsString) :
    HandshakeAcceptMessage where
  timestamp := c.acceptClock
  server_public_key := base64 (p.ecdhPublic c.serverKey)
  server_nonce := base64 c.serverNonce
  session_id := ((c.derivation p secret).session p .server).sessionId
  signature := signature

theorem nonces_ne_nil (h : c.Honest p key secret) : c.clientNonce ≠ [] ∧ c.serverNonce ≠ [] :=
  ⟨List.ne_nil_of_length_pos (by rw [h.nonces.1]; decide), List.ne_nil_of_length_pos (by rw [h.nonces.2]; decide)⟩

/-- A signature with one half of a key pair verifies with the other. -/
theorem signUtf8_verifies {pem : JsString} (hpair : KeyPair p pem key) (payload : JsString) : ∃ sig, sig ≠ [] ∧
    signUtf8 p pem payload = some (base64 sig) ∧
    ∀ publicPem, p.publicKeyOfPem publicPem = some key →
      verifyUtf8 p publicPem payload (base64 sig) = .ok true := by
  obtain ⟨sig, hsign, hlen, hverify⟩ := hpair (utf8 payload)
  refine ⟨sig, List.ne_nil_of_length_pos (by rw [hlen]; decide), ?_, ?_⟩
  · unfold signUtf8
    rw [hsign]
    rfl
  · intro publicPem hkey
    unfold verifyUtf8
    rw [hkey]
    simp only [decodeBase64_base64, hverify]

/-- **The client's init** is filled, and its signature verifies. -/
theorem createClientHandshake_honest (h : c.Honest p key secret) : ∃ sig,
    createClientHandshake p c.input c.clientKey c.clientNonce c.initClock =
      .ok ⟨c.clientKey, c.clientNonce, c.init p sig⟩ ∧
    (c.init p sig).Filled ∧ verifyUtf8 p c.input.publicKeyPem (c.payload p) (base64 sig) = .ok true := by
  obtain ⟨sig, hne, hsign, hverify⟩ := signUtf8_verifies h.identity (c.payload p)
  refine ⟨sig, ?_, ⟨h.clocks.1, ?_, ?_, h.pem_ne, base64_ne_nil hne⟩, hverify _ h.pem⟩
  · unfold createClientHandshake
    unfold Parties.payload at hsign
    simp only [hsign]
    rfl
  · show decodeBase64 (base64 _) ≠ []
    rw [decodeBase64_base64]
    exact h.points.1
  · show decodeBase64 (base64 _) ≠ []
    rw [decodeBase64_base64]
    exact (nonces_ne_nil h).1

theorem payload_init (c : Parties) (sig : Bytes) : handshakeSigningPayload (c.init p sig).wire = c.payload p :=
  handshakeSigningPayload_wire (c.init p sig)

theorem handshakeTranscriptHash_init {sig : Bytes} (hm : (c.init p sig).Filled) :
    handshakeTranscriptHash p (c.init p sig).toJson = .ok (p.sha256 (utf8 (c.payload p))) := by
  simp only [handshakeTranscriptHash, bind_eq_ok]
  refine ⟨_, assertHandshakeInit_filled hm, ?_⟩
  dsimp only
  rw [payload_init]
  rfl

theorem verifyClientHandshake_init {sig : Bytes} (hm : (c.init p sig).Filled)
    (hverify : verifyUtf8 p c.input.publicKeyPem (c.payload p) (base64 sig) = .ok true) :
    verifyClientHandshake p (c.init p sig).toJson = .ok true := by
  simp only [verifyClientHandshake, bind_eq_ok]
  refine ⟨_, assertHandshakeInit_filled hm, ?_⟩
  dsimp only
  rw [payload_init]
  exact hverify

theorem session_derivation (c : Parties) (secret : Bytes) (role : TunnelRole) :
    (c.derivation p secret).session p role =
      sessionKeys p role secret c.clientNonce c.serverNonce (p.sha256 (utf8 (c.payload p))) := by
  simp only [Parties.derivation, Derivation.session]

/-- Both sides derive from the same. -/
theorem deriveSecureSession_honest (h : c.Honest p key secret) :
    deriveSecureSession p .server c.serverKey (p.ecdhPublic c.clientKey) c.clientNonce c.serverNonce
      (p.sha256 (utf8 (c.payload p))) = .ok ((c.derivation p secret).session p .server) ∧
    deriveSecureSession p .client c.clientKey (p.ecdhPublic c.serverKey) c.clientNonce c.serverNonce
      (p.sha256 (utf8 (c.payload p))) = .ok ((c.derivation p secret).session p .client) := by
  have hc : 16 ≤ c.clientNonce.length := by rw [h.nonces.1]; decide
  have hs : 16 ≤ c.serverNonce.length := by rw [h.nonces.2]; decide
  have hserver : p.ecdh c.serverKey (p.ecdhPublic c.clientKey) = some secret := by
    rw [h.symmetric]
    exact h.agreed
  rw [session_derivation, session_derivation]
  exact ⟨deriveSecureSession_eq_ok.mpr ⟨hc, hs, secret, hserver, rfl⟩,
    deriveSecureSession_eq_ok.mpr ⟨hc, hs, secret, h.agreed, rfl⟩⟩

theorem accept_filled (h : c.Honest p key secret) {signature : Option JsString} (hsig : signature ≠ some []) :
    (c.accept p secret signature).Filled where
  clock := h.clocks.2
  point := by
    show decodeBase64 (base64 _) ≠ []
    rw [decodeBase64_base64]
    exact h.points.2
  nonce := by
    show decodeBase64 (base64 _) ≠ []
    rw [decodeBase64_base64]
    exact (nonces_ne_nil h).2
  session := by
    show ((c.derivation p secret).session p .server).sessionId ≠ []
    rw [session_sessionId]
    refine Runtime.hex_ne_nil (List.ne_nil_of_length_pos ?_)
    unfold sessionIdOf Crypto.hkdf
    rw [show (c.derivation p secret).secret = secret from rfl, h.hkdf]
    decide
  signature := hsig

/-- The server's answer once its session is derived. -/
def Parties.answer (p : Platform) (c : Parties) (secret : Bytes) : Except JsError ServerHandshake :=
  match c.serverSigningKeyPem with
  | some (u :: pem) =>
    match signUtf8 p (u :: pem) (handshakeSigningPayload (acceptFields (c.accept p secret none))) with
    | none => .error .native
    | some signature => .ok ⟨(c.derivation p secret).session p .server, c.accept p secret (some signature)⟩
  | _ => .ok ⟨(c.derivation p secret).session p .server, c.accept p secret none⟩

/-- The server's checks of the init pass. -/
theorem acceptClientHandshake_init (h : c.Honest p key secret) {sig : Bytes} (hm : (c.init p sig).Filled)
    (hverify : verifyUtf8 p c.input.publicKeyPem (c.payload p) (base64 sig) = .ok true) {H : ServerHandshake}
    (hr : c.answer p secret = .ok H) :
    acceptClientHandshake p c.serverSigningKeyPem ⟨(c.init p sig).toJson, c.serverKey, c.serverNonce,
      c.acceptClock⟩ = .ok H := by
  have hpoint : decodeBytes (c.init p sig).client_public_key (js "client_public_key") =
      .ok (p.ecdhPublic c.clientKey) := by
    rw [decodeBytes_of_ne hm.point]
    exact congrArg Except.ok (decodeBase64_base64 _)
  have hnonce : decodeBytes (c.init p sig).client_nonce (js "client_nonce") = .ok c.clientNonce := by
    rw [decodeBytes_of_ne hm.nonce]
    exact congrArg Except.ok (decodeBase64_base64 _)
  simp only [acceptClientHandshake, bind_eq_ok]
  exact ⟨true, verifyClientHandshake_init hm hverify, (), rfl, _, assertHandshakeInit_filled hm, _, hpoint, _,
    hnonce, _, handshakeTranscriptHash_init hm, _, (deriveSecureSession_honest h).1, hr⟩

/-- **The server's answer.** It is filled, and it passes the check of the pinned key. -/
theorem answer_honest (h : c.Honest p key secret) : ∃ signature,
    c.answer p secret = .ok ⟨(c.derivation p secret).session p .server, c.accept p secret signature⟩ ∧
    (c.accept p secret signature).Filled ∧
    checkPinned p c.serverPublicKeyPem ⟨(c.accept p secret signature).wire,
      base64 (p.ecdhPublic c.serverKey), base64 c.serverNonce,
      ((c.derivation p secret).session p .server).sessionId, signature⟩ = .ok () := by
  have hserver := h.server
  unfold Parties.answer
  generalize c.serverSigningKeyPem = signing at hserver
  generalize c.serverPublicKeyPem = pinned at hserver
  rcases hserver with _ | ⟨pem, serverKey, hpem, hpair⟩ | ⟨pem, publicPem, serverKey, hpem, hpair, hpublic, hkey⟩
  · exact ⟨none, rfl, accept_filled h (by decide), rfl⟩
  · obtain ⟨u, pem', rfl⟩ := List.exists_cons_of_ne_nil hpem
    obtain ⟨sig, hne, hsign, -⟩ :=
      signUtf8_verifies hpair (handshakeSigningPayload (acceptFields (c.accept p secret none)))
    have hsome : some (base64 sig) ≠ some [] := fun heq => base64_ne_nil hne (Option.some.inj heq)
    refine ⟨some (base64 sig), ?_, accept_filled h hsome, rfl⟩
    simp only [hsign]
  · obtain ⟨u, pem', rfl⟩ := List.exists_cons_of_ne_nil hpem
    obtain ⟨v, publicPem', rfl⟩ := List.exists_cons_of_ne_nil hpublic
    obtain ⟨sig, hne, hsign, hverify⟩ :=
      signUtf8_verifies hpair (handshakeSigningPayload (acceptFields (c.accept p secret none)))
    have hsome : some (base64 sig) ≠ some [] := fun heq => base64_ne_nil hne (Option.some.inj heq)
    refine ⟨some (base64 sig), ?_, accept_filled h hsome, ?_⟩
    · simp only [hsign]
    · have hverified := hverify _ hkey
      rw [show acceptFields (c.accept p secret none) = acceptFields (c.accept p secret (some (base64 sig))) from rfl,
        ← handshakeSigningPayload_acceptWire] at hverified
      simp only [checkPinned, bind_eq_ok]
      exact ⟨true, hverified, rfl⟩

end Honest

/-! ### Keys and reflected frames -/

/-- The labels of the three strings that are derived from a secret. -/
def LABELS : List JsString := [js ":client-to-server", js ":server-to-client", js ":session-id"]

/-- The key under a label. -/
def Derivation.key (p : Platform) (d : Derivation) (label : JsString) : Bytes :=
  hkdf p d.secret (p.sha256 (d.binding p)) (CHANNEL_INFO ++ label) KEY_BYTES

/-- HKDF is injective in its info, and the cipher does not decrypt under one key what it has encrypted under
another. -/
structure KeysApart (p : Platform) (d : Derivation) : Prop where
  hkdf : ∀ a ∈ LABELS, ∀ b ∈ LABELS, d.key p a = d.key p b → a = b
  cipher : ∀ a ∈ LABELS, ∀ b ∈ LABELS, d.key p a ≠ d.key p b → ∀ nonce nonce' aad aad' plaintext,
    p.decrypt (d.key p b) nonce' aad' (p.encrypt (d.key p a) nonce aad plaintext) = none

/-- A frame that comes back to the side that sealed it does not open. -/
def NoReflection (p : Platform) (s : SecureSession) : Prop :=
  ∀ nonce type sequence plaintext raw, sealFrame p nonce s.sendKey type sequence plaintext = .ok raw →
    ∀ opened, openFrame p s.receiveKey raw ≠ .ok opened

/-- A frame does not open under a key that does not decrypt it. -/
theorem openFrame_of_other_key {key key' : Bytes} (h : ∀ nonce nonce' aad aad' plaintext,
      p.decrypt key' nonce' aad' (p.encrypt key nonce aad plaintext) = none)
    {nonce plaintext raw : Bytes} {type : FrameType} {sequence : ℕ}
    (hseal : sealFrame p nonce key type sequence plaintext = .ok raw) (opened : FrameParts × Bytes) :
    openFrame p key' raw ≠ .ok opened := by
  intro hopen
  obtain ⟨frame, b⟩ := opened
  obtain ⟨-, -, ciphertext, tag, hencrypt, henc⟩ := sealFrame_eq_ok.mp hseal
  obtain ⟨henc', -, hdecrypt⟩ := openFrame_eq_ok.mp hopen
  have hframe : frame = ⟨type, sequence, nonce, ciphertext, tag⟩ :=
    Except.ok.inj ((decodeFrame_encodeFrame henc').symm.trans (decodeFrame_encodeFrame henc))
  subst hframe
  dsimp only at hdecrypt
  rw [← hencrypt, h] at hdecrypt
  cases hdecrypt

/-- **The two keys of a session differ**, and nothing that a side seals opens on the same side. -/
theorem keys_apart {d : Derivation} (h : KeysApart p d) (role : TunnelRole) :
    (d.session p role).sendKey ≠ (d.session p role).receiveKey ∧ NoReflection p (d.session p role) := by
  have hne : d.key p (js ":client-to-server") ≠ d.key p (js ":server-to-client") := by
    intro heq
    exact absurd (h.hkdf _ (by decide) _ (by decide) heq) (by decide)
  rcases role with _ | _
  · refine ⟨hne, fun nonce type sequence plaintext raw hseal => ?_⟩
    exact openFrame_of_other_key (h.cipher _ (by decide) _ (by decide) hne) hseal
  · refine ⟨hne.symm, fun nonce type sequence plaintext raw hseal => ?_⟩
    exact openFrame_of_other_key (h.cipher _ (by decide) _ (by decide) hne.symm) hseal

/-- **Honest handshakes succeed and agree.** For every mode and identity, with or without node id, candidate
id and release version, and whether the server signs or not, the handshake through the codec succeeds. Both
sessions have one id, each side sends under the key that the other receives under, and as HKDF and the cipher
keep the keys apart, a frame that comes back to its sender does not open. -/
theorem honest_handshake (p : Platform) (c : Parties) (key : Key) (secret : Bytes)
    (h : c.Honest p key secret) : ∃ server client, c.handshake p = .ok (server, client) ∧
      server.sessionId = client.sessionId ∧ server.sendKey = client.receiveKey ∧
      server.receiveKey = client.sendKey ∧
      (KeysApart p (c.derivation p secret) → ∀ side ∈ [server, client],
        side.sendKey ≠ side.receiveKey ∧ NoReflection p side) := by
  obtain ⟨sig, hcreate, hinit, hverify⟩ := createClientHandshake_honest h
  obtain ⟨signature, hanswer, haccept, hpinned⟩ := answer_honest h
  have hderive : deriveClientSessionFromAccept p ⟨c.clientKey, c.clientNonce, c.init p sig⟩
      (c.accept p secret signature).toJson c.serverPublicKeyPem =
      .ok ((c.derivation p secret).session p .client) := by
    have hpoint : decodeBytes (c.accept p secret signature).server_public_key (js "server_public_key") =
        .ok (p.ecdhPublic c.serverKey) := by
      rw [decodeBytes_of_ne haccept.point]
      exact congrArg Except.ok (decodeBase64_base64 _)
    have hnonce : decodeBytes (c.accept p secret signature).server_nonce (js "server_nonce") =
        .ok c.serverNonce := by
      rw [decodeBytes_of_ne haccept.nonce]
      exact congrArg Except.ok (decodeBase64_base64 _)
    simp only [deriveClientSessionFromAccept, bind_eq_ok]
    exact ⟨_, assertHandshakeAccept_filled haccept, (), hpinned, _, hpoint, _, hnonce, _,
      handshakeTranscriptHash_init hinit, _, (deriveSecureSession_honest h).2, (),
      require_eq_ok.mpr (decide_eq_true rfl), rfl⟩
  refine ⟨(c.derivation p secret).session p .server, (c.derivation p secret).session p .client, ?_,
    rfl, rfl, rfl, ?_⟩
  · simp only [Parties.handshake, bind_eq_ok]
    exact ⟨_, hcreate, _, decode_init hinit, _, acceptClientHandshake_init h hinit hverify hanswer, _,
      decode_accept haccept, _, hderive, rfl⟩
  · intro hapart side hside
    simp only [List.mem_cons, List.not_mem_nil, or_false] at hside
    rcases hside with rfl | rfl
    · exact keys_apart hapart .server
    · exact keys_apart hapart .client

/-! ### A handshake with a server that signs -/

namespace Sample

open Tunnel.Sample (clientKey nodeKey clientNonce nodeNonce secret identityKey publicPem privatePem)

def signatureOf (payload : Bytes) : Bytes :=
  if payload = initPayload then initSignature
  else if payload = acceptPayload then acceptSignature
  else List.replicate SIG_LEN 0

/-- The platform above with keys that sign everything and a cipher whose tag is the head of the key. -/
def honest : Platform where
  __ := platform
  sign _ payload := some (signatureOf payload)
  verify _ payload sig := decide (sig = signatureOf payload)
  hkdf _ _ info n := if (derived info).length = n then derived info else List.replicate n 0
  encrypt key _ _ b := b ++ key.take TAG_SIZE
  decrypt key _ _ s := if s.drop (s.length - TAG_SIZE) = key.take TAG_SIZE then some (s.take (s.length - TAG_SIZE))
    else none

/-- A control tunnel of a node with an id; the server signs and the client has pinned its key. -/
def parties : Parties where
  input := {
    mode := .control
    privateKeyPem := privatePem
    publicKeyPem := publicPem
    nodeId := some (js "node-1")
    candidateId := none
    releaseVersion := none }
  clientKey := clientKey
  clientNonce := clientNonce
  initClock := JsNumber.ofNat 1700000000
  serverKey := nodeKey
  serverNonce := nodeNonce
  acceptClock := JsNumber.ofNat 1700000001
  serverSigningKeyPem := some serverPrivatePem
  serverPublicKeyPem := some serverPublicPem

theorem keyPair_honest (pem : JsString) (key : Key) : KeyPair honest pem key := by
  intro payload
  refine ⟨signatureOf payload, rfl, ?_, decide_eq_true rfl⟩
  unfold signatureOf
  split_ifs
  · rfl
  · rfl
  · exact List.length_replicate

theorem parties_honest : parties.Honest honest identityKey secret where
  pem_ne := by decide
  pem := by decide
  identity := keyPair_honest _ _
  points := by
    show Tunnel.Sample.platform.ecdhPublic clientKey ≠ [] ∧ Tunnel.Sample.platform.ecdhPublic nodeKey ≠ []
    decide
  symmetric := Tunnel.Sample.ecdh_comm
  agreed := by
    show Tunnel.Sample.platform.ecdh clientKey (Tunnel.Sample.platform.ecdhPublic nodeKey) = some secret
    decide
  nonces := ⟨rfl, rfl⟩
  clocks := ⟨⟨1700000000, by norm_num, rfl⟩, ⟨1700000001, by norm_num, rfl⟩⟩
  server := .pinned serverPrivatePem serverPublicPem serverKey (by decide) (keyPair_honest _ _)
    (by decide) (by decide)
  hkdf := by
    intro info n
    show (if (derived info).length = n then derived info else List.replicate n 0).length = n
    split_ifs with h
    · exact h
    · exact List.length_replicate

theorem decrypt_of_other_tag {a b : Bytes} (ha : (a.take TAG_SIZE).length = TAG_SIZE)
    (hne : a.take TAG_SIZE ≠ b.take TAG_SIZE) (nonce nonce' aad aad' plaintext : Bytes) :
    honest.decrypt b nonce' aad' (honest.encrypt a nonce aad plaintext) = none := by
  refine if_neg ?_
  show List.drop ((plaintext ++ a.take TAG_SIZE).length - TAG_SIZE) (plaintext ++ a.take TAG_SIZE) ≠ _
  rw [List.length_append, ha, Nat.add_sub_cancel, List.drop_left]
  exact hne

theorem parties_keysApart : KeysApart honest (parties.derivation honest secret) where
  hkdf := by decide
  cipher := by
    have htags : ∀ a ∈ LABELS, ∀ b ∈ LABELS,
        (parties.derivation honest secret).key honest a ≠ (parties.derivation honest secret).key honest b →
        ((parties.derivation honest secret).key honest a).take TAG_SIZE ≠
          ((parties.derivation honest secret).key honest b).take TAG_SIZE := by decide
    have hlen : ∀ a ∈ LABELS, (((parties.derivation honest secret).key honest a).take TAG_SIZE).length =
        TAG_SIZE := by decide
    intro a ha b hb hne nonce nonce' aad aad' plaintext
    exact decrypt_of_other_tag (hlen a ha) (htags a ha b hb hne) nonce nonce' aad aad' plaintext

theorem parties_handshake : ∃ server client, parties.handshake honest = .ok (server, client) ∧
    server.sessionId = client.sessionId ∧ server.sendKey = client.receiveKey ∧
    server.receiveKey = client.sendKey ∧
    ∀ side ∈ [server, client], side.sendKey ≠ side.receiveKey ∧ NoReflection honest side := by
  obtain ⟨server, client, hrun, hid, hsend, hreceive, hapart⟩ :=
    honest_handshake honest parties identityKey secret parties_honest
  exact ⟨server, client, hrun, hid, hsend, hreceive, hapart parties_keysApart⟩

end Sample

end ConsensusNode.Tunnel.Handshake
