import ConsensusNode.Runtime.DedupeVariants
import ConsensusNode.Runtime.ProfileIdem
import ConsensusNode.Tickets.Acceptance
import ConsensusNode.Tickets.Authenticity
import ConsensusNode.Tunnel.Authorization
import ConsensusNode.Tunnel.DataConnection
import ConsensusNode.Tunnel.KeyAgreement

/-! # An honest request is served

Both sides of a connection compute the transcript, the session keys, the body and the dedupe key for
themselves, from texts that went through JSON and base64. Here the two computations meet.

* `openFrame_sealFrame`, `decodeJson_encodeJson`: what one side writes the other reads.
* `acceptDataInit_createDataInit`, `deriveClientDataSession_accept`: the handshake completes, with the
  same keys on both sides.
* `generateDedupeKey_prepared`: the dedupe key of the request that arrives is that of the request sent.
* `planServe_requestPayload`: the node plans the request that was sent. -/

namespace ConsensusNode.Tunnel

open Js Crypto Tickets ConsensusNode.Runtime

/-- What the program relies on of its platform: the case tables, SHA-256, HKDF and ChaCha20-Poly1305. -/
structure Lawful (p : Platform) : Prop where
  case : p.AsciiCase
  upper : ∀ s, p.toUpperCase (p.toUpperCase s) = p.toUpperCase s
  digest : ∀ b, p.sha256 b ≠ []
  hkdf : ∀ secret salt info n, (p.hkdf secret salt info n).length = n
  sealed : ∀ key nonce aad b, (p.encrypt key nonce aad b).length = b.length + TAG_SIZE
  opens : ∀ key nonce aad b, key.length = KEY_BYTES → nonce.length = NONCE_SIZE →
    p.decrypt key nonce aad (p.encrypt key nonce aad b) = some b

variable {p : Platform}

/-! ### Frames and JSON -/

theorem openFrame_sealFrame (hp : Lawful p) {key nonce b : Bytes} (hkey : key.length = KEY_BYTES)
    (hnonce : nonce.length = NONCE_SIZE) (hb : b.length ≤ MAX_U32) :
    ∃ raw frame, sealFrame p nonce key .data 0 b = .ok raw ∧ openFrame p key raw = .ok (frame, b) ∧
      frame.type = .data := by
  obtain ⟨raw, frame, hseal, hopen, htype, -⟩ := openFrame_of_seal hkey hnonce (Nat.zero_le _) hb
    (hp.sealed key nonce (aadBytes .data 0 b.length) b) (hp.opens key nonce _ b hkey hnonce)
  exact ⟨raw, frame, hseal, hopen, htype⟩

theorem decodeJson_encodeJson {v : Json} (h : Exact v) : decodeJson (encodeJson v) = .ok v := by
  unfold decodeJson encodeJson
  rw [parse_decode_stringify h.1.1 h.1.2, h.2]

/-- An object of the language with string values. -/
def IsRecord (hs : List (JsString × JsString)) : Prop :=
  (hs.map Prod.fst).Nodup ∧ (hs.map Prod.fst).Pairwise fun k l => rank k ≤ rank l

theorem exact_headersJson {hs : List (JsString × JsString)} (h : IsRecord hs) : Exact (headersJson hs) := by
  have hkeys : (hs.map fun e => (e.1, Json.str e.2)).map Prod.fst = hs.map Prod.fst := by
    rw [List.map_map]
    rfl
  refine exact_obj (by rw [hkeys]; exact h.1) (by rw [hkeys]; exact h.2) ?_
  intro e he
  obtain ⟨e', -, rfl⟩ := List.mem_map.mp he
  exact exact_str _

/-- A reading of the clock in whole seconds. -/
def IsClock (x : JsNumber) : Prop := ∃ z : ℤ, |z| ≤ 2 ^ 53 ∧ x = JsNumber.ofInt z

theorem exact_ofInt {z : ℤ} (h : |z| ≤ 2 ^ 53) : Exact (.num (JsNumber.ofInt z)) :=
  ⟨⟨trivial, fixes_num (isDouble_ofInt h)⟩, rfl⟩

theorem exact_clock {x : JsNumber} (h : IsClock x) : Exact (.num x) := by
  obtain ⟨z, hz, rfl⟩ := h
  exact exact_ofInt hz

/-! ### The handshake -/

/-- Two parties that can make a handshake: they mean the same node, the client has pinned the key the node
signs with, the ephemeral keys belong to one secret, and the proof is not too old. -/
structure CanConnect (p : Platform) (c : Connection) (key : Key) (secret : Bytes) : Prop where
  node : c.expectedNodeId = c.deps.nodeId
  node_ne : c.deps.nodeId ≠ []
  pinned : p.publicKeyOfPem c.expectedNodePublicKeyPem = some key
  identity : KeyPair p c.identityPem key
  points : p.ecdhPublic c.clientKey ≠ [] ∧ p.ecdhPublic c.nodeKey ≠ []
  ecdh : p.ecdh c.clientKey (p.ecdhPublic c.nodeKey) = some secret ∧
    p.ecdh c.nodeKey (p.ecdhPublic c.clientKey) = some secret
  nonces : c.clientNonce.length = 32 ∧ c.nodeNonce.length = 32
  clocks : IsClock c.initClock ∧ IsClock c.acceptClock
  age : checkAge c.acceptClock c.proofClock = .ok ()

theorem base64_ne_nil {b : Bytes} (h : b ≠ []) : base64 b ≠ [] := by
  intro hnil
  have := decodeBase64_base64 b
  rw [hnil] at this
  exact h this.symm

theorem requireText_str {s message : JsString} (h : s ≠ []) : requireText (some (.str s)) message = .ok s := by
  obtain ⟨c, t, rfl⟩ := List.exists_cons_of_ne_nil h
  rfl

theorem decodeBase64Field_base64 {file field : JsString} {b : Bytes} (h : b ≠ []) :
    decodeBase64Field file (some (.str (base64 b))) field = .ok b :=
  decodeBase64Field_eq_ok.mpr ⟨_, rfl, base64_ne_nil h, (decodeBase64_base64 b).symm, h⟩

theorem requireFinite_clock {x : JsNumber} {message : JsString} (h : IsClock x) :
    requireFinite (some (.num x)) message = .ok x := by
  obtain ⟨z, -, rfl⟩ := h
  rfl

theorem checkBinding_base64 {b : Bytes} (h : b ≠ []) : checkBinding (some (.str (base64 b))) = .ok () := by
  unfold checkBinding
  simp only [decodeBase64Field_base64 h]
  rfl

/-- The client's part of the handshake. -/
def Connection.client (p : Platform) (c : Connection) : ClientDataHandshake :=
  createDataInit p c.expectedNodeId c.clientKey c.clientNonce c.initClock

/-- The transcript that both sides hash. -/
def Connection.transcript (p : Platform) (c : Connection) : Bytes :=
  channelBinding p c.deps.nodeId (base64 (p.ecdhPublic c.clientKey)) (base64 c.clientNonce)
    (base64 (p.ecdhPublic c.nodeKey)) (some (.str (base64 c.nodeNonce)))

theorem Connection.transcript_ne_nil (hp : Lawful p) (c : Connection) : c.transcript p ≠ [] := hp.digest _

/-- The session of one of the two sides. -/
def Connection.session (p : Platform) (c : Connection) (secret : Bytes) (role : TunnelRole) : SecureSession :=
  sessionKeys p role secret c.clientNonce c.nodeNonce (c.transcript p)

/-- The proof without its signature. -/
def Connection.unsigned (p : Platform) (c : Connection) : ResponderProof where
  node_id := c.deps.nodeId
  client_nonce := base64 c.clientNonce
  node_nonce := base64 c.nodeNonce
  timestamp := c.acceptClock
  channel_binding := some (base64 (c.transcript p))
  signature := []

/-- The node's answer. -/
def Connection.accept (p : Platform) (c : Connection) (secret sig : Bytes) : DataAcceptMessage where
  node_public_key := base64 (p.ecdhPublic c.nodeKey)
  session_id := (c.session p secret .server).sessionId
  proof := { c.unsigned p with signature := base64 sig }

section Handshake

variable {c : Connection} {key : Key} {secret : Bytes}

theorem assertDataInit_client (h : CanConnect p c key secret) :
    assertDataInit (c.client p).message.toJson = .ok (c.client p).message := by
  have hnonce : c.clientNonce ≠ [] := List.ne_nil_of_length_pos (by rw [h.nonces.1]; decide)
  have hid : c.expectedNodeId ≠ [] := h.node ▸ h.node_ne
  simp only [assertDataInit, bind_eq_ok]
  refine ⟨_, rfl, c.expectedNodeId, requireText_str hid, _, decodeBase64Field_base64 h.points.1, _,
    decodeBase64Field_base64 hnonce, _, requireFinite_clock h.clocks.1, _,
    requireText_str (base64_ne_nil h.points.1), _, requireText_str (base64_ne_nil hnonce), rfl⟩

theorem assertChallenge_createChallenge {clock : JsNumber} {nodeId : JsString} {x : JsNumber}
    {nonce binding : Bytes} (hid : nodeId ≠ []) (hx : IsClock x) (hnonce : nonce ≠ []) (hb : binding ≠ []) :
    assertChallenge (createChallenge clock nodeId (some (.num x)) nonce (some binding)) = .ok () := by
  simp only [assertChallenge, assertAuthBase, bind_eq_ok]
  exact ⟨(), ⟨(), rfl, (), rfl, nodeId, requireText_str hid, x, requireFinite_clock hx,
    checkBinding_base64 hb⟩, nonce, decodeBase64Field_base64 hnonce, rfl⟩

/-- **The node accepts the init.** -/
theorem acceptDataInit_client (hp : Lawful p) (h : CanConnect p c key secret) :
    ∃ sig, p.sign c.identityPem (signingPayload (unsignedFields (c.unsigned p))) = some sig ∧
      acceptDataInit p c.identityPem ⟨(c.client p).message.toJson, c.deps.nodeId, c.acceptClock, c.nodeKey,
        c.nodeNonce⟩ = .ok ⟨c.accept p secret sig, c.session p secret .server⟩ := by
  have hnonce : c.clientNonce ≠ [] := List.ne_nil_of_length_pos (by rw [h.nonces.1]; decide)
  obtain ⟨sig, hsig, -, -⟩ := h.identity (signingPayload (unsignedFields (c.unsigned p)))
  refine ⟨sig, hsig, ?_⟩
  have hsession : deriveSecureSession p .server c.nodeKey (p.ecdhPublic c.clientKey) c.clientNonce c.nodeNonce
      (c.transcript p) = .ok (c.session p secret .server) :=
    deriveSecureSession_eq_ok.mpr ⟨by rw [h.nonces.1]; decide, by rw [h.nonces.2]; decide, secret, h.ecdh.2, rfl⟩
  have hproof : signChallenge p (createChallenge c.acceptClock c.deps.nodeId (some (.num c.acceptClock))
      c.clientNonce (some (c.transcript p))) c.identityPem c.deps.nodeId c.acceptClock c.nodeNonce =
      .ok { c.unsigned p with signature := base64 sig } := by
    simp only [signChallenge, bind_eq_ok, require_eq_ok]
    refine ⟨(), assertChallenge_createChallenge h.node_ne h.clocks.2 hnonce (c.transcript_ne_nil hp),
      (), by simp [createChallenge], ?_⟩
    split
    · rename_i hnone
      cases hnone.symm.trans hsig
    · rename_i sig' hsig'
      cases hsig'.symm.trans hsig
      rfl
  simp only [acceptDataInit, bind_eq_ok, require_eq_ok]
  refine ⟨_, assertDataInit_client h, (), ?_, _, decodeBase64Field_base64 h.points.1, _,
    decodeBase64Field_base64 hnonce, _, hsession, _, hproof, rfl⟩
  simp [Connection.client, createDataInit, h.node]

/-- The fields of the signed proof. -/
def Connection.proofFields (p : Platform) (c : Connection) (sig : Bytes) : List (JsString × Json) :=
  unsignedFields (c.unsigned p) ++ [(js "signature", .str (base64 sig))]

theorem signingPayload_proofFields (c : Connection) (sig : Bytes) :
    signingPayload (c.proofFields p sig) = signingPayload (unsignedFields (c.unsigned p)) := rfl

theorem assertProof_proofFields (hp : Lawful p) (h : CanConnect p c key secret) {sig : Bytes} (hsig : sig ≠ []) :
    assertProof (.obj (c.proofFields p sig)) = .ok (c.proofFields p sig) := by
  have hnonce : c.clientNonce ≠ [] := List.ne_nil_of_length_pos (by rw [h.nonces.1]; decide)
  have hnonce' : c.nodeNonce ≠ [] := List.ne_nil_of_length_pos (by rw [h.nonces.2]; decide)
  show (assertAuthBase (c.proofFields p sig) >>= fun _ => _) = _
  simp only [assertAuthBase, bind_eq_ok]
  exact ⟨(), ⟨(), rfl, (), rfl, _, requireText_str h.node_ne, _, requireFinite_clock h.clocks.2,
    checkBinding_base64 (c.transcript_ne_nil hp)⟩, _, decodeBase64Field_base64 hnonce, _,
    decodeBase64Field_base64 hnonce', _, requireText_str (base64_ne_nil hsig), rfl⟩

theorem verifyProof_proofFields (hp : Lawful p) (h : CanConnect p c key secret) {sig : Bytes}
    (hsig : p.sign c.identityPem (signingPayload (unsignedFields (c.unsigned p))) = some sig) :
    verifyProof p (.obj (c.proofFields p sig)) (createChallenge c.proofClock c.expectedNodeId
      (some (.num c.acceptClock)) c.clientNonce (some (c.transcript p))) c.expectedNodeId
      c.expectedNodePublicKeyPem c.proofClock = .ok (c.proofFields p sig) := by
  have hnonce : c.clientNonce ≠ [] := List.ne_nil_of_length_pos (by rw [h.nonces.1]; decide)
  obtain ⟨sig', hsig', hlen, hverify⟩ := h.identity (signingPayload (unsignedFields (c.unsigned p)))
  cases hsig'.symm.trans hsig
  have hne : sig ≠ [] := List.ne_nil_of_length_pos (by rw [hlen]; decide)
  have hid : c.expectedNodeId ≠ [] := h.node ▸ h.node_ne
  simp only [verifyProof, bind_eq_ok, require_eq_ok, decide_eq_true_eq]
  refine ⟨(), assertChallenge_createChallenge hid h.clocks.2 hnonce (c.transcript_ne_nil hp), _,
    assertProof_proofFields hp h hne, (), ?_, (), rfl, (), rfl, (), rfl, _, requireFinite_clock h.clocks.2, (),
    h.age, _, requireText_str (base64_ne_nil hne), ?_⟩
  · rw [h.node]
    rfl
  · rw [h.pinned]
    simp only [bind_eq_ok, require_eq_ok, decodeBase64_base64, signingPayload_proofFields]
    exact ⟨(), hverify, rfl⟩

/-- **The client takes the answer**, and derives the node's session with the keys exchanged. -/
theorem deriveClientDataSession_accept (hp : Lawful p) (h : CanConnect p c key secret) {sig : Bytes}
    (hsig : p.sign c.identityPem (signingPayload (unsignedFields (c.unsigned p))) = some sig) :
    deriveClientDataSession p (c.client p) (c.accept p secret sig).toJson c.expectedNodeId
      c.expectedNodePublicKeyPem c.proofClock = .ok (c.session p secret .client) := by
  have hnonce' : c.nodeNonce ≠ [] := List.ne_nil_of_length_pos (by rw [h.nonces.2]; decide)
  have hid : (c.session p secret .server).sessionId ≠ [] := by
    refine hex_ne_nil (List.ne_nil_of_length_pos ?_)
    unfold hkdf
    rw [hp.hkdf]
    decide
  have haccept : assertDataAccept (c.accept p secret sig).toJson = .ok (base64 (p.ecdhPublic c.nodeKey),
      (c.session p secret .server).sessionId, .obj (c.proofFields p sig)) := by
    simp only [assertDataAccept, bind_eq_ok]
    exact ⟨_, rfl, _, decodeBase64Field_base64 h.points.2, _, requireText_str hid, _,
      requireText_str (base64_ne_nil h.points.2), rfl⟩
  have htranscript : channelBinding p c.expectedNodeId (c.client p).message.client_public_key
      (c.client p).message.client_nonce (base64 (p.ecdhPublic c.nodeKey))
      (some (.str (base64 c.nodeNonce))) = c.transcript p := by
    rw [h.node]
    rfl
  have hsession : deriveSecureSession p .client c.clientKey (p.ecdhPublic c.nodeKey) c.clientNonce c.nodeNonce
      (c.transcript p) = .ok (c.session p secret .client) :=
    deriveSecureSession_eq_ok.mpr ⟨by rw [h.nonces.1]; decide, by rw [h.nonces.2]; decide, secret, h.ecdh.1, rfl⟩
  simp only [deriveClientDataSession, bind_eq_ok, require_eq_ok]
  refine ⟨_, haccept, c.proofFields p sig, ?_, _, decodeBase64Field_base64 h.points.2, c.nodeNonce,
    decodeBase64Field_base64 hnonce', c.session p secret .client, ?_, (), ?_, rfl⟩
  · have hverify := verifyProof_proofFields hp h hsig
    rw [← htranscript] at hverify
    exact hverify
  · rw [← htranscript] at hsession
    exact hsession
  · exact decide_eq_true (sessionKeys_swap p secret _ _ _).1.symm

end Handshake

/-! ### The dedupe key -/

theorem requestHeaders_record {hs : List (JsString × JsString)} (h : IsRecord hs) :
    requestHeaders p (headersJson hs) = .ok (hs.filter fun e => isRequestHeader p e.1) :=
  have hsub : ((hs.filter fun e => isRequestHeader p e.1).map Prod.fst).Sublist (hs.map Prod.fst) :=
    List.filter_sublist.map _
  requestHeaders_strings rfl (ordered_iff_keys.mpr (h.2.sublist hsub)) (h.1.sublist hsub)

/-- Control headers of a profile do not count for the key. -/
theorem semantic_isRequestHeader {k n : JsString} (hn : n ∈ SEMANTIC_HEADERS) (hk : p.toLowerCase k = n) :
    isRequestHeader p k = true := by
  have hdis : ∀ m ∈ SEMANTIC_HEADERS, m ∉ PROFILE_CONTROL_HEADERS := by decide
  unfold isRequestHeader
  rw [hk]
  simpa using hdis n hn

theorem semanticValues_prepared (hp : Lawful p) (hs : List (JsString × JsString)) (f : ProxyExecutionProfileV1)
    {n : JsString} (hn : n ∈ SEMANTIC_HEADERS) :
    semanticValues p n ((hs.filter fun e => isRequestHeader p e.1) ++ controlHeadersForNormalizedProfile f) =
      semanticValues p n hs := by
  have hown : semanticValues p n (hs.filter fun e => isRequestHeader p e.1) = semanticValues p n hs := by
    unfold semanticValues
    rw [List.filter_filter]
    congr 1
    refine List.filter_congr fun e _ => ?_
    by_cases he : p.toLowerCase e.1 = n
    · simp [he, semantic_isRequestHeader hn he]
    · simp [he]
  have hctl : semanticValues p n (controlHeadersForNormalizedProfile f) = [] := by
    unfold semanticValues
    rw [List.filter_eq_nil_iff.mpr, List.map_nil]
    intro e he
    have hmem : e.1 ∈ PROFILE_CONTROL_HEADERS := (controlHeaders_keys f).subset (List.mem_map_of_mem he)
    rw [decide_eq_true_eq]
    intro hk
    have hno := isRequestHeader_control hp.case hmem
    rw [semantic_isRequestHeader hn hk] at hno
    cases hno
  rw [semanticValues_append, hown, hctl, List.append_nil]

/-- The headers of a prepared request say what those of the client say. -/
theorem canonicalizeSemanticHeaders_prepared (hp : Lawful p) {hs : List (JsString × JsString)} (h : IsRecord hs)
    {v : Json} {url method : JsString} {P : PreparedProxyProfileV1}
    (hP : prepareProxyProfileRequestV1 p v url method (some (headersJson hs)) = .ok P) :
    canonicalizeSemanticHeaders p (headersJson P.headers) = canonicalizeSemanticHeaders p (headersJson hs) := by
  obtain ⟨-, -, own, hown, -, hheaders⟩ := prepare_eq_ok.mp hP
  have hown' : requestHeaders p (headersJson hs) = .ok own := hown
  rw [hheaders, preparedHeaders_eq hp.case hown']
  obtain rfl : own = hs.filter fun e => isRequestHeader p e.1 :=
    Except.ok.inj (hown'.symm.trans (requestHeaders_record h))
  exact canonicalizeSemanticHeaders_congr fun n hn => semanticValues_prepared hp hs P.profile hn

theorem prepare_upper (hp : Lawful p) (v : Json) (url m : JsString) (headers : Option Json) :
    prepareProxyProfileRequestV1 p v url (p.toUpperCase m) headers =
      prepareProxyProfileRequestV1 p v url m headers := by
  simp only [prepareProxyProfileRequestV1, assertProxyProfileRequestV1, checkTarget, hp.upper]

/-! ### The payload -/

/-- The types of the interface `ProxyExecutionProfileV1`. -/
inductive ProfileField : JsString → Json → Prop
  | text {k : JsString} (s : JsString) (h : k ∈ [js "protocol", js "base_url", js "node_region",
      js "node_domain", js "node_exclude"]) : ProfileField k (.str s)
  | texts {k : JsString} (ss : List JsString) (h : k ∈ [js "allowed_methods", js "allowed_paths"]) :
      ProfileField k (.arr (ss.map .str))
  | flag {k : JsString} (b : Bool) (h : k ∈ [js "verbose", js "direct"]) : ProfileField k (.bool b)
  | number {k : JsString} (x : JsNumber) (h : k ∈ [js "version", js "cache_ttl"]) : ProfileField k (.num x)

/-- A value of the type `ProxyExecutionProfileV1`; it may have other properties too. -/
structure IsProfile (v : Json) : Prop where
  readable : Readable v
  typed : ∀ fs, v = .obj fs → ∀ e ∈ fs, e.1 ∈ PROFILE_KEYS → ProfileField e.1 e.2

/-- A request as the types of `runDataRequest` have it. -/
structure ClientRequest.Typed (r : ClientRequest) : Prop where
  headers : ∀ hs, r.headers = some hs → IsRecord hs
  profile : ∀ v, r.profile = some v → IsProfile v

theorem finitizeList_str : ∀ ss : List JsString, finitizeList (ss.map .str) = ss.map .str
  | [] => rfl
  | s :: ss => by
    rw [List.map_cons, finitizeList, finitizeList_str ss]
    rfl

theorem finitize_cacheTtl {x y : JsNumber} (h : normalizeCacheTtl (some (.num x)) = .ok y) :
    finitize (.num x) = .num x := by
  rcases x with ⟨q, hq⟩ | _ | _
  · rfl
  · cases h
  · cases h

/-- A profile that is accepted has no infinite numbers. -/
theorem exact_profile {v : Json} {f : ProxyExecutionProfileV1} (hv : IsProfile v)
    (h : normalizeProxyProfileV1 p v = .ok f) : Exact v := by
  obtain ⟨fs, rfl, hshape, -, -, -, httl, -⟩ := normalize_eq_ok.mp h
  obtain ⟨hkeys, -, hversion⟩ := checkShape_eq_ok.mp hshape
  obtain ⟨hnd, -, -⟩ := readable_obj_iff.mp hv.readable
  refine ⟨hv.readable, ?_⟩
  rw [finitize, finitizeFields_eq_self fun e he => ?_]
  have hlookup : fs.lookup e.1 = some e.2 := (OrdMap.lookup_eq_some hnd).mpr he
  have htyped := hv.typed fs rfl e he (hkeys e.1 (List.mem_map_of_mem he))
  obtain ⟨k, w⟩ := e
  rcases htyped with ⟨s, -⟩ | ⟨ss, -⟩ | ⟨b, -⟩ | ⟨x, hk⟩
  · rfl
  · show finitize (.arr _) = _
    rw [finitize, finitizeList_str]
  · rfl
  · simp only [List.mem_cons, List.not_mem_nil, or_false] at hk
    rcases hk with rfl | rfl
    · rw [hversion] at hlookup
      cases hlookup
      rfl
    · have hlookup : fs.lookup (js "cache_ttl") = some (.num x) := hlookup
      rw [hlookup] at httl
      exact finitize_cacheTtl httl

/-- The profile, if there is one, is accepted for the request. -/
def ClientRequest.Accepted (p : Platform) (r : ClientRequest) (prepared : Option PreparedProxyProfileV1) : Prop :=
  match r.profile, prepared with
  | none, none => True
  | some v, some P => prepareProxyProfileRequestV1 p v r.target_url (r.method.getD (js "GET"))
      (r.headers.map headersJson) = .ok P
  | _, _ => False

theorem exact_requestPayload {r : ClientRequest} {prepared : Option PreparedProxyProfileV1} (hr : r.Typed)
    (ha : r.Accepted p prepared) (token : JsString) : Exact (requestPayload token r) := by
  have hprofile : ∀ v, r.profile = some v → Exact v := by
    intro v hv
    unfold ClientRequest.Accepted at ha
    rw [hv] at ha
    rcases prepared with _ | P
    · exact ha.elim
    · exact exact_profile (hr.profile v hv) (prepare_eq_ok.mp ha).1
  refine exact_definedFields ?_ ?_ ?_
  · show [js "type", js "token", js "target_url", js "method", js "headers", js "body", js "body_encoding",
      js "profile"].Nodup
    decide
  · show [js "type", js "token", js "target_url", js "method", js "headers", js "body", js "body_encoding",
      js "profile"].Pairwise _
    decide
  · intro e he v hv
    simp only [List.mem_cons, List.not_mem_nil, or_false] at he
    rcases he with rfl | rfl | rfl | rfl | rfl | rfl | rfl | rfl
    · cases hv
      exact exact_str _
    · cases hv
      exact exact_str _
    · cases hv
      exact exact_str _
    · obtain ⟨m, -, rfl⟩ := Option.map_eq_some_iff.mp hv
      exact exact_str _
    · obtain ⟨hs, hhs, rfl⟩ := Option.map_eq_some_iff.mp hv
      exact exact_headersJson (hr.headers hs hhs)
    · obtain ⟨b, -, rfl⟩ := Option.map_eq_some_iff.mp hv
      exact exact_str _
    · obtain ⟨b, -, rfl⟩ := Option.map_eq_some_iff.mp hv
      exact exact_str _
    · exact hprofile v hv

/-- The payload that arrives. -/
def ClientRequest.payload (r : ClientRequest) (token : JsString) : ProxyRequestPayload where
  token := token
  target_url := r.target_url
  method := r.method.map .str
  headers := r.headers.map headersJson
  body := r.body.map fun b => .str (base64 b.bytes)
  body_encoding := r.body.map fun _ => .str (js "base64")
  profile := r.profile

theorem field?_requestPayload (token : JsString) (r : ClientRequest) (k : JsString) :
    (requestPayload token r).field? k = ([(js "type", some (.str (js "proxy_request"))),
      (js "token", some (.str token)), (js "target_url", some (.str r.target_url)),
      (js "method", r.method.map .str), (js "headers", r.headers.map headersJson),
      (js "body", r.body.map fun b => .str (base64 b.bytes)),
      (js "body_encoding", r.body.map fun _ => .str (js "base64")),
      (js "profile", r.profile)].lookup k).join := by
  refine lookup_definedFields ?_
  show [js "type", js "token", js "target_url", js "method", js "headers", js "body", js "body_encoding",
    js "profile"].Nodup
  decide

/-- **The node decodes the payload.** -/
theorem decodePayload_requestPayload {r : ClientRequest} {prepared : Option PreparedProxyProfileV1}
    (hr : r.Typed) (ha : r.Accepted p prepared) {token : JsString} {key raw : Bytes} {frame : FrameParts}
    (hopen : openFrame p key raw = .ok (frame, encodeJson (requestPayload token r)))
    (htype : frame.type = .data) : decodePayload p key raw = .ok (r.payload token) := by
  simp only [decodePayload, bind_eq_ok, require_eq_ok]
  refine ⟨_, hopen, (), by simp [htype], _, decodeJson_encodeJson (exact_requestPayload hr ha token),
    some (.str (js "proxy_request")), ?_, ?_⟩
  · exact get_some_iff.mpr (by rw [field?_requestPayload]; rfl)
  · simp only [field?_requestPayload]
    rfl

theorem decodeBody_payload (r : ClientRequest) (token : JsString) :
    decodeBody p (r.payload token).body (r.payload token).body_encoding =
      .ok (r.body.map fun b => .buffer b.bytes) := by
  unfold ClientRequest.payload
  rcases r.body with _ | b
  · rfl
  · show Except.ok (some (RequestBody.buffer (decodeBase64 (base64 b.bytes)))) = _
    rw [decodeBase64_base64]
    rfl

theorem payloadMethod_payload (r : ClientRequest) (token : JsString) :
    payloadMethod p (r.payload token).method = .ok (p.toUpperCase (r.method.getD (js "GET"))) := by
  unfold ClientRequest.payload
  rcases r.method with _ | m
  · rfl
  · rfl

theorem preparePayload_payload (hp : Lawful p) {r : ClientRequest} {prepared : Option PreparedProxyProfileV1}
    (ha : r.Accepted p prepared) (token : JsString) :
    preparePayload p (r.payload token) (p.toUpperCase (r.method.getD (js "GET"))) = .ok prepared := by
  unfold ClientRequest.Accepted at ha
  unfold preparePayload ClientRequest.payload
  rcases hv : r.profile with _ | v
  · rw [hv] at ha
    rcases prepared with _ | P
    · rfl
    · exact ha.elim
  · rw [hv] at ha
    rcases prepared with _ | P
    · exact ha.elim
    · have hprep : prepareProxyProfileRequestV1 p v r.target_url (r.method.getD (js "GET"))
          (r.headers.map headersJson) = .ok P := ha
      obtain ⟨fs, rfl, -⟩ := normalize_eq_ok.mp (prepare_eq_ok.mp hprep).1
      have htruthy : Json.truthy (some (.obj fs)) = true := rfl
      simp only [htruthy, if_true, prepare_upper hp, hprep]
      rfl

/-- What the node plans for a request. -/
def ClientRequest.plan (p : Platform) (r : ClientRequest) (token : JsString)
    (prepared : Option PreparedProxyProfileV1) : PlannedServe where
  token := token
  request := {
    target_url := r.target_url
    method := p.toUpperCase (r.method.getD (js "GET"))
    headers := preparedHeaders prepared (r.headers.map headersJson)
    body := r.body.map fun b => .buffer b.bytes
    profile_hash := prepared.map PreparedProxyProfileV1.profile_hash }
  served := {
    target_url := r.target_url
    method := some (p.toUpperCase (r.method.getD (js "GET")))
    headers := preparedHeaders prepared (r.headers.map headersJson)
    body := r.body.map fun b => .buffer b.bytes
    profile := prepared.map fun q => profileJson q.profile }

/-- **The node plans the request that was sent.** -/
theorem planServe_requestPayload (hp : Lawful p) {r : ClientRequest} {prepared : Option PreparedProxyProfileV1}
    (hr : r.Typed) (ha : r.Accepted p prepared) {token : JsString} {key raw : Bytes} {frame : FrameParts}
    (hopen : openFrame p key raw = .ok (frame, encodeJson (requestPayload token r)))
    (htype : frame.type = .data) : planServe p key raw = .ok (r.plan p token prepared) := by
  simp only [planServe, bind_eq_ok, mapError_eq_ok]
  exact ⟨_, decodePayload_requestPayload hr ha hopen htype, _, decodeBody_payload r token, _,
    payloadMethod_payload r token, _, preparePayload_payload hp ha token, rfl⟩

/-- **The keys agree**: the request that is planned has the dedupe key of the request that was sent. -/
theorem generateDedupeKey_plan (hp : Lawful p) {r : ClientRequest} {prepared : Option PreparedProxyProfileV1}
    (hr : r.Typed) (ha : r.Accepted p prepared) (token : JsString) :
    generateDedupeKey p (r.plan p token prepared).request =
      generateDedupeKey p (r.dedupeParams (prepared.map PreparedProxyProfileV1.profile_hash)) := by
  have hheaders : canonicalizeSemanticHeaders p
      ((preparedHeaders prepared (r.headers.map headersJson)).getD (.obj [])) =
        canonicalizeSemanticHeaders p ((r.headers.map headersJson).getD (.obj [])) := by
    rcases prepared with _ | P
    · rfl
    · unfold ClientRequest.Accepted at ha
      rcases hv : r.profile with _ | v
      · rw [hv] at ha
        exact ha.elim
      · rw [hv] at ha
        rcases hhs : r.headers with _ | hs
        · rw [hhs] at ha
          have hnone : IsRecord ([] : List (JsString × JsString)) := ⟨.nil, .nil⟩
          exact canonicalizeSemanticHeaders_prepared hp hnone ha
        · rw [hhs] at ha
          exact canonicalizeSemanticHeaders_prepared hp (hr.headers hs hhs) ha
  have hbody : computeBodyHash p (r.body.map fun b => .buffer b.bytes) =
      computeBodyHash p (r.body.map ClientBody.requestBody) := by
    rcases r.body with _ | ⟨s | b⟩
    · rfl
    · rfl
    · rfl
  unfold generateDedupeKey ClientRequest.plan ClientRequest.dedupeParams
  simp only [hheaders, hbody, hp.upper]

/-! ### The ticket -/

/-- `hashProxyProfileV1` of the profile. -/
def ClientRequest.profileHash (p : Platform) (r : ClientRequest) : Except JsError (Option JsString) :=
  match r.profile with
  | none => .ok none
  | some v => (hashProxyProfileV1 p v).map some

theorem profileHash_accepted {r : ClientRequest} {prepared : Option PreparedProxyProfileV1}
    (ha : r.Accepted p prepared) :
    r.profileHash p = .ok (prepared.map PreparedProxyProfileV1.profile_hash) := by
  unfold ClientRequest.Accepted at ha
  unfold ClientRequest.profileHash
  rcases hv : r.profile with _ | v
  · rw [hv] at ha
    rcases prepared with _ | P
    · rfl
    · exact ha.elim
  · rw [hv] at ha
    rcases prepared with _ | P
    · exact ha.elim
    · obtain ⟨hf, -, -, -, hhash, -⟩ := prepare_eq_ok.mp ha
      unfold hashProxyProfileV1
      simp only [hf, Option.map_some, hhash]
      rfl

/-- A finite number. -/
def IsFinite (x : JsNumber) : Prop := ∃ q h, x = .fin q h

/-- A ticket that `issueTicket` has made for a request to a node, of any scope, good at the time of the
node's clock. -/
structure TicketFor (p : Platform) (c : Connection) (call : IssueCall) (secretKey : JsString)
    (exp : JsNumber) : Prop where
  issued : call.Returned p secretKey c.token
  key : KeyPair p secretKey c.deps.pinnedKey
  node : call.input.nodeId = c.deps.nodeId
  request : ∃ hash, c.request.profileHash p = .ok hash ∧
    generateDedupeKey p (c.request.dedupeParams hash) = .ok call.input.dedupeKey
  jti : call.input.jti ≠ []
  expires : call.now.add (call.input.ttlSec.getD DEFAULT_TTL_SEC) = some exp
  finite : IsFinite call.now ∧ IsFinite exp
  unexpired : isExpired exp DEFAULT_CLOCK_TOLERANCE_SEC c.ticketClock = false
  started : isFuture call.now DEFAULT_CLOCK_TOLERANCE_SEC c.ticketClock = false

theorem generateDedupeKey_ne_nil (hp : Lawful p) {d : DedupeParams} {key : JsString}
    (h : generateDedupeKey p d = .ok key) : key ≠ [] := by
  obtain ⟨headers, url, -, -, rfl⟩ := generateDedupeKey_eq_ok h
  exact hex_ne_nil (hp.digest _)

theorem finitize_claimsJson {call : IssueCall} {exp : JsNumber}
    (hexp : call.now.add (call.input.ttlSec.getD DEFAULT_TTL_SEC) = some exp)
    (hf : IsFinite call.now ∧ IsFinite exp) :
    finitize (claimsJson call.input call.now) = claimsJson call.input call.now := by
  obtain ⟨⟨q, hq, hnow⟩, q', hq', rfl⟩ := hf
  unfold claimsJson
  rw [hexp, hnow]
  rfl

/-- What the token carries, and its signature. -/
theorem TicketFor.signed {c : Connection} {call : IssueCall} {secretKey : JsString} {exp : JsNumber}
    (ht : TicketFor p c call secretKey exp) :
    ∃ sig, tokenParts c.token = .ok ⟨call.sign.m, sig, call.sign.f⟩ ∧
      p.verify c.deps.pinnedKey (pae [HEADER_BYTES, call.sign.m, call.sign.f, utf8 c.deps.nodeId]) sig = true := by
  obtain ⟨sig, hsig, htoken⟩ := signV4Public_eq_some.mp ht.issued
  obtain ⟨sig', hsig', hlen, hverify⟩ := ht.key (pae [HEADER_BYTES, call.sign.m, call.sign.f, call.sign.i])
  obtain rfl : sig' = sig := Option.some.inj (hsig'.symm.trans hsig)
  refine ⟨sig', ?_, ?_⟩
  · rw [← htoken]
    exact tokenParts_tokenText hlen
  · rw [← ht.node]
    exact hverify

/-- **The ticket passes every check** on the request that the node plans. -/
theorem bound_ticketFor (hp : Lawful p) {c : Connection} {prepared : Option PreparedProxyProfileV1}
    (hr : c.request.Typed) (ha : c.request.Accepted p prepared) {call : IssueCall} {secretKey : JsString}
    {exp : JsNumber} (ht : TicketFor p c call secretKey exp)
    (hscope : call.input.scope.getD TICKET_SCOPE_PROXY = TICKET_SCOPE_PROXY) :
    ∃ v, Bound p c.ticketClock (ticketOptions c.deps (c.request.plan p c.token prepared)) v ∧
      v.claims.jti = call.input.jti := by
  obtain ⟨hash, hhash, hkey⟩ := ht.request
  obtain rfl : hash = prepared.map PreparedProxyProfileV1.profile_hash :=
    Except.ok.inj (hhash.symm.trans (profileHash_accepted ha))
  obtain ⟨sig, hparts, hverify⟩ := ht.signed
  have hraw : parse (decodeUtf8 call.sign.m) = some (claimsJson call.input call.now) := by
    rw [call.parse_message, finitize_claimsJson ht.expires ht.finite]
  let claims : TicketClaims := {
    iss := TICKET_ISSUER, aud := c.deps.nodeId, sub := call.input.dedupeKey, scope := TICKET_SCOPE_PROXY
    iat := call.now, exp := exp, jti := call.input.jti }
  have hadmits : Admits ⟨c.deps.nodeId, none, none, none⟩ c.ticketClock (claimsJson call.input call.now)
      claims := by
    refine ⟨⟨rfl, ?_, ?_, ?_, ht.unexpired, rfl, rfl⟩, rfl, ht.started, ht.jti,
      generateDedupeKey_ne_nil hp hkey, rfl, rfl, rfl⟩
    · rw [← ht.node]
      rfl
    · show some (Json.str (call.input.scope.getD TICKET_SCOPE_PROXY)) = _
      rw [hscope]
      rfl
    · show some (numJson (call.now.add (call.input.ttlSec.getD DEFAULT_TTL_SEC))) = _
      rw [ht.expires]
      rfl
  refine ⟨⟨claims, footerKid call.sign.f, call.input.dedupeKey⟩, ⟨⟨_, _, hparts, hverify, hraw, hadmits, rfl⟩,
    ?_, rfl⟩, rfl⟩
  exact (generateDedupeKey_plan hp hr ha c.token).trans hkey

theorem has_sweep {cache : JtiReplayCache} {now : JsNumber} {jti : JsString}
    (h : cache.seen.has jti = false) : (cache.sweep now).seen.has jti = false := by
  rw [OrdMap.not_has_iff] at h ⊢
  rcases hget : (cache.sweep now).seen.get? jti with _ | e
  · rfl
  · have := (JtiReplayCache.get?_sweep.mp hget).1
    rw [h] at this
    cases this

/-- **The node calls `serve`** with the request it has planned. -/
theorem resolveProxyResponse_ticketFor (hp : Lawful p) {c : Connection}
    {prepared : Option PreparedProxyProfileV1} (hr : c.request.Typed) (ha : c.request.Accepted p prepared)
    {call : IssueCall} {secretKey : JsString} {exp : JsNumber} (ht : TicketFor p c call secretKey exp)
    (hscope : call.input.scope.getD TICKET_SCOPE_PROXY = TICKET_SCOPE_PROXY)
    {replay : JtiReplayCache} (hfresh : replay.seen.has call.input.jti = false) {session : SecureSession}
    {raw : Bytes} {frame : FrameParts}
    (hopen : openFrame p session.receiveKey raw = .ok (frame, encodeJson (requestPayload c.token c.request)))
    (htype : frame.type = .data) :
    ∃ replay', resolveProxyResponse p c.deps replay ⟨session, raw, c.ticketClock, c.replayClock⟩ =
      (.ok (c.request.plan p c.token prepared).served, replay') := by
  obtain ⟨v, hbound, hjti⟩ := bound_ticketFor hp hr ha ht hscope
  obtain ⟨replay', hverify, -⟩ : ∃ replay', verifyRequestTicket p c.ticketClock c.replayClock
      (ticketOptions c.deps (c.request.plan p c.token prepared)) (some replay) = (.ok v, some replay') ∧ _ :=
    ok_of_bound hbound (has_sweep (hjti ▸ hfresh))
  refine ⟨replay', ?_⟩
  unfold resolveProxyResponse
  simp only [planServe_requestPayload hp hr ha hopen htype, hverify]
  rfl

/-! ### Another scope -/

/-- The one answer to a ticket of another scope. -/
def SCOPE_MISMATCH : JsError := .thrown (js "ticket: scope mismatch")

theorem checkClaims_otherScope {call : IssueCall} {nodeId : JsString} (hnode : call.input.nodeId = nodeId)
    (hscope : call.input.scope.getD TICKET_SCOPE_PROXY ≠ TICKET_SCOPE_PROXY) (now : JsNumber) :
    checkClaims ⟨nodeId, none, none, none⟩ now (finitize (claimsJson call.input call.now)) =
      .error SCOPE_MISMATCH := by
  refine checkClaims_scope rfl ?_ ?_
  · rw [← hnode]
    rfl
  · intro h
    exact hscope (Json.str.inj (Option.some.inj h))

/-- **The scope is checked**: a ticket of another scope is refused, and the cache is left as it was. -/
theorem resolveProxyResponse_scope (hp : Lawful p) {c : Connection}
    {prepared : Option PreparedProxyProfileV1} (hr : c.request.Typed) (ha : c.request.Accepted p prepared)
    {call : IssueCall} {secretKey : JsString} {exp : JsNumber} (ht : TicketFor p c call secretKey exp)
    (hscope : call.input.scope.getD TICKET_SCOPE_PROXY ≠ TICKET_SCOPE_PROXY) {replay : JtiReplayCache}
    {session : SecureSession} {raw : Bytes} {frame : FrameParts}
    (hopen : openFrame p session.receiveKey raw = .ok (frame, encodeJson (requestPayload c.token c.request)))
    (htype : frame.type = .data) :
    resolveProxyResponse p c.deps replay ⟨session, raw, c.ticketClock, c.replayClock⟩ =
      (.error (.respond .unauthorized SCOPE_MISMATCH), replay) := by
  obtain ⟨sig, hparts, hverify⟩ := ht.signed
  have htoken : verifyV4Public p c.token c.deps.pinnedKey (utf8 c.deps.nodeId) =
      .ok (call.sign.m, call.sign.f) := verifyV4Public_eq_ok.mpr ⟨sig, hparts, hverify⟩
  have hverified : verifyTicket p c.ticketClock c.token c.deps.pinnedKey ⟨c.deps.nodeId, none, none, none⟩ =
      .error SCOPE_MISMATCH :=
    verifyTicket_eq_error htoken call.parse_message (checkClaims_otherScope ht.node hscope _)
  have hcheck : checkRequestTicket p c.ticketClock (ticketOptions c.deps (c.request.plan p c.token prepared)) =
      .error SCOPE_MISMATCH := checkRequestTicket_eq_error hverified
  unfold resolveProxyResponse verifyRequestTicket
  simp only [planServe_requestPayload hp hr ha hopen htype, hcheck]
  rfl

end ConsensusNode.Tunnel
