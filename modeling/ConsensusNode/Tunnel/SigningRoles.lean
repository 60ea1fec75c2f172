import ConsensusNode.Tunnel.HandshakeAgreement

/-! # What the identity key signs

The node signs with one key in four places: the init of a tunnel, the proof for a client, the integrity
payload of `node/integrity.ts` and the nonce of a join, `handleJoinReady` of `clients/eval-client.ts`. The
first three are canonical JSON and carry what they are for as a field; the nonce is signed as it comes.

* `SigningCall.run_eq`: what each place hands to the signature.
* `Text.tagged`: every text but the join nonce says which role it is for; `text_join`: every byte string is a join
  nonce.
* `roles_separated`: two roles have no text in common if and only if neither is the join nonce. -/

namespace ConsensusNode.Tunnel

open Js Crypto Handshake

variable (p : Platform)

/-- `signBytes`. -/
def signBytes (privateKeyPem : JsString) (payload : Bytes) : Except JsError JsString :=
  match p.sign privateKeyPem payload with
  | none => .error .native
  | some signature => .ok (base64 signature)

/-! ### The integrity payload -/

/-- What `releaseManifest` collects from the environment and the package. -/
structure ReleaseManifest where
  version : JsString
  platform : JsString
  commit : JsString
  download_url : Option JsString
  tarball_sha256 : Option JsString
  routes_hash : JsString
  capabilities : List JsString
  signing_key_id : Option JsString
  signature : Option JsString

def PRODUCT : JsString := js "consensus-node"

def ReleaseManifest.toJson (m : ReleaseManifest) : Json :=
  .obj (definedFields [(js "product", some (.str PRODUCT)), (js "version", some (.str m.version)),
    (js "artifact", some (.str (js "npm-tarball"))), (js "platform", some (.str m.platform)),
    (js "commit", some (.str m.commit)), (js "download_url", m.download_url.map .str),
    (js "tarball_sha256", m.tarball_sha256.map .str), (js "routes_hash", some (.str m.routes_hash)),
    (js "capabilities", some (.arr (m.capabilities.map .str))), (js "signing_key_id", m.signing_key_id.map .str),
    (js "signature", m.signature.map .str)])

/-- A call of `integrityPayload`, with the random bytes of its nonce. -/
structure IntegrityCall where
  publicKeyPem : JsString
  manifest : ReleaseManifest
  clock : JsNumber
  nonce : Bytes

/-- The payload without its signature. -/
def integrityFields (x : IntegrityCall) : List (JsString × Json) :=
  [(js "product", .str PRODUCT), (js "version", .str x.manifest.version), (js "runtime", .str (js "bun")),
    (js "platform", .str x.manifest.platform), (js "node_public_key_pem", .str x.publicKeyPem),
    (js "manifest", x.manifest.toJson), (js "timestamp", .num x.clock), (js "nonce", .str (hex x.nonce))]

structure IntegrityPayload where
  unsigned : List (JsString × Json)
  signature : JsString

def IntegrityPayload.toJson (m : IntegrityPayload) : Json := .obj (m.unsigned ++ [(js "signature", .str m.signature)])

def integrityPayload (privateKeyPem : JsString) (x : IntegrityCall) : Except JsError IntegrityPayload := do
  let unsigned := integrityFields x
  let signature ← signBytes p privateKeyPem (utf8 (canonicalJson (.obj unsigned)))
  return { unsigned, signature }

/-! ### The join nonce -/

/-- `s.replace(/a/g, b)` for single characters. -/
def replaceAll (a b : UInt16) (s : JsString) : JsString := s.map fun c => if c = a then b else c

def decodeBase64Url (value : JsString) : Bytes :=
  let normalized := replaceAll (unit '_') (unit '/') (replaceAll (unit '-') (unit '+') value)
  decodeBase64 (normalized ++ List.replicate ((4 - normalized.length % 4) % 4) (unit '='))

/-- What is saved for the registration; the fields of the message are not checked. -/
structure JoinAuthorization where
  join_id : Option Json
  alg : Option Json
  nonce : JsString
  signature : JsString
  expires_at : Option Json
  saved_at : JsString
deriving DecidableEq

/-- The nonce of a `join_ready` message with these fields. A value that is no string has no `replace`. -/
def joinNonce (message : List (JsString × Json)) : Except JsError JsString :=
  match message.lookup (js "nonce") with
  | some (.str nonce) => .ok nonce
  | _ => .error .native

def handleJoinReady (privateKeyPem : JsString) (message : List (JsString × Json)) (savedAt : JsString) :
    Except JsError JoinAuthorization := do
  let nonce ← joinNonce message
  let signature ← signBytes p privateKeyPem (decodeBase64Url nonce)
  return { join_id := message.lookup (js "join_id"), alg := message.lookup (js "alg"), nonce, signature,
           expires_at := message.lookup (js "expires_at"), saved_at := savedAt }

/-! ### The four roles -/

inductive Role where
  | init
  | proof
  | integrity
  | join
deriving DecidableEq

/-- A call in one of the four places, with what it draws. -/
inductive SigningCall where
  | init (input : ClientHandshakeInput) (privateKey clientNonce : Bytes) (clock : JsNumber)
  | proof (challenge : ResponderChallenge) (nodeId : JsString) (now : JsNumber) (nodeNonce : Bytes)
  | integrity (call : IntegrityCall)
  | join (message : List (JsString × Json)) (savedAt : JsString)

namespace SigningCall

def role : SigningCall → Role
  | init .. => .init
  | proof .. => .proof
  | integrity .. => .integrity
  | join .. => .join

/-- The signature in what the call returns. -/
def run (privateKeyPem : JsString) : SigningCall → Except JsError JsString
  | init input privateKey clientNonce clock =>
    (createClientHandshake p { input with privateKeyPem } privateKey clientNonce clock).map
      fun h => h.message.signature
  | proof challenge nodeId now nodeNonce =>
    (signChallenge p challenge privateKeyPem nodeId now nodeNonce).map fun proof => proof.signature
  | integrity call => (integrityPayload p privateKeyPem call).map fun m => m.signature
  | join message savedAt => (handleJoinReady p privateKeyPem message savedAt).map fun auth => auth.signature

/-- The proof that `signChallenge` signs. -/
def unsignedProof (challenge : ResponderChallenge) (nodeId : JsString) (now : JsNumber) (nodeNonce : Bytes) :
    ResponderProof where
  node_id := nodeId
  client_nonce := challenge.client_nonce
  node_nonce := base64 nodeNonce
  timestamp := now
  channel_binding := challenge.channel_binding
  signature := []

/-- The bytes that the call signs. -/
def signs : SigningCall → Except JsError Bytes
  | init input privateKey clientNonce clock =>
    .ok (utf8 (handshakeSigningPayload (initFields (unsignedInit p input privateKey clientNonce clock))))
  | proof challenge nodeId now nodeNonce => do
    assertChallenge challenge
    require (challenge.node_id = nodeId) (js "responder-auth: challenge targets a different node")
    return signingPayload (unsignedFields (unsignedProof challenge nodeId now nodeNonce))
  | integrity call => .ok (utf8 (canonicalJson (.obj (integrityFields call))))
  | join message _ => (joinNonce message).map decodeBase64Url

end SigningCall

/-- The texts of a role: what its calls sign, and what the two functions that verify a signature of a node
take a message for. -/
inductive Text : Role → Bytes → Prop where
  | signed (x : SigningCall) (b : Bytes) : x.signs p = .ok b → Text x.role b
  | checkedInit (message : Json) (m : CheckedInit) : message.Wf → assertHandshakeInit message = .ok m →
      Text .init (utf8 (handshakeSigningPayload m.fields))
  | checkedProof (message : Json) (fs : List (JsString × Json)) : message.Wf → assertProof message = .ok fs →
      Text .proof (signingPayload fs)

variable {p}

/-! ### What a call hands to the signature -/

/-- A result with the signature in it. -/
theorem map_signature {α : Type} (message : JsString → α) (signature : α → JsString)
    (h : ∀ s, signature (message s) = s) (r : Except JsError JsString) :
    (r >>= fun s => Except.ok (message s)).map signature = r := by
  rcases r with err | s
  · rfl
  · exact congrArg Except.ok (h s)

theorem createClientHandshake_signature (pem : JsString) (input : ClientHandshakeInput)
    (privateKey clientNonce : Bytes) (clock : JsNumber) :
    (createClientHandshake p { input with privateKeyPem := pem } privateKey clientNonce clock).map
      (fun h => h.message.signature) =
    signBytes p pem
      (utf8 (handshakeSigningPayload (initFields (unsignedInit p input privateKey clientNonce clock)))) := by
  unfold createClientHandshake signUtf8 signBytes
  dsimp only
  rw [show unsignedInit p { input with privateKeyPem := pem } privateKey clientNonce clock =
    unsignedInit p input privateKey clientNonce clock from rfl]
  rcases p.sign pem _ with _ | sig
  · rfl
  · rfl

theorem signChallenge_signature (pem : JsString) (challenge : ResponderChallenge) (nodeId : JsString)
    (now : JsNumber) (nodeNonce : Bytes) :
    (signChallenge p challenge pem nodeId now nodeNonce).map (fun proof => proof.signature) =
      (SigningCall.proof challenge nodeId now nodeNonce).signs p >>= signBytes p pem := by
  simp only [signChallenge, SigningCall.signs]
  rcases assertChallenge challenge with err | u
  · rfl
  · rcases require (decide (challenge.node_id = nodeId))
      (js "responder-auth: challenge targets a different node") with err | u
    · rfl
    · show (match p.sign pem (signingPayload (unsignedFields
            (SigningCall.unsignedProof challenge nodeId now nodeNonce))) with
        | none => Except.error JsError.native
        | some signature => _).map _ = signBytes p pem (signingPayload (unsignedFields
            (SigningCall.unsignedProof challenge nodeId now nodeNonce)))
      unfold signBytes
      rcases p.sign pem (signingPayload (unsignedFields
        (SigningCall.unsignedProof challenge nodeId now nodeNonce))) with _ | sig
      · rfl
      · rfl

/-- **Each place signs its text.** -/
theorem SigningCall.run_eq (x : SigningCall) (pem : JsString) :
    x.run p pem = x.signs p >>= signBytes p pem := by
  rcases x with ⟨input, d, n, clock⟩ | ⟨challenge, nodeId, now, nonce⟩ | call | ⟨message, savedAt⟩
  · exact createClientHandshake_signature pem input d n clock
  · exact signChallenge_signature pem challenge nodeId now nonce
  · exact map_signature (IntegrityPayload.mk (integrityFields call)) (fun m => m.signature) (fun _ => rfl) _
  · simp only [SigningCall.run, SigningCall.signs, handleJoinReady]
    rcases joinNonce message with err | nonce
    · rfl
    · exact map_signature (fun signature => JoinAuthorization.mk (message.lookup (js "join_id"))
        (message.lookup (js "alg")) nonce signature (message.lookup (js "expires_at")) savedAt)
        (fun auth => auth.signature) (fun _ => rfl) _

/-! ### Texts with their protocol -/

/-- The text of an object whose `protocol` is this text, or is missing. -/
def Tagged (protocol : Option JsString) (b : Bytes) : Prop :=
  ∃ fs : List (JsString × Json), (fs.map Prod.fst).Nodup ∧
    b = utf8 (canonicalJson (.obj (withoutSignature fs))) ∧
    fs.lookup (js "protocol") = protocol.map Json.str

/-- A text has one protocol. -/
theorem Tagged.protocol_eq {a a' : Option JsString} {b : Bytes} (h : Tagged a b) (h' : Tagged a' b) : a = a' := by
  obtain ⟨fs, hfs, rfl, ha⟩ := h
  obtain ⟨gs, hgs, htext, ha'⟩ := h'
  have hsame := utf8_injective (wellFormed_canonicalJson _) (wellFormed_canonicalJson _) htext
  have hstr : Function.Injective (Option.map Json.str) := Option.map_injective fun s t h => Json.str.inj h
  rcases a with _ | s
  · rcases a' with _ | s'
    · rfl
    · have hfield := payload_field hgs hfs hsame.symm (by decide) (by decide) ha'
      rw [ha] at hfield
      cases hfield
  · have hfield := payload_field hfs hgs hsame (by decide) (by decide) ha
    exact hstr (hfield.symm.trans ha')

/-- What each role writes into its texts; the join nonce has no text of its own. -/
def Role.protocol : Role → Option JsString
  | .init => some HANDSHAKE_PROTOCOL
  | .proof => some RESPONDER_AUTH_PROTOCOL
  | .integrity => none
  | .join => none

theorem requireConst_eq_ok {v : Option Json} {expected : Json} {message : JsString} {u : Unit}
    (h : requireConst v expected message = .ok u) : v = some expected := by
  unfold requireConst at h
  split_ifs at h with heq
  · exact heq
  · obtain ⟨_, -, hthrow⟩ := bind_eq_ok.mp h
    cases hthrow

theorem nodup_of_fieldsOf {v : Json} {fs : List (JsString × Json)} (hv : v.Wf) (h : fieldsOf v = some fs) :
    (fs.map Prod.fst).Nodup := by
  rcases v with _ | _ | _ | _ | _ | _
  case arr => cases h; exact List.nodup_nil
  case obj => cases h; exact hv.1
  all_goals cases h

theorem assertHandshakeInit_protocol {value : Json} {m : CheckedInit} (h : assertHandshakeInit value = .ok m) :
    m.fields.lookup (js "protocol") = some (.str HANDSHAKE_PROTOCOL) := by
  simp only [assertHandshakeInit, bind_eq_ok, pure, Except.pure, Except.ok.injEq] at h
  obtain ⟨fs, hfs, _, -, _, -, _, -, _, -, _, -, _, -, _, -, rfl⟩ := h
  unfold Handshake.assertHandshakeBase at hfs
  split at hfs
  · cases hfs
  · simp only [bind_eq_ok, pure, Except.pure, Except.ok.injEq] at hfs
    obtain ⟨_, -, _, hprotocol, _, -, _, -, rfl⟩ := hfs
    exact requireConst_eq_ok hprotocol

theorem assertProof_protocol {proof : Json} {fs : List (JsString × Json)} (h : assertProof proof = .ok fs) :
    fs.lookup (js "protocol") = some (.str RESPONDER_AUTH_PROTOCOL) := by
  unfold assertProof at h
  split at h
  · cases h
  · simp only [assertAuthBase, bind_eq_ok, pure, Except.pure, Except.ok.injEq] at h
    obtain ⟨_, ⟨_, hprotocol, -⟩, _, -, _, -, _, -, rfl⟩ := h
    exact requireConst_eq_ok hprotocol

/-- The payload of an object without repeated keys. -/
theorem tagged_payload {fs : List (JsString × Json)} {protocol : Option JsString} (hn : (fs.map Prod.fst).Nodup)
    (h : fs.lookup (js "protocol") = protocol.map Json.str) : Tagged protocol (signingPayload fs) :=
  ⟨fs, hn, rfl, h⟩

theorem signingPayload_eq (fs : List (JsString × Json)) : utf8 (handshakeSigningPayload fs) = signingPayload fs := rfl

theorem tagged_init (m : HandshakeInitMessage) :
    Tagged (some HANDSHAKE_PROTOCOL) (utf8 (handshakeSigningPayload (initFields m))) := by
  rw [signingPayload_eq]
  refine tagged_payload ((List.Nodup.sublist (sublist_keys_definedFields _)) ?_) rfl
  show [js "type", js "protocol", js "version", js "mode", js "timestamp", js "client_public_key",
    js "client_nonce", js "node_public_key_pem", js "node_id", js "candidate_id", js "release_version"].Nodup
  decide

theorem tagged_integrity (call : IntegrityCall) :
    Tagged none (utf8 (canonicalJson (.obj (integrityFields call)))) := by
  have hunsigned : withoutSignature (integrityFields call) = integrityFields call := rfl
  refine ⟨integrityFields call, ?_, by rw [hunsigned], rfl⟩
  show [js "product", js "version", js "runtime", js "platform", js "node_public_key_pem", js "manifest",
    js "timestamp", js "nonce"].Nodup
  decide

/-- **Every text but the join nonce says which role it is for.** -/
theorem Text.tagged {r : Role} {b : Bytes} (h : Text p r b) (hr : r ≠ .join) : Tagged r.protocol b := by
  rcases h with ⟨x, _, hx⟩ | ⟨message, m, hwf, hm⟩ | ⟨message, fs, hwf, hfs⟩
  · rcases x with ⟨input, d, n, clock⟩ | ⟨challenge, nodeId, now, nonce⟩ | call | ⟨message, savedAt⟩
    · have hb := Except.ok.inj hx
      rw [← hb]
      exact tagged_init _
    · simp only [SigningCall.signs, bind_eq_ok, pure, Except.pure, Except.ok.injEq] at hx
      obtain ⟨_, -, _, -, rfl⟩ := hx
      exact tagged_payload (nodup_unsignedFields _) rfl
    · have hb := Except.ok.inj hx
      rw [← hb]
      exact tagged_integrity call
    · exact absurd rfl hr
  · rw [signingPayload_eq]
    exact tagged_payload (nodup_of_fieldsOf hwf (assertHandshakeInit_eq_ok hm)) (assertHandshakeInit_protocol hm)
  · obtain ⟨rfl, -⟩ := assertProof_eq_ok hfs
    exact tagged_payload hwf.1 (assertProof_protocol hfs)

theorem Role.eq_of_protocol {r r' : Role} (hr : r ≠ .join) (hr' : r' ≠ .join) (h : r.protocol = r'.protocol) :
    r = r' := by
  have hne : HANDSHAKE_PROTOCOL ≠ RESPONDER_AUTH_PROTOCOL := by decide
  rcases r with _ | _ | _ | _ <;> rcases r' with _ | _ | _ | _ <;> simp_all [Role.protocol]

/-! ### Every byte string is a nonce -/

theorem decodeBase64_pad (s : JsString) (n : ℕ) :
    decodeBase64 (s ++ List.replicate n (unit '=')) = decodeBase64 s := by
  have hpad : (List.replicate n (unit '=')).takeWhile (fun c => decide (c ≠ unit '=')) = [] := by
    rcases n with _ | n
    · rfl
    · simp [List.replicate_succ]
  unfold decodeBase64
  rw [List.takeWhile_append, hpad]
  split_ifs with h
  · rw [List.append_nil, (List.takeWhile_prefix _).eq_of_length h]
  · rfl

theorem decodeBase64_replaceAll {a b : UInt16} (hval : b64Val b = b64Val a) (ha : a ≠ unit '=')
    (hb : b ≠ unit '=') (s : JsString) : decodeBase64 (replaceAll a b s) = decodeBase64 s := by
  have hstop : (fun c : UInt16 => decide (c ≠ unit '=')) ∘ (fun c => if c = a then b else c) =
      fun c => decide (c ≠ unit '=') := by
    funext c
    by_cases hc : c = a
    · simp [hc, ha, hb]
    · simp [hc]
  have hread : b64Val ∘ (fun c => if c = a then b else c) = b64Val := by
    funext c
    by_cases hc : c = a
    · simp [hc, hval]
    · simp [hc]
  unfold decodeBase64 replaceAll
  rw [List.takeWhile_map, List.filterMap_map, hstop, hread]

/-- The two replacements and the padding are what `Buffer.from` does by itself. -/
theorem decodeBase64Url_eq (s : JsString) : decodeBase64Url s = decodeBase64 s := by
  unfold decodeBase64Url
  dsimp only
  rw [decodeBase64_pad, decodeBase64_replaceAll (by decide) (by decide) (by decide),
    decodeBase64_replaceAll (by decide) (by decide) (by decide)]

/-- The message that has these bytes signed. -/
def joinMessage (b : Bytes) : List (JsString × Json) := [(js "nonce", .str (base64url b))]

theorem text_join (b : Bytes) : Text p .join b := by
  refine Text.signed (.join (joinMessage b) []) b ?_
  show Except.ok (decodeBase64Url (base64url b)) = _
  rw [decodeBase64Url_eq, decodeBase64_base64url]

/-- A text of another role than the join nonce is no text of a third one. -/
theorem separated_iff {x : SigningCall} {b : Bytes} (hx : x.signs p = .ok b) (hrole : x.role ≠ .join) {r : Role}
    (hr : r ≠ x.role) : ¬ Text p r b ↔ r ≠ .join := by
  constructor
  · rintro h rfl
    exact h (text_join b)
  · intro hjoin htext
    have hown := (Text.signed x b hx).tagged hrole
    exact hr (Role.eq_of_protocol hjoin hrole ((htext.tagged hjoin).protocol_eq hown))

/-- Every role signs something. -/
theorem exists_signs (p : Platform) (r : Role) : ∃ x b, SigningCall.role x = r ∧ x.signs p = .ok b := by
  rcases r with _ | _ | _ | _
  · exact ⟨.init ⟨.eval, [], [], none, none, none⟩ [] [] (JsNumber.ofNat 0), _, rfl, rfl⟩
  · have hchallenge : assertChallenge ⟨js "node-1", js "AA==", .num (JsNumber.ofNat 0), none⟩ = .ok () := by
      decide
    refine ⟨.proof ⟨js "node-1", js "AA==", .num (JsNumber.ofNat 0), none⟩ (js "node-1") (JsNumber.ofNat 0) [],
      signingPayload (unsignedFields (SigningCall.unsignedProof ⟨js "node-1", js "AA==", .num (JsNumber.ofNat 0),
        none⟩ (js "node-1") (JsNumber.ofNat 0) [])), rfl, ?_⟩
    simp only [SigningCall.signs, bind_eq_ok]
    exact ⟨(), hchallenge, (), rfl, rfl⟩
  · exact ⟨.integrity ⟨[], ⟨[], [], [], none, none, [], [], none, none⟩, JsNumber.ofNat 0, []⟩, _, rfl, rfl⟩
  · exact ⟨.join (joinMessage []) [], _, rfl, rfl⟩

/-- **The roles are separated up to the join nonce**: two roles have no text in common in any call if and only if
neither is the join nonce. What a call of the other three signs is a text of another role only as a join nonce, and a
nonce without the protocol of a role in it is no text of that role. -/
theorem roles_separated (p : Platform) :
    (∀ r r' : Role, r ≠ r' →
      ((∀ (x : SigningCall) (b : Bytes), x.role = r → x.signs p = .ok b → ¬ Text p r' b) ↔
        r ≠ .join ∧ r' ≠ .join)) ∧
    ∀ (x : SigningCall) (b : Bytes), x.signs p = .ok b → ∀ r ≠ x.role,
      (x.role ≠ .join → (¬ Text p r b ↔ r ≠ .join)) ∧
      (x.role = .join → ¬ Tagged r.protocol b → ¬ Text p r b) := by
  refine ⟨fun r r' hne => ?_, fun x b hx r hr => ⟨fun hrole => separated_iff hx hrole hr, ?_⟩⟩
  · constructor
    · intro h
      refine ⟨?_, ?_⟩
      · -- a join nonce that is a text of the other role
        rintro rfl
        obtain ⟨y, c, hy, hc⟩ := exists_signs p r'
        have hjoin : (SigningCall.join (joinMessage c) []).signs p = .ok c := by
          show Except.ok (decodeBase64Url (base64url c)) = _
          rw [decodeBase64Url_eq, decodeBase64_base64url]
        exact h _ c rfl hjoin (hy ▸ Text.signed y c hc)
      · -- a text of the first role that is asked for as a join nonce
        rintro rfl
        obtain ⟨x, b, hrole, hx⟩ := exists_signs p r
        exact h x b hrole hx (text_join b)
    · rintro ⟨hr, hr'⟩ x b rfl hx
      exact (separated_iff hx hr hne.symm).mpr hr'
  · intro hrole hprotocol htext
    exact hprotocol (htext.tagged fun hjoin => hr (hjoin.trans hrole.symm))

namespace Sample

/-- The challenge that the proof above answers. -/
def challenge : ResponderChallenge :=
  createChallenge (JsNumber.ofNat 1700000000) (js "node-1") none clientNonce (some transcript)

/-- A `join_ready` message whose nonce is the signed part of that proof. -/
def joinReady : List (JsString × Json) := [(js "type", .str (js "join_ready")),
  (js "timestamp", .num (JsNumber.ofNat 1700000000)), (js "join_id", .str (js "join-1")),
  (js "alg", .str (js "ed25519")), (js "nonce", .str (base64url (signingPayload (unsignedFields proof)))),
  (js "expires_at", .num (JsNumber.ofNat 1700000600))]

/-- **The signature of a join nonce is accepted as a proof.** -/
theorem join_nonce_is_proof :
    (handleJoinReady platform privatePem joinReady (js "2023-11-14T22:13:20.000Z")).map (fun auth => auth.signature) =
      .ok (base64 signature) ∧
    (verifyProof platform (.obj (unsignedFields proof ++ [(js "signature", .str (base64 signature))])) challenge
      (js "node-1") publicPem (JsNumber.ofNat 1700000000)).map (fun _ => ()) = .ok () ∧
    ¬ ∀ (x : SigningCall) (b : Bytes), x.signs platform = .ok b → ∀ r ≠ x.role, ¬ Text platform r b := by
  refine ⟨by decide +kernel, by decide +kernel, ?_⟩
  intro h
  have hsigns : (SigningCall.join joinReady []).signs platform = .ok (signingPayload (unsignedFields proof)) := by
    decide +kernel
  refine h _ _ hsigns .proof (by decide) ?_
  have hchecked : assertProof (.obj (unsignedFields proof ++ [(js "signature", .str (base64 signature))])) =
      .ok (unsignedFields proof ++ [(js "signature", .str (base64 signature))]) := by decide +kernel
  have hwire : parse (stringify (.obj (unsignedFields proof ++ [(js "signature", .str (base64 signature))]))) =
      some (.obj (unsignedFields proof ++ [(js "signature", .str (base64 signature))])) := by decide +kernel
  have hpayload : signingPayload (unsignedFields proof ++ [(js "signature", .str (base64 signature))]) =
      signingPayload (unsignedFields proof) := rfl
  have htext := Text.checkedProof (p := platform) _ _ (wf_parse hwire) hchecked
  rwa [hpayload] at htext

end Sample

end ConsensusNode.Tunnel
