import ConsensusNode.Lib.Run
import ConsensusNode.Runtime.ProfileIdem
import ConsensusNode.Tickets.SingleUse
import ConsensusNode.Tunnel.DataPlane

/-! # What the data plane serves

Runs of `resolveProxyResponse` on one replay cache, over any number of connections. A request that
reaches `serve` is the one a signed ticket is bound to: the record that is verified and the record that
is served are built from the same payload (`planServe_request`).

The ticket is fresh in the cache unless the sweep of the same call has just dropped it
(`ForgetsPresented`).

* `served_soundly`: in a run without such a call, every served request is authorized by a ticket whose
  `jti` was not in the cache before the call and is in it afterwards. -/

namespace ConsensusNode.Tunnel

open Js Lib.Run Crypto Tickets ConsensusNode.Runtime

/-! ### The served request -/

/-- The digest of a profile as it is served. -/
def profileDigest (p : Platform) (profile : Json) : JsString :=
  sha256HexText p (stringify (stableValue profile))

/-- The dedupe parameters of a request that is served. -/
def servedParams (p : Platform) (req : ProxyServeRequest) : DedupeParams where
  target_url := req.target_url
  method := req.method.getD (js "GET")
  headers := req.headers
  body := req.body
  profile_hash := req.profile.map (profileDigest p)

/-- A claims object that the pinned key has signed for this node and exactly this request. -/
def Authorized (p : Platform) (signed : Set Bytes) (deps : DataPlaneServeDeps) (req : ProxyServeRequest)
    (jti : JsString) : Prop :=
  ∃ message footer claims key,
    pae [HEADER_BYTES, message, footer, utf8 deps.nodeId] ∈ signed ∧
    parse (decodeUtf8 message) = some claims ∧
    claims.field? (js "aud") = some (.str deps.nodeId) ∧
    claims.field? (js "scope") = some (.str (js "proxy")) ∧
    generateDedupeKey p (servedParams p req) = .ok key ∧
    claims.field? (js "sub") = some (.str key) ∧
    claims.field? (js "jti") = some (.str jti)

/-- The request is authorized, and the `jti` of its ticket was not in the cache and now is. -/
def ServedSoundly (p : Platform) (signed : Set Bytes) (deps : DataPlaneServeDeps)
    (before after : JtiReplayCache) (req : ProxyServeRequest) : Prop :=
  ∃ jti, Authorized p signed deps req jti ∧ before.seen.has jti = false ∧ after.seen.has jti = true

/-- The ticket in a frame passes every check before the cache, but the sweep of the call is due and drops
the entry that the ticket has in the cache. -/
def ForgetsPresented (p : Platform) (deps : DataPlaneServeDeps) (cache : JtiReplayCache)
    (r : DataRequest) : Prop :=
  ∃ plan v exp, planServe p r.session.receiveKey r.frame = .ok plan ∧
    checkRequestTicket p r.clock (ticketOptions deps plan) = .ok v ∧
    cache.sweepDue r.clock' = true ∧ cache.seen.get? v.claims.jti = some exp ∧ exp.val ≤ r.clock'.val

/-- The cache after a call. -/
def replayStep (p : Platform) (deps : DataPlaneServeDeps) (cache : JtiReplayCache) (r : DataRequest) :
    JtiReplayCache := (resolveProxyResponse p deps cache r).2

/-! ### One call -/

variable {p : Platform}

theorem mapError_eq_ok {ε δ α : Type} {x : Except ε α} {f : ε → δ} {a : α} :
    x.mapError f = .ok a ↔ x = .ok a := by
  cases x <;> simp [Except.mapError]

theorem preparePayload_hash {payload : ProxyRequestPayload} {method : JsString}
    {prepared : Option PreparedProxyProfileV1} (h : preparePayload p payload method = .ok prepared) :
    prepared.map PreparedProxyProfileV1.profile_hash =
      (prepared.map fun q => profileJson q.profile).map (profileDigest p) := by
  cases prepared with
  | none => rfl
  | some q =>
    unfold preparePayload at h
    split at h
    · rename_i input _
      split_ifs at h
      · cases hq : prepareProxyProfileRequestV1 p input payload.target_url method payload.headers with
        | error e => rw [hq] at h; cases h
        | ok q' =>
          rw [hq] at h
          cases h
          obtain ⟨-, -, -, -, hhash, -⟩ := prepare_eq_ok.mp hq
          exact congrArg some hhash
      · cases h
    · cases h

/-- **The two records agree**: what the ticket is checked against is what is served. -/
theorem planServe_request {receiveKey frame : Bytes} {plan : PlannedServe}
    (h : planServe p receiveKey frame = .ok plan) : plan.request = servedParams p plan.served := by
  simp only [planServe, bind_eq_ok, mapError_eq_ok, pure, Except.pure, Except.ok.injEq] at h
  obtain ⟨payload, -, body, -, method, -, prepared, hprep, rfl⟩ := h
  unfold servedParams
  rw [← preparePayload_hash hprep]
  rfl

theorem consume_eq_true {c c' : JtiReplayCache} {jti : JsString} {exp now : JsNumber}
    (h : c.consume jti exp now = (true, c')) :
    (c.sweep now).seen.has jti = false ∧ c'.seen.get? jti = some exp := by
  unfold JtiReplayCache.consume JtiReplayCache.insert at h
  split_ifs at h with hseen
  · cases h
  · cases h
    exact ⟨by simpa using hseen, OrdMap.get?_set_self _ _ _⟩

/-- **A served request.** Its ticket has passed every check, and the cache did not know its `jti` after
the sweep. -/
theorem resolve_eq_serve {deps : DataPlaneServeDeps} {cache : JtiReplayCache} {r : DataRequest}
    {req : ProxyServeRequest} (h : (resolveProxyResponse p deps cache r).1 = .ok req) :
    ∃ plan v, planServe p r.session.receiveKey r.frame = .ok plan ∧ req = plan.served ∧
      checkRequestTicket p r.clock (ticketOptions deps plan) = .ok v ∧
      (cache.sweep r.clock').seen.has v.claims.jti = false ∧
      (replayStep p deps cache r).seen.get? v.claims.jti = some v.claims.exp := by
  unfold replayStep
  unfold resolveProxyResponse at h ⊢
  cases hplan : planServe p r.session.receiveKey r.frame with
  | error e => rw [hplan] at h; cases h
  | ok plan =>
    rw [hplan] at h
    dsimp only at h ⊢
    unfold verifyRequestTicket at h ⊢
    cases hv : checkRequestTicket p r.clock (ticketOptions deps plan) with
    | error e => rw [hv] at h; cases h
    | ok v =>
      rw [hv] at h
      dsimp only at h ⊢
      have hnow : (ticketOptions deps plan).now.getD r.clock' = r.clock' := rfl
      rw [hnow] at h ⊢
      cases hc : cache.consume v.claims.jti v.claims.exp r.clock' with
      | mk fresh cache' =>
        rw [hc] at h
        cases fresh with
        | false => cases h
        | true =>
          cases h
          obtain ⟨h1, h2⟩ := consume_eq_true hc
          exact ⟨plan, v, rfl, rfl, hv, h1, h2⟩

theorem authorized_of_check {signed : Set Bytes} {deps : DataPlaneServeDeps}
    (hsig : ∀ m s, p.verify deps.pinnedKey m s = true → m ∈ signed) {receiveKey frame : Bytes}
    {plan : PlannedServe} (hplan : planServe p receiveKey frame = .ok plan) {clock : JsNumber}
    {v : VerifiedRequestTicket} (hv : checkRequestTicket p clock (ticketOptions deps plan) = .ok v) :
    Authorized p signed deps plan.served v.claims.jti := by
  obtain ⟨⟨t, raw, -, hverify, hraw, hacc⟩, hkey⟩ := checkRequestTicket_eq_ok hv
  refine ⟨t.message, t.footer, raw, v.claims.sub, hsig _ _ hverify, hraw, hacc.aud, hacc.scope, ?_,
    hacc.sub, hacc.jti⟩
  rw [← planServe_request hplan]
  exact hkey

/-- At a call that serves, the `jti` was in the cache exactly if the sweep has just dropped it. -/
theorem fresh_iff_not_forgets {deps : DataPlaneServeDeps} {cache : JtiReplayCache} {r : DataRequest}
    {plan : PlannedServe} {v : VerifiedRequestTicket}
    (hplan : planServe p r.session.receiveKey r.frame = .ok plan)
    (hv : checkRequestTicket p r.clock (ticketOptions deps plan) = .ok v)
    (hfresh : (cache.sweep r.clock').seen.has v.claims.jti = false) :
    cache.seen.has v.claims.jti = false ↔ ¬ ForgetsPresented p deps cache r := by
  constructor
  · rintro habsent ⟨plan', v', exp, hplan', hv', -, hget, -⟩
    rw [hplan] at hplan'
    cases hplan'
    rw [hv] at hv'
    cases hv'
    rw [OrdMap.not_has_iff.mp habsent] at hget
    cases hget
  · intro hf
    rw [OrdMap.not_has_iff]
    by_contra hne
    obtain ⟨exp, hget⟩ := Option.ne_none_iff_exists'.mp hne
    by_cases hdrop : cache.sweepDue r.clock' = true ∧ exp.val ≤ r.clock'.val
    · exact hf ⟨plan, v, exp, hplan, hv, hdrop.1, hget, hdrop.2⟩
    · have hkept := JtiReplayCache.get?_sweep.mpr ⟨hget, hdrop⟩
      rw [OrdMap.not_has_iff.mp hfresh] at hkept
      cases hkept

theorem served_step {signed : Set Bytes} {deps : DataPlaneServeDeps}
    (hsig : ∀ m s, p.verify deps.pinnedKey m s = true → m ∈ signed) {cache : JtiReplayCache}
    {r : DataRequest} (hf : ¬ ForgetsPresented p deps cache r) {req : ProxyServeRequest}
    (h : (resolveProxyResponse p deps cache r).1 = .ok req) :
    ServedSoundly p signed deps cache (replayStep p deps cache r) req := by
  obtain ⟨plan, v, hplan, rfl, hv, hfresh, hafter⟩ := resolve_eq_serve h
  refine ⟨v.claims.jti, authorized_of_check hsig hplan hv,
    (fresh_iff_not_forgets hplan hv hfresh).mpr hf, ?_⟩
  rw [OrdMap.has_iff, OrdMap.mem_keys_iff]
  exact ⟨_, hafter⟩

/-- **Authorization soundness.** In a run on any cache in which no sweep drops the entry of the ticket
that is being presented, every request that is served is authorized, by a ticket that is spent in the
same call. -/
theorem served_soundly (p : Platform) (signed : Set Bytes) (deps : DataPlaneServeDeps)
    (hsig : ∀ m s, p.verify deps.pinnedKey m s = true → m ∈ signed) (cache : JtiReplayCache)
    (requests : List DataRequest)
    (hforget : Steps (replayStep p deps) (fun _ cache r => ¬ ForgetsPresented p deps cache r) cache
      requests) :
    Steps (replayStep p deps) (fun _ cache r => ∀ req,
      (resolveProxyResponse p deps cache r).1 = .ok req →
        ServedSoundly p signed deps cache (replayStep p deps cache r) req) cache requests :=
  hforget.imp fun _ _ _ hf _ hserve => served_step hsig hf hserve

/-! ### A frame that is served twice

The ticket of `sampleReplay` in a sealed frame, sent at `1700000150` and again at `1700000203`. -/

def frameKey : Bytes := beBytes 32 0x000102030405060708090a0b0c0d0e0f101112131415161718191a1b1c1d1e1f

def framePayload : Bytes :=
  utf8 (stringify (.obj [(js "type", .str (js "proxy_request")), (js "token", .str sampleToken),
    (js "target_url", .str (js "https://api.example.com/"))]))

/-- The payload sealed with `frameKey` as frame 0. -/
def sampleFrame : FrameParts where
  type := .data
  sequence := 0
  nonce := beBytes 12 0x101112131415161718191a1b
  ciphertext :=
    beBytes 32 0x25e8317e767ce45339b6410ca1d2ea071f17804cf7b6f458a0e7d86689d281dc ++
    beBytes 32 0xdefcb457a9f1d9b01cf6d589fce773bf23453942dd2a4e0bb9a2fd87fcde48a4 ++
    beBytes 32 0x0b08e1a322eeb722f27b0842bc99ccf772ce7e75de206ade946feaf0baf27f15 ++
    beBytes 32 0xcf990a10fc2fa2a23546b9df03de05a4c361887fdfff39f556552a439a81157e ++
    beBytes 32 0xa521e590045c76ba4faeb192ee7e7bb67896548ce3111c92d391ce8d38bee6dc ++
    beBytes 32 0x66a0f2d89ffff26a55a1829eba91b0c7e1ea2d06a59aadc3a1642e1064691f0c ++
    beBytes 32 0x213926c76f2e909c03b9f63f357d5688a0e06b7bb25fce959e0d34391309a316 ++
    beBytes 32 0x7eba2c8852987d566dfe8f579b2c5f94a880bfc7f5c0c6c6ac61092997b7662d ++
    beBytes 32 0x64c1a21e7d38bb3f66a1605945ae228dce46f412cba68a6df7bf0a434e6580ad ++
    beBytes 32 0x4861ed614df53bb199e3d210c96fbf7c67e9b8af58413e05ed111a5bacf2cd72 ++
    beBytes 32 0x46b3d127c85da12f08f8d551a0e493fa7dd9f91a869df5767babacf767afe248 ++
    beBytes 32 0xba6afd2148c3af4b8435156ae1e791987ddb0ed197e44adb0b7039159c388816 ++
    beBytes 32 0x8085dd49d751a5f7ca42f29f73d7ed97da488542190e925418e658c82041a834 ++
    beBytes 32 0xbedd22f1cecb7f60a311146de2cb952f7ff556a8dfb6425b90a99cecd513b119 ++
    beBytes 5 0xd7f935449c
  tag := beBytes 16 0x872cbe23d93168300240cb7442154a0a

/-- The tables of `sampleReplay`, with the frame. -/
def frameTables : Tables where
  __ := sampleTables
  sealed := [((frameKey, sampleFrame.nonce, aadBytes .data 0 sampleFrame.ciphertext.length,
    sampleFrame.ciphertext ++ sampleFrame.tag), framePayload)]

def frameRequest (now : ℕ) : DataRequest where
  session := { sessionId := js "s", sendKey := [], receiveKey := frameKey }
  frame := frameBytes sampleFrame
  clock := JsNumber.ofNat now
  clock' := JsNumber.ofNat now

def frameDeps : DataPlaneServeDeps where
  nodeId := js "node-test"
  pinnedKey := orchestratorKey

/-- What the frame asks for. -/
def frameServed : ProxyServeRequest where
  target_url := js "https://api.example.com/"
  method := some (js "GET")

/-- The orchestrator has signed one ticket. -/
def frameSigned : Set Bytes := {pae [HEADER_BYTES, sampleMessage, sampleFooter, utf8 (js "node-test")]}

theorem frameSigned_of_verify (m s : Bytes)
    (h : frameTables.platform.verify frameDeps.pinnedKey m s = true) : m ∈ frameSigned := by
  have hmem : (frameDeps.pinnedKey, m, s) ∈ sampleTables.signatures := of_decide_eq_true h
  simp only [sampleTables, List.mem_singleton, Prod.mk.injEq] at hmem
  exact hmem.2.1

/-- The keys of the cache after the first call, and the outcome of both. -/
theorem frame_run :
    (resolveProxyResponse frameTables.platform frameDeps (.new 100000) (frameRequest 1700000150)).1 =
      .ok frameServed ∧
    (replayStep frameTables.platform frameDeps (.new 100000) (frameRequest 1700000150)).seen.entries =
      [(js "jti-1", JsNumber.ofNat 1700000200)] ∧
    (resolveProxyResponse frameTables.platform frameDeps
      (replayStep frameTables.platform frameDeps (.new 100000) (frameRequest 1700000150))
      (frameRequest 1700000203)).1 = .ok frameServed ∧
    (replayStep frameTables.platform frameDeps
      (replayStep frameTables.platform frameDeps (.new 100000) (frameRequest 1700000150))
      (frameRequest 1700000203)).seen.entries = [(js "jti-1", JsNumber.ofNat 1700000200)] := by
  decide +kernel

theorem sampleFrame_served_soundly :
    (resolveProxyResponse frameTables.platform frameDeps (.new 100000) (frameRequest 1700000150)).1 =
      .ok frameServed ∧
    ServedSoundly frameTables.platform frameSigned frameDeps (.new 100000)
      (replayStep frameTables.platform frameDeps (.new 100000) (frameRequest 1700000150)) frameServed := by
  refine ⟨frame_run.1, served_soundly frameTables.platform frameSigned frameDeps frameSigned_of_verify
    (.new 100000) [frameRequest 1700000150] ?_ [] _ [] rfl frameServed frame_run.1⟩
  refine Steps.cons ?_ Steps.nil
  rintro ⟨plan, v, exp, -, -, -, hget, -⟩
  cases hget

theorem sampleFrame_served_again :
    let cache := replayStep frameTables.platform frameDeps (.new 100000) (frameRequest 1700000150)
    (resolveProxyResponse frameTables.platform frameDeps cache (frameRequest 1700000203)).1 =
      .ok frameServed ∧
    ¬ ServedSoundly frameTables.platform frameSigned frameDeps cache
      (replayStep frameTables.platform frameDeps cache (frameRequest 1700000203)) frameServed := by
  obtain ⟨-, hbefore, hserved, hafter⟩ := frame_run
  refine ⟨hserved, ?_⟩
  rintro ⟨jti, -, hout, hin⟩
  rw [OrdMap.has_iff, OrdMap.keys, hafter] at hin
  rw [OrdMap.not_has_iff, OrdMap.get?_eq_none, OrdMap.keys, hbefore] at hout
  exact hout hin

end ConsensusNode.Tunnel
