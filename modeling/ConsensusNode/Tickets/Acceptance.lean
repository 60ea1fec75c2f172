import ConsensusNode.Tickets.SingleUse

/-! # When a request ticket is accepted, and what that does to the cache

`verifyTicket` and `verifyRequestTicket` return normally exactly when all their checks pass
(`verifyTicket_iff`, `checkRequestTicket_iff`), and only a ticket that has passed all of them reaches
the replay cache.

* `spends_exactly`: acceptance, and the cache after an acceptance, after a failed check and after a
  replay. -/

namespace ConsensusNode.Tickets

open Js ConsensusNode.Runtime

variable {p : Platform}

/-! ### The checks on the claims -/

/-- `iat > now + skew`. -/
def isFuture (iat skew now : JsNumber) : Bool := JsNumber.lt (now.add skew) (some iat)

/-- Claims that pass every check. -/
structure Admits (opts : VerifyTicketOptions) (now : JsNumber) (raw : Json) (c : TicketClaims) : Prop
    extends Accepts opts now raw c where
  iat : raw.field? (js "iat") = some (.num c.iat)
  issued : isFuture c.iat (opts.clockToleranceSec.getD DEFAULT_CLOCK_TOLERANCE_SEC) now = false
  jti_ne : c.jti ≠ []
  sub_ne : c.sub ≠ []
  iss_eq : c.iss = TICKET_ISSUER
  aud_eq : c.aud = opts.expectedNodeId
  scope_eq : c.scope = opts.expectedScope.getD TICKET_SCOPE_PROXY

theorem get_some_iff {v : Json} {k : JsString} {x : Json} :
    v.get k = .ok (some x) ↔ v.field? k = some x := by
  refine ⟨get_eq_ok, fun h => ?_⟩
  unfold Json.get
  split
  · cases h
  · rw [h]

theorem checkClaims_iff {opts : VerifyTicketOptions} {now : JsNumber} {raw : Json}
    {c : TicketClaims} : checkClaims opts now raw = .ok c ↔ Admits opts now raw c := by
  simp only [checkClaims, bind_eq_ok, require_eq_ok, numberClaim_eq_ok, textClaim_eq_ok, pure,
    Except.pure, Except.ok.injEq, decide_eq_true_eq, Bool.not_eq_true']
  constructor
  · rintro ⟨iss, hiss, -, rfl, -, haud, -, hscope, exp, hexp, -, hle, iat, hiat, -, hnow, jti,
      ⟨hjti, hj⟩, sub, ⟨hsub, hs⟩, rfl⟩
    exact ⟨⟨get_eq_ok hiss, haud, hscope, hexp, hle, hjti, hsub⟩, hiat, hnow, hj, hs, rfl, rfl, rfl⟩
  · rintro ⟨⟨hiss, haud, hscope, hexp, hle, hjti, hsub⟩, hiat, hnow, hj, hs, h1, h2, h3⟩
    refine ⟨_, get_some_iff.mpr hiss, (), rfl, (), haud, (), hscope, c.exp, hexp, (), hle, c.iat,
      hiat, (), hnow, c.jti, ⟨hjti, hj⟩, c.sub, ⟨hsub, hs⟩, ?_⟩
    rw [← h1, ← h2, ← h3]

/-- Claims of another scope fail at that check. -/
theorem checkClaims_scope {opts : VerifyTicketOptions} {now : JsNumber} {raw : Json}
    (hiss : raw.field? (js "iss") = some (.str TICKET_ISSUER))
    (haud : raw.field? (js "aud") = some (.str opts.expectedNodeId))
    (hscope : raw.field? (js "scope") ≠ some (.str (opts.expectedScope.getD TICKET_SCOPE_PROXY))) :
    checkClaims opts now raw = .error (.thrown (js "ticket: scope mismatch")) := by
  unfold checkClaims
  rw [get_some_iff.mpr hiss]
  simp only [haud, hscope, decide_true, decide_false]
  rfl

theorem parseClaims_eq_ok {m : Bytes} {raw : Json} :
    parseClaims m = .ok raw ↔ parse (decodeUtf8 m) = some raw := by
  unfold parseClaims
  split
  · rename_i v hv
    rw [hv]
    simp
  · rename_i hv
    rw [hv]
    simp

theorem verifyTicket_iff {clock : JsNumber} {token : JsString} {publicKey : Key}
    {opts : VerifyTicketOptions} {v : VerifiedTicket} :
    verifyTicket p clock token publicKey opts = .ok v ↔
      ∃ t raw, tokenParts token = .ok t ∧
        p.verify publicKey (pae [HEADER_BYTES, t.message, t.footer, utf8 opts.expectedNodeId])
          t.signature = true ∧
        parse (decodeUtf8 t.message) = some raw ∧
        Admits opts (opts.now.getD clock) raw v.claims ∧ v.kid = footerKid t.footer := by
  simp only [verifyTicket, bind_eq_ok, pure, Except.pure, Except.ok.injEq, parseClaims_eq_ok,
    checkClaims_iff]
  constructor
  · rintro ⟨⟨m, f⟩, hv, raw, hraw, c, hc, rfl⟩
    obtain ⟨sig, ht, hsig⟩ := verifyV4Public_eq_ok.mp hv
    exact ⟨_, raw, ht, hsig, hraw, hc, rfl⟩
  · rintro ⟨⟨m, sig, f⟩, raw, ht, hsig, hraw, hc, hk⟩
    refine ⟨(m, f), verifyV4Public_eq_ok.mpr ⟨sig, ht, hsig⟩, raw, hraw, v.claims, hc, ?_⟩
    rw [← hk]

theorem verifyTicket_eq_error {clock : JsNumber} {token : JsString} {publicKey : Key}
    {opts : VerifyTicketOptions} {m f : Bytes} {raw : Json} {err : JsError}
    (hv : verifyV4Public p token publicKey (utf8 opts.expectedNodeId) = .ok (m, f))
    (hraw : parse (decodeUtf8 m) = some raw)
    (hc : checkClaims opts (opts.now.getD clock) raw = .error err) :
    verifyTicket p clock token publicKey opts = .error err := by
  unfold verifyTicket
  rw [hv]
  show (parseClaims m >>= fun _ => _) = _
  rw [parseClaims_eq_ok.mpr hraw]
  show (checkClaims opts (opts.now.getD clock) raw >>= fun _ => _) = _
  rw [hc]
  rfl

/-! ### The checks on the request -/

variable (p) in
/-- A call that passes every check before the cache, and what it returns: the signature is good for the
message, the footer and the node id, the message holds claims that pass, and the request has the dedupe
key the ticket was issued for. -/
structure Bound (clock : JsNumber) (opts : VerifyRequestTicketOptions) (v : VerifiedRequestTicket) :
    Prop where
  signed : ∃ t raw, tokenParts opts.token = .ok t ∧
    p.verify opts.publicKey (pae [HEADER_BYTES, t.message, t.footer, utf8 opts.nodeId])
      t.signature = true ∧
    parse (decodeUtf8 t.message) = some raw ∧
    Admits ⟨opts.nodeId, opts.expectedScope, opts.now, opts.clockToleranceSec⟩
      (opts.now.getD clock) raw v.claims ∧ v.kid = footerKid t.footer
  request : generateDedupeKey p opts.request = .ok v.claims.sub
  dedupeKey : v.dedupeKey = v.claims.sub

theorem checkRequestTicket_iff {clock : JsNumber} {opts : VerifyRequestTicketOptions}
    {v : VerifiedRequestTicket} :
    checkRequestTicket p clock opts = .ok v ↔ Bound p clock opts v := by
  simp only [checkRequestTicket, bind_eq_ok, require_eq_ok, pure, Except.pure, Except.ok.injEq,
    decide_eq_true_eq]
  constructor
  · rintro ⟨v', hv, key, hkey, -, rfl, rfl⟩
    obtain ⟨t, raw, ht, hsig, hraw, hacc, hkid⟩ := verifyTicket_iff.mp hv
    exact ⟨⟨t, raw, ht, hsig, hraw, hacc, hkid⟩, hkey, rfl⟩
  · rintro ⟨⟨t, raw, ht, hsig, hraw, hacc, hkid⟩, hreq, hkey⟩
    have hv : verifyTicket p clock opts.token opts.publicKey
        ⟨opts.nodeId, opts.expectedScope, opts.now, opts.clockToleranceSec⟩ =
          .ok ⟨v.claims, v.kid⟩ :=
      verifyTicket_iff.mpr ⟨t, raw, ht, hsig, hraw, hacc, hkid⟩
    refine ⟨⟨v.claims, v.kid⟩, hv, v.claims.sub, hreq, (), rfl, ?_⟩
    rw [← hkey]

theorem checkRequestTicket_eq_error {clock : JsNumber} {opts : VerifyRequestTicketOptions} {err : JsError}
    (h : verifyTicket p clock opts.token opts.publicKey
      ⟨opts.nodeId, opts.expectedScope, opts.now, opts.clockToleranceSec⟩ = .error err) :
    checkRequestTicket p clock opts = .error err := by
  unfold checkRequestTicket
  rw [h]
  rfl

/-! ### The cache -/

namespace JtiReplayCache

/-- The entries that make room for one more. -/
def evicted (c : JtiReplayCache) : List (JsString × JsNumber) :=
  c.seen.entries.take (c.seen.size + 1 - c.maxEntries)

variable {c : JtiReplayCache} {jti : JsString} {exp now : JsNumber}

theorem get?_evict {k : JsString} {e : JsNumber} :
    (evict c.maxEntries c.seen.size c.seen).get? k = some e ↔
      c.seen.get? k = some e ∧ (k, e) ∉ c.evicted := by
  have hnd : (c.seen.entries.map Prod.fst).Nodup := c.seen.nodup
  rw [OrdMap.get?_eq_some, OrdMap.get?_eq_some, entries_evict le_rfl, evicted]
  have hsplit := List.take_append_drop (c.seen.size + 1 - c.maxEntries) c.seen.entries
  have hdis := List.disjoint_of_nodup_append (hsplit ▸ hnd.of_map)
  constructor
  · intro hm
    exact ⟨List.mem_of_mem_drop hm, fun ht => hdis ht hm⟩
  · rintro ⟨hm, ht⟩
    rw [← hsplit, List.mem_append] at hm
    exact hm.resolve_left ht

/-- What `consume` does with a fresh `jti`: it stores it, and drops what was swept or made room. -/
structure Gains (c : JtiReplayCache) (jti : JsString) (exp now : JsNumber) (c' : JtiReplayCache) :
    Prop where
  added : c'.seen.get? jti = some exp
  others : ∀ k e, k ≠ jti → c'.seen.get? k = some e → c.seen.get? k = some e
  dropped : ∀ k e, c.seen.get? k = some e → c'.seen.get? k = some e ∨
    (c.sweepDue now = true ∧ e.val ≤ now.val) ∨ (k, e) ∈ (c.sweep now).evicted

theorem consume_fresh (exp : JsNumber) (h : (c.sweep now).seen.has jti = false) :
    ∃ c', c.consume jti exp now = (true, c') ∧ Gains c jti exp now c' := by
  have heq : c.consume jti exp now = (true, { c.sweep now with seen :=
      (evict (c.sweep now).maxEntries (c.sweep now).seen.size (c.sweep now).seen).set jti exp }) := by
    unfold consume insert
    rw [if_neg (by simp [h])]
  refine ⟨_, heq, OrdMap.get?_set_self _ _ _, ?_, ?_⟩
  · intro k e hk hget
    rw [OrdMap.get?_set_ne _ _ hk, get?_evict, get?_sweep] at hget
    exact hget.1.1
  · intro k e hget
    by_cases hs : c.sweepDue now = true ∧ e.val ≤ now.val
    · exact .inr (.inl hs)
    have hkept : (c.sweep now).seen.get? k = some e := get?_sweep.mpr ⟨hget, hs⟩
    by_cases he : (k, e) ∈ (c.sweep now).evicted
    · exact .inr (.inr he)
    have hk : k ≠ jti := by
      rintro rfl
      rw [OrdMap.not_has_iff, hkept] at h
      cases h
    left
    rw [OrdMap.get?_set_ne _ _ hk, get?_evict]
    exact ⟨hkept, he⟩

theorem get?_sweep_of_lt {k : JsString} {e : JsNumber} (h : c.seen.get? k = some e)
    (hlt : now.val < e.val) : (c.sweep now).seen.get? k = some e :=
  get?_sweep.mpr ⟨h, fun hs => absurd hlt (not_lt.mpr hs.2)⟩

end JtiReplayCache

/-! ### The call -/

section Call

variable {clock clock' : JsNumber} {opts : VerifyRequestTicketOptions} {cache : JtiReplayCache}
  {v : VerifiedRequestTicket}

theorem verifyRequestTicket_of_bound (h : Bound p clock opts v) :
    verifyRequestTicket p clock clock' opts (some cache) =
      match cache.consume v.claims.jti v.claims.exp (opts.now.getD clock') with
      | (true, cache') => (.ok v, some cache')
      | (false, cache') => (.error (.thrown (js "ticket: replayed jti")), some cache') := by
  unfold verifyRequestTicket
  rcases hc : cache.consume v.claims.jti v.claims.exp (opts.now.getD clock') with ⟨_ | _, c'⟩
  · simp only [checkRequestTicket_iff.mpr h, hc]
  · simp only [checkRequestTicket_iff.mpr h, hc]

variable (clock' cache) in
theorem verifyRequestTicket_of_not_bound (h : ¬ ∃ v, Bound p clock opts v) :
    ∃ e, verifyRequestTicket p clock clock' opts (some cache) = (.error e, some cache) := by
  unfold verifyRequestTicket
  rcases hc : checkRequestTicket p clock opts with e | v
  · exact ⟨e, rfl⟩
  · exact absurd ⟨v, checkRequestTicket_iff.mp hc⟩ h

theorem bound_of_ok (h : (verifyRequestTicket p clock clock' opts (some cache)).1 = .ok v) :
    Bound p clock opts v ∧ (cache.sweep (opts.now.getD clock')).seen.has v.claims.jti = false := by
  by_cases hb : ∃ w, Bound p clock opts w
  · obtain ⟨w, hw⟩ := hb
    rw [verifyRequestTicket_of_bound hw] at h
    rcases hhas : (cache.sweep (opts.now.getD clock')).seen.has w.claims.jti with _ | _
    · obtain ⟨c', hc', -⟩ := JtiReplayCache.consume_fresh w.claims.exp hhas
      rw [hc'] at h
      cases h
      exact ⟨hw, hhas⟩
    · rw [JtiReplayCache.consume_of_has hhas] at h
      cases h
  · obtain ⟨e, he⟩ := verifyRequestTicket_of_not_bound clock' cache hb
    rw [he] at h
    cases h

theorem ok_of_bound (hb : Bound p clock opts v)
    (h : (cache.sweep (opts.now.getD clock')).seen.has v.claims.jti = false) :
    ∃ c', verifyRequestTicket p clock clock' opts (some cache) = (.ok v, some c') ∧
      cache.Gains v.claims.jti v.claims.exp (opts.now.getD clock') c' := by
  obtain ⟨c', hc', hg⟩ := JtiReplayCache.consume_fresh v.claims.exp h
  refine ⟨c', ?_, hg⟩
  rw [verifyRequestTicket_of_bound hb, hc']

end Call

/-- **Exact acceptance.** For every token, request, cache and both readings of the clock: the call
returns normally exactly when every check passes and the sweep leaves no entry for the `jti`; then the
cache gains that entry and loses only what was swept or evicted. A failed check leaves the cache as it
was. A replay stores nothing and drops no entry that has not run out. -/
theorem spends_exactly (p : Platform) (clock clock' : JsNumber) (opts : VerifyRequestTicketOptions)
    (cache : JtiReplayCache) :
    let now' := opts.now.getD clock'
    let r := verifyRequestTicket p clock clock' opts (some cache)
    ((∃ v, r.1 = .ok v) ↔
      ∃ v, Bound p clock opts v ∧ (cache.sweep now').seen.has v.claims.jti = false) ∧
    (∀ v, r.1 = .ok v → Bound p clock opts v ∧
      ∃ c', r.2 = some c' ∧ cache.Gains v.claims.jti v.claims.exp now' c') ∧
    ((¬ ∃ v, Bound p clock opts v) → r.2 = some cache) ∧
    (∀ v, Bound p clock opts v → (cache.sweep now').seen.has v.claims.jti = true →
      r.1 = .error (.thrown (js "ticket: replayed jti")) ∧ ∃ c', r.2 = some c' ∧
        (∀ k e, cache.seen.get? k = some e → now'.val < e.val → c'.seen.get? k = some e) ∧
        ∀ k e, c'.seen.get? k = some e → cache.seen.get? k = some e) := by
  refine ⟨⟨?_, ?_⟩, ?_, ?_, ?_⟩
  · rintro ⟨v, hv⟩
    exact ⟨v, bound_of_ok hv⟩
  · rintro ⟨v, hb, hfresh⟩
    obtain ⟨c', hc', -⟩ := ok_of_bound hb hfresh
    exact ⟨v, by rw [hc']⟩
  · intro v hv
    obtain ⟨hb, hfresh⟩ := bound_of_ok hv
    obtain ⟨c', hc', hg⟩ := ok_of_bound hb hfresh
    exact ⟨hb, c', by rw [hc'], hg⟩
  · intro hb
    obtain ⟨e, he⟩ := verifyRequestTicket_of_not_bound clock' cache hb
    rw [he]
  · intro v hb hhas
    rw [verifyRequestTicket_of_bound hb, JtiReplayCache.consume_of_has hhas]
    refine ⟨rfl, _, rfl, ?_, ?_⟩
    · intro k e hget hlt
      exact JtiReplayCache.get?_sweep_of_lt hget hlt
    · intro k e hget
      exact (JtiReplayCache.get?_sweep.mp hget).1

/-! ### A tolerance that is rounded up

With `now` at 0.1 and a tolerance of 0.2 seconds the sum `now + skew` is 0.30000000000000004. A ticket
issued at that time is accepted, and `iat - skew` is more than `now`, rounded or not. -/

namespace Sample

def iatRounded : JsNumber := ofRat (30000000000000004 / 10 ^ 17)

def roundedMessage : Bytes :=
  let input : IssueTicketInput :=
    { nodeId := js "node-test", dedupeKey := hex sampleDigest, jti := js "jti-1" }
  utf8 (stringify (claimsJson input iatRounded))

def roundedSignature : Bytes :=
  beBytes 64 0xd13d6d15c801fe027d2b0d5ab3a09fb404e586aea755141174725ed11f4e88e6e9a4fcac0c374344aa7853e9306c0d6b21bade7a312a50f82455c6bf3152e102

def roundedTables : Tables where
  digests := sampleTables.digests
  signatures := [(orchestratorKey,
    pae [HEADER_BYTES, roundedMessage, sampleFooter, utf8 (js "node-test")], roundedSignature)]
  urls := sampleTables.urls

def roundedCall : VerifyRequestTicketOptions where
  token := HEADER ++ base64url (roundedMessage ++ roundedSignature) ++ unit '.' :: base64url sampleFooter
  nodeId := js "node-test"
  publicKey := orchestratorKey
  request := sampleRequest
  now := some (ofRat (1 / 10))
  clockToleranceSec := some (ofRat (2 / 10))

theorem accepted_past_tolerance :
    (verifyRequestTicket roundedTables.platform (JsNumber.ofNat 0) (JsNumber.ofNat 0) roundedCall
      (some (.new 100000))).1.toOption.map (fun v => v.claims.iat) = some iatRounded ∧
    JsNumber.lt (some (ofRat (1 / 10))) (iatRounded.sub (ofRat (2 / 10))) = true ∧
    double (1 / 10) < double (30000000000000004 / 10 ^ 17) - double (2 / 10) := by
  decide +kernel

end Sample

end ConsensusNode.Tickets
