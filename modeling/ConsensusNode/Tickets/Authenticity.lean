import ConsensusNode.Js.RoundTrip
import ConsensusNode.Tickets.Acceptance

/-! # Authenticity of tokens and tickets

What a token carries is split off by length from bytes that a lenient decoder returns, and the signature
is over the pre-authentication encoding. The encoding is injective on buffers shorter than `2 ^ 63`
(`pae_injective`); every buffer and string of the language is shorter than `2 ^ 53`.

* `verifyV4Public_signV4Public`: what is signed verifies and comes back.
* `signed_of_verified`: with unforgeable signatures, what verifies was signed, under the same assertion.
* `issued_of_verified`, `verified_of_issued`: the same for tickets, with claims and `kid`.
* `token_authenticity`: all of it. -/

namespace ConsensusNode.Tickets

open Js

variable {p : Platform}

/-! ### The encoding of the pieces -/

theorem leBytes_inj : ∀ {k n m : ℕ}, n < 256 ^ k → m < 256 ^ k → leBytes k n = leBytes k m → n = m
  | 0, n, m, hn, hm, _ => by
    rw [pow_zero] at hn hm
    omega
  | k + 1, n, m, hn, hm, h => by
    rw [leBytes, leBytes, List.cons.injEq] at h
    rw [pow_succ] at hn hm
    have hlow : n % 256 = m % 256 := by
      have hb := congrArg UInt8.toNat h.1
      simpa using hb
    have hhigh := leBytes_inj (k := k) (by omega) (by omega) h.2
    omega

theorem and_7f_eq_self {b : UInt8} (h : b.toNat < 128) : b &&& 0x7f = b := by
  refine UInt8.toNat_inj.mp ?_
  rw [UInt8.toNat_and]
  show b.toNat &&& (2 ^ 7 - 1) = b.toNat
  rw [Nat.and_two_pow_sub_one_eq_mod]
  exact Nat.mod_eq_of_lt h

/-- The top bit of a length is clear anyway. -/
theorem le64_eq {n : ℕ} (h : n < 2 ^ 63) : le64 n = leBytes 8 n := by
  have htop : (UInt8.ofNat (n / 256 / 256 / 256 / 256 / 256 / 256 / 256 % 256)).toNat < 128 := by
    rw [UInt8.toNat_ofNat']
    omega
  simp [le64, leBytes, and_7f_eq_self htop]

theorem length_le64 (n : ℕ) : (le64 n).length = 8 := by simp [le64]

theorem le64_inj {n m : ℕ} (hn : n < 2 ^ 63) (hm : m < 2 ^ 63) (h : le64 n = le64 m) : n = m := by
  rw [le64_eq hn, le64_eq hm] at h
  exact leBytes_inj (by omega) (by omega) h

/-- A piece and what follows it can be told apart. -/
theorem piece_inj {a b s t : Bytes} (ha : a.length < 2 ^ 63) (hb : b.length < 2 ^ 63)
    (h : (le64 a.length ++ a) ++ s = (le64 b.length ++ b) ++ t) : a = b ∧ s = t := by
  rw [List.append_assoc, List.append_assoc] at h
  obtain ⟨hlen, hrest⟩ := List.append_inj h (by rw [length_le64, length_le64])
  exact List.append_inj hrest (le64_inj ha hb hlen)

/-- No piece is empty with its length in front, so the number of pieces need not be known. -/
theorem pieces_inj : ∀ {ps qs : List Bytes}, (∀ a ∈ ps, a.length < 2 ^ 63) → (∀ b ∈ qs, b.length < 2 ^ 63) →
    (ps.flatMap fun piece => le64 piece.length ++ piece) =
      (qs.flatMap fun piece => le64 piece.length ++ piece) → ps = qs
  | [], [], _, _, _ => rfl
  | [], b :: qs, _, _, h => by
    have hlen := congrArg List.length h
    rw [List.flatMap_nil, List.flatMap_cons, List.length_append, List.length_append, length_le64] at hlen
    simp only [List.length_nil] at hlen
    omega
  | a :: ps, [], _, _, h => by
    have hlen := congrArg List.length h
    rw [List.flatMap_cons, List.flatMap_nil, List.length_append, List.length_append, length_le64] at hlen
    simp only [List.length_nil] at hlen
    omega
  | a :: ps, b :: qs, ha, hb, h => by
    rw [List.flatMap_cons, List.flatMap_cons] at h
    obtain ⟨rfl, hrest⟩ := piece_inj (ha a (by simp)) (hb b (by simp)) h
    have := pieces_inj (fun x hx => ha x (by simp [hx])) (fun x hx => hb x (by simp [hx])) hrest
    rw [this]

/-- **The pre-authentication encoding is injective.** -/
theorem pae_injective {ps qs : List Bytes} (ha : ∀ a ∈ ps, a.length < 2 ^ 63) (hb : ∀ b ∈ qs, b.length < 2 ^ 63)
    (h : pae ps = pae qs) : ps = qs := by
  unfold pae at h
  exact pieces_inj ha hb (List.append_inj h (by rw [length_le64, length_le64])).2

/-! ### Calls of the signer -/

/-- Strings and buffers of the language are shorter than this. -/
def Fits {α : Type} (l : List α) : Prop := l.length < 2 ^ 53

/-- One call of `signV4Public`: message, footer and implicit assertion. -/
structure SignCall where
  m : Bytes
  f : Bytes
  i : Bytes
  fits : Fits m ∧ Fits f ∧ Fits i

/-- The bytes the call signs. -/
def SignCall.payload (c : SignCall) : Bytes := pae [HEADER_BYTES, c.m, c.f, c.i]

theorem SignCall.eq_of_payload {c : SignCall} {m f i : Bytes} (hm : Fits m) (hf : Fits f) (hi : Fits i)
    (h : pae [HEADER_BYTES, m, f, i] = c.payload) : c.m = m ∧ c.f = f ∧ c.i = i := by
  have hheader : HEADER_BYTES.length < 2 ^ 63 := by decide
  obtain ⟨hm', hf', hi'⟩ := c.fits
  unfold Fits at hm hf hi hm' hf' hi'
  have hps := pae_injective (by simp; omega) (by simp; omega) h
  simp only [List.cons.injEq, and_true, true_and] at hps
  exact ⟨hps.1.symm, hps.2.1.symm, hps.2.2.symm⟩

variable (p) in
/-- Ed25519 with the two halves of a key pair: signing succeeds, a signature has 64 bytes and verifies. -/
def KeyPair (secretKey : JsString) (publicKey : Key) : Prop :=
  ∀ payload, ∃ sig, p.sign secretKey payload = some sig ∧ sig.length = SIG_LEN ∧
    p.verify publicKey payload sig = true

variable (p) in
/-- No signature is forged: what verifies is what one of the calls has signed. -/
def Unforgeable (publicKey : Key) (calls : Set SignCall) : Prop :=
  ∀ payload sig, p.verify publicKey payload sig = true → ∃ c ∈ calls, payload = c.payload

/-! ### What is signed comes back -/

theorem dot_not_mem_base64url (bs : Bytes) : unit '.' ∉ base64url bs := by
  intro h
  obtain ⟨n, hn, he⟩ := List.mem_map.mp h
  have hval := b64Val_b64Char true (sextets_lt bs n hn)
  rw [he] at hval
  have hnone : b64Val (unit '.') = none := by decide
  rw [hnone] at hval
  cases hval.1

theorem splitOn_header (s : JsString) :
    (HEADER ++ s).splitOn (unit '.') = js "v4" :: js "public" :: s.splitOn (unit '.') := by
  have hsplit : HEADER ++ s = js "v4" ++ unit '.' :: (js "public" ++ unit '.' :: s) := rfl
  rw [hsplit, List.splitOn_append_cons_self, List.splitOn_append_cons_self,
    List.splitOn_eq_singleton (by decide), List.splitOn_eq_singleton (by decide)]
  rfl

/-- The token of `signV4Public`. -/
def tokenText (m sig f : Bytes) : JsString :=
  let token := HEADER ++ base64url (m ++ sig)
  if f.length ≠ 0 then token ++ unit '.' :: base64url f else token

theorem signV4Public_eq_some {m f i : Bytes} {secretKey token : JsString} :
    signV4Public p m secretKey f i = some token ↔
      ∃ sig, p.sign secretKey (pae [HEADER_BYTES, m, f, i]) = some sig ∧ tokenText m sig f = token := by
  unfold signV4Public
  rw [Option.map_eq_some_iff]
  rfl

theorem splitOn_tokenText (m sig f : Bytes) : (tokenText m sig f).splitOn (unit '.') =
    js "v4" :: js "public" :: base64url (m ++ sig) :: if f.length ≠ 0 then [base64url f] else [] := by
  unfold tokenText
  simp only
  split_ifs
  · rw [List.append_assoc, splitOn_header, List.splitOn_append_cons_self,
      List.splitOn_eq_singleton (dot_not_mem_base64url _),
      List.splitOn_eq_singleton (dot_not_mem_base64url _)]
    rfl
  · rw [splitOn_header, List.splitOn_eq_singleton (dot_not_mem_base64url _)]

theorem startsWith_tokenText (m sig f : Bytes) : startsWith (tokenText m sig f) HEADER = true := by
  unfold tokenText startsWith
  simp only
  split_ifs <;> simp

/-- The bytes of the third part. -/
def tokenBody (token : JsString) : Bytes := decodeBase64 ((token.splitOn (unit '.')).getD 2 [])

/-- The bytes of the fourth part, if there is one. -/
def tokenFooter (token : JsString) : Bytes :=
  if ((token.splitOn (unit '.')).length == 4) = true then
    decodeBase64 ((token.splitOn (unit '.')).getD 3 []) else []

theorem tokenParts_eq_ok {token : JsString} {t : TokenParts} : tokenParts token = .ok t ↔
    startsWith token HEADER = true ∧
    ((token.splitOn (unit '.')).length = 3 ∨ (token.splitOn (unit '.')).length = 4) ∧
    SIG_LEN ≤ (tokenBody token).length ∧
    (⟨(tokenBody token).take ((tokenBody token).length - SIG_LEN),
      (tokenBody token).drop ((tokenBody token).length - SIG_LEN), tokenFooter token⟩ : TokenParts) = t := by
  simp only [tokenParts, bind_eq_ok, require_eq_ok, pure, Except.pure, Except.ok.injEq,
    decide_eq_true_eq, Bool.or_eq_true, beq_iff_eq]
  constructor
  · rintro ⟨-, h1, -, h2, -, h3, h4⟩
    exact ⟨h1, h2, h3, by simpa [tokenBody, tokenFooter] using h4⟩
  · rintro ⟨h1, h2, h3, h4⟩
    exact ⟨(), h1, (), h2, (), h3, by simpa [tokenBody, tokenFooter] using h4⟩

/-- Message, signature and footer are read off the token as they were put in. -/
theorem tokenParts_tokenText {m sig f : Bytes} (hsig : sig.length = SIG_LEN) :
    tokenParts (tokenText m sig f) = .ok ⟨m, sig, f⟩ := by
  have hbody : tokenBody (tokenText m sig f) = m ++ sig := by
    rw [tokenBody, splitOn_tokenText]
    exact decodeBase64_base64url _
  have hlen : (m ++ sig).length - SIG_LEN = m.length := by simp [hsig]
  have hfooter : tokenFooter (tokenText m sig f) = f := by
    rw [tokenFooter, splitOn_tokenText]
    by_cases hf : f.length = 0
    · simp [List.eq_nil_of_length_eq_zero hf]
    · simp [List.length_eq_zero_iff.not.mp hf, decodeBase64_base64url]
  refine tokenParts_eq_ok.mpr ⟨startsWith_tokenText m sig f, ?_, ?_, ?_⟩
  · rw [splitOn_tokenText]
    by_cases hf : f.length = 0
    · left; simp [List.eq_nil_of_length_eq_zero hf]
    · right; simp [List.length_eq_zero_iff.not.mp hf]
  · rw [hbody]
    simp [hsig]
  · rw [hbody, hfooter, hlen, List.take_left, List.drop_left]

/-- **What is signed verifies and comes back.** -/
theorem verifyV4Public_signV4Public {secretKey : JsString} {publicKey : Key}
    (hkey : KeyPair p secretKey publicKey) (m f i : Bytes) :
    ∃ token, signV4Public p m secretKey f i = some token ∧
      verifyV4Public p token publicKey i = .ok (m, f) := by
  obtain ⟨sig, hsign, hlen, hverify⟩ := hkey (pae [HEADER_BYTES, m, f, i])
  refine ⟨tokenText m sig f, signV4Public_eq_some.mpr ⟨sig, hsign, rfl⟩, ?_⟩
  exact verifyV4Public_eq_ok.mpr ⟨sig, tokenParts_tokenText hlen, hverify⟩

/-! ### What verifies was signed -/

theorem length_unsextets : ∀ l : List ℕ, (unsextets l).length ≤ l.length
  | [] => by simp [unsextets]
  | [_] => by simp [unsextets]
  | [_, _] => by simp [unsextets]
  | [_, _, _] => by simp [unsextets]
  | _ :: _ :: _ :: _ :: l => by
    have := length_unsextets l
    simp only [unsextets, List.length_cons]
    omega

theorem length_decodeBase64 (s : JsString) : (decodeBase64 s).length ≤ s.length := by
  unfold decodeBase64
  refine (length_unsextets _).trans ((List.length_filterMap_le _ _).trans ?_)
  exact (List.takeWhile_sublist _).length_le

theorem length_splitOn {c : UInt16} : ∀ {s part : JsString}, part ∈ s.splitOn c → part.length ≤ s.length
  | [], part, h => by
    rw [List.splitOn_nil, List.mem_singleton] at h
    simp [h]
  | x :: s, part, h => by
    unfold List.splitOn at h
    rw [List.splitOnP_cons_eq_if_modifyHead] at h
    split_ifs at h with hx
    · rcases List.mem_cons.mp h with rfl | h
      · simp
      · exact (length_splitOn h).trans (Nat.le_succ _)
    · obtain ⟨a, l, hal⟩ := List.exists_cons_of_ne_nil (List.splitOnP_ne_nil (· == c) s)
      rw [hal, List.modifyHead_cons] at h
      rcases List.mem_cons.mp h with rfl | h
      · have ha : a ∈ s.splitOn c := by
          unfold List.splitOn
          rw [hal]
          simp
        simpa using length_splitOn ha
      · have hp : part ∈ s.splitOn c := by
          unfold List.splitOn
          rw [hal]
          simp [h]
        exact (length_splitOn hp).trans (Nat.le_succ _)

theorem length_getD_splitOn (s : JsString) (c : UInt16) (n : ℕ) :
    ((s.splitOn c).getD n []).length ≤ s.length := by
  rw [List.getD_eq_getElem?_getD]
  rcases h : (s.splitOn c)[n]? with _ | part
  · simp
  · exact length_splitOn (List.mem_of_getElem? h)

/-- What a token of the language carries fits into buffers of the language. -/
theorem fits_of_tokenParts {token : JsString} {t : TokenParts} (hfit : Fits token)
    (h : tokenParts token = .ok t) : Fits t.message ∧ Fits t.footer := by
  unfold Fits at hfit ⊢
  obtain ⟨-, -, -, rfl⟩ := tokenParts_eq_ok.mp h
  have hbody : (tokenBody token).length ≤ token.length :=
    (length_decodeBase64 _).trans (length_getD_splitOn _ _ _)
  have hfooter : (tokenFooter token).length ≤ token.length := by
    unfold tokenFooter
    split_ifs
    · exact (length_decodeBase64 _).trans (length_getD_splitOn _ _ _)
    · simp
  refine ⟨lt_of_le_of_lt ?_ hfit, lt_of_le_of_lt hfooter hfit⟩
  exact (List.length_take_le _ _).trans ((Nat.sub_le _ _).trans hbody)

/-- **What verifies was signed**, with the same implicit assertion. -/
theorem signed_of_verified {publicKey : Key} {calls : Set SignCall}
    (hunf : Unforgeable p publicKey calls) {token : JsString} {i m f : Bytes} (htoken : Fits token)
    (hi : Fits i) (h : verifyV4Public p token publicKey i = .ok (m, f)) :
    ∃ c ∈ calls, c.m = m ∧ c.f = f ∧ c.i = i := by
  obtain ⟨sig, ht, hv⟩ := verifyV4Public_eq_ok.mp h
  obtain ⟨c, hc, hpay⟩ := hunf _ _ hv
  obtain ⟨hm, hf⟩ := fits_of_tokenParts htoken ht
  exact ⟨c, hc, SignCall.eq_of_payload hm hf hi hpay⟩

/-! ### Tickets -/

/-- One call of `issueTicket`: the clock, the input and the key id. The time it takes is a double, and
what it signs are buffers of the language. -/
structure IssueCall where
  clock : JsNumber
  input : IssueTicketInput
  kid : JsString
  double : IsDouble (input.now.getD clock)
  fits : Fits (utf8 (stringify (claimsJson input (input.now.getD clock)))) ∧
    Fits (utf8 (stringify (.obj [(js "kid", .str kid)]))) ∧ Fits (utf8 input.nodeId)

namespace IssueCall

/-- `now`. -/
def now (c : IssueCall) : JsNumber := c.input.now.getD c.clock

/-- What `issueTicket` passes to `signV4Public`. -/
def sign (c : IssueCall) : SignCall where
  m := utf8 (stringify (claimsJson c.input c.now))
  f := utf8 (stringify (.obj [(js "kid", .str c.kid)]))
  i := utf8 c.input.nodeId
  fits := c.fits

/-- The claims issued; there are none with a number if `exp` is `NaN`. -/
def claims (c : IssueCall) : Option TicketClaims :=
  (c.now.add (c.input.ttlSec.getD DEFAULT_TTL_SEC)).map fun exp => {
    iss := TICKET_ISSUER
    aud := c.input.nodeId
    sub := c.input.dedupeKey
    scope := c.input.scope.getD TICKET_SCOPE_PROXY
    iat := c.now
    exp := exp
    jti := c.input.jti }

end IssueCall

theorem built_claimsJson (input : IssueTicketInput) (now : JsNumber) : Built (claimsJson input now) := by
  have hexp : Built (numJson (now.add (input.ttlSec.getD DEFAULT_TTL_SEC))) := by
    unfold numJson
    split <;> trivial
  refine ⟨?_, ordered_iff_keys.mpr ?_, trivial, trivial, trivial, trivial, trivial, hexp, trivial, trivial⟩
  · show [js "iss", js "aud", js "sub", js "scope", js "iat", js "exp", js "jti"].Nodup
    decide
  · show [js "iss", js "aud", js "sub", js "scope", js "iat", js "exp", js "jti"].Pairwise _
    decide

theorem fixes_claimsJson (input : IssueTicketInput) {now : JsNumber} (h : IsDouble now) :
    Fixes ofRat (claimsJson input now) := by
  refine ⟨trivial, trivial, trivial, trivial, fixes_num h, ?_, trivial, trivial⟩
  unfold numJson
  split
  · rename_i x hx
    exact fixes_num (isDouble_add hx)
  · trivial

theorem IssueCall.parse_message (c : IssueCall) :
    parse (decodeUtf8 c.sign.m) = some (finitize (claimsJson c.input c.now)) :=
  parse_decode_stringify (built_claimsJson _ _) (fixes_claimsJson _ c.double)

theorem IssueCall.footerKid_footer (c : IssueCall) : footerKid c.sign.f = .str c.kid := by
  have hbuilt : Built (.obj [(js "kid", .str c.kid)]) := by
    refine ⟨?_, ?_, trivial, trivial⟩
    · simp
    · simp [Ordered]
  have hparse := parse_decode_stringify hbuilt ⟨trivial, trivial⟩
  have hne : c.sign.f.length ≠ 0 := by
    intro h0
    have hnil : utf8 (stringify (.obj [(js "kid", .str c.kid)])) = [] := List.eq_nil_of_length_eq_zero h0
    rw [hnil] at hparse
    revert hparse
    simp [decodeUtf8, utf8Scalars, Utf8State.idle, parse, readValue, skipSpace]
  unfold footerKid
  rw [if_neg hne, show c.sign.f = utf8 (stringify (.obj [(js "kid", .str c.kid)])) from rfl, hparse]
  rfl

theorem finitize_eq_num {v : Json} {y : JsNumber} (h : finitize v = .num y) : v = .num y := by
  cases v with
  | num x => cases x <;> simp_all [finitize]
  | _ => simp [finitize] at h

theorem numJson_eq_num {x : Option JsNumber} {y : JsNumber} (h : numJson x = .num y) : x = some y := by
  rcases x with _ | x
  · cases h
  · cases h
    rfl

/-- Claims that are accepted out of an issued message are the claims issued. -/
theorem IssueCall.claims_of_admits {c : IssueCall} {opts : VerifyTicketOptions} {now : JsNumber}
    {cl : TicketClaims} (h : Admits opts now (finitize (claimsJson c.input c.now)) cl) :
    c.claims = some cl ∧ c.input.nodeId = opts.expectedNodeId := by
  obtain ⟨⟨-, haud, hscope, hexp, -, hjti, hsub⟩, hiat, -, -, -, hiss', haud', hscope'⟩ := h
  have e1 : some (Json.str c.input.nodeId) = some (.str opts.expectedNodeId) := haud
  have e2 : some (Json.str (c.input.scope.getD TICKET_SCOPE_PROXY)) =
      some (.str (opts.expectedScope.getD TICKET_SCOPE_PROXY)) := hscope
  have e3 : some (finitize (numJson (c.now.add (c.input.ttlSec.getD DEFAULT_TTL_SEC)))) =
      some (.num cl.exp) := hexp
  have e4 : some (Json.str c.input.jti) = some (.str cl.jti) := hjti
  have e5 : some (Json.str c.input.dedupeKey) = some (.str cl.sub) := hsub
  have e6 : some (finitize (.num c.now)) = some (.num cl.iat) := hiat
  simp only [Option.some.injEq, Json.str.injEq] at e1 e2 e3 e4 e5 e6
  have hnow := finitize_eq_num e6
  have hadd := numJson_eq_num (finitize_eq_num e3)
  simp only [Json.num.injEq] at hnow
  refine ⟨?_, e1⟩
  unfold IssueCall.claims
  rw [hadd]
  obtain ⟨iss, aud, sub, scope, iat, exp, jti⟩ := cl
  simp only [Option.map_some, Option.some.injEq, TicketClaims.mk.injEq]
  exact ⟨hiss'.symm, e1.trans haud'.symm, e5, e2.trans hscope'.symm, hnow, trivial, e4⟩

/-- **Accepted tickets were issued.** If the key signs nothing but tickets, an accepted token carries the
claims and the `kid` of one call of `issueTicket`, for a node id with the same bytes. -/
theorem issued_of_verified {publicKey : Key} {calls : Set IssueCall}
    (hunf : Unforgeable p publicKey (IssueCall.sign '' calls)) {clock : JsNumber} {token : JsString}
    {opts : VerifyTicketOptions} {v : VerifiedTicket} (htoken : Fits token)
    (hnode : Fits (utf8 opts.expectedNodeId))
    (h : verifyTicket p clock token publicKey opts = .ok v) :
    ∃ c ∈ calls, utf8 c.input.nodeId = utf8 opts.expectedNodeId ∧ c.claims = some v.claims ∧
      v.kid = .str c.kid := by
  obtain ⟨⟨m, sig, f⟩, raw, ht, hv, hraw, hadm, hkid⟩ := verifyTicket_iff.mp h
  have hverified := verifyV4Public_eq_ok.mpr ⟨sig, ht, hv⟩
  obtain ⟨-, ⟨c, hc, rfl⟩, rfl, rfl, hi⟩ := signed_of_verified hunf htoken hnode hverified
  rw [c.parse_message] at hraw
  cases hraw
  exact ⟨c, hc, hi, (IssueCall.claims_of_admits hadm).1, by rw [hkid, c.footerKid_footer]⟩

variable (p) in
/-- `issueTicket` with this key has returned this token. -/
def IssueCall.Returned (c : IssueCall) (secretKey token : JsString) : Prop :=
  issueTicket p c.clock c.input secretKey c.kid = some token

/-- **An issued ticket is accepted for its node only**, and gives back what was issued. -/
theorem verified_of_issued {c : IssueCall} {secretKey token : JsString} {publicKey publicKey' : Key}
    (hkey : KeyPair p secretKey publicKey) (hissue : c.Returned p secretKey token) {clock : JsNumber}
    {opts : VerifyTicketOptions} {v : VerifiedTicket}
    (h : verifyTicket p clock token publicKey' opts = .ok v) :
    c.input.nodeId = opts.expectedNodeId ∧ c.claims = some v.claims ∧ v.kid = .str c.kid := by
  obtain ⟨sig, hsign, rfl⟩ := signV4Public_eq_some.mp hissue
  obtain ⟨sig', hsign', hlen, -⟩ := hkey c.sign.payload
  have hsig : sig = sig' := Option.some.inj (hsign.symm.trans hsign')
  have hparts := tokenParts_tokenText (m := c.sign.m) (f := c.sign.f) (hsig ▸ hlen)
  obtain ⟨t, raw, ht, -, hraw, hadm, hkid⟩ := verifyTicket_iff.mp h
  have hteq : t = ⟨c.sign.m, sig, c.sign.f⟩ := Except.ok.inj (ht.symm.trans hparts)
  subst hteq
  rw [c.parse_message] at hraw
  cases hraw
  obtain ⟨hclaims, hnode⟩ := IssueCall.claims_of_admits hadm
  exact ⟨hnode, hclaims, by rw [hkid, c.footerKid_footer]⟩

/-- **Token authenticity.** What is signed with a key pair verifies and comes back. Under a key whose
signatures are not forged, whatever token verifies carries a message and a footer that were signed with
the same implicit assertion. So a ticket issued for one node id is never accepted for an id with other
bytes, and every accepted ticket gives back the claims and the `kid` of a call of `issueTicket`. -/
theorem token_authenticity (p : Platform) :
    (∀ secretKey publicKey, KeyPair p secretKey publicKey → ∀ m f i : Bytes,
      ∃ token, signV4Public p m secretKey f i = some token ∧
        verifyV4Public p token publicKey i = .ok (m, f)) ∧
    (∀ publicKey calls, Unforgeable p publicKey calls → ∀ token i, Fits token → Fits i →
      ∀ m f, verifyV4Public p token publicKey i = .ok (m, f) →
        ∃ c ∈ calls, c.m = m ∧ c.f = f ∧ c.i = i) ∧
    (∀ secretKey publicKey, KeyPair p secretKey publicKey →
      ∀ (c : IssueCall) (token : JsString), c.Returned p secretKey token →
      ∀ (clock : JsNumber) (opts : VerifyTicketOptions),
        (utf8 c.input.nodeId ≠ utf8 opts.expectedNodeId →
          ∀ v, verifyTicket p clock token publicKey opts ≠ .ok v) ∧
        ∀ v, verifyTicket p clock token publicKey opts = .ok v →
          c.claims = some v.claims ∧ v.kid = .str c.kid) ∧
    (∀ publicKey (calls : Set IssueCall), Unforgeable p publicKey (IssueCall.sign '' calls) →
      ∀ (clock : JsNumber) (token : JsString) (opts : VerifyTicketOptions), Fits token →
        Fits (utf8 opts.expectedNodeId) → ∀ v, verifyTicket p clock token publicKey opts = .ok v →
          ∃ c ∈ calls, utf8 c.input.nodeId = utf8 opts.expectedNodeId ∧ c.claims = some v.claims ∧
            v.kid = .str c.kid) := by
  refine ⟨?_, ?_, ?_, ?_⟩
  · intro secretKey publicKey hkey m f i
    exact verifyV4Public_signV4Public hkey m f i
  · intro publicKey calls hunf token i htoken hi m f h
    exact signed_of_verified hunf htoken hi h
  · intro secretKey publicKey hkey c token hissue clock opts
    refine ⟨?_, ?_⟩
    · intro hne v hv
      exact hne (congrArg utf8 (verified_of_issued hkey hissue hv).1)
    · intro v hv
      exact (verified_of_issued hkey hissue hv).2
  · intro publicKey calls hunf clock token opts htoken hnode v hv
    exact issued_of_verified hunf htoken hnode hv

namespace Sample

/-- The call that issued `sampleToken`. -/
def issueCall : IssueCall where
  clock := JsNumber.ofNat 1700000140
  input := { nodeId := js "node-test", dedupeKey := hex sampleDigest, jti := js "jti-1" }
  kid := js "orchestrator-1"
  double := isDouble_ofInt (by decide)
  fits := by
    unfold Fits
    decide +kernel

/-- A signer with the signature of `sampleToken` for that payload. -/
def signer : Platform :=
  let sig (payload : Bytes) : Bytes :=
    if payload = issueCall.sign.payload then sampleSignature else List.replicate 64 0
  { sampleTables.platform with
    sign := fun _ payload => some (sig payload)
    verify := fun _ payload s => decide (s = sig payload) }

theorem keyPair_signer (secretKey : JsString) (publicKey : Key) : KeyPair signer secretKey publicKey := by
  intro payload
  refine ⟨_, rfl, ?_, by simp [signer]⟩
  simp only
  split_ifs
  · decide
  · rfl

theorem unforgeable_sample :
    Unforgeable sampleTables.platform orchestratorKey (IssueCall.sign '' {issueCall}) := by
  intro payload sig h
  have hmem : (orchestratorKey, payload, sig) ∈ sampleTables.signatures := of_decide_eq_true h
  have heq := List.mem_singleton.mp hmem
  refine ⟨issueCall.sign, ⟨issueCall, rfl, rfl⟩, ?_⟩
  exact congrArg (fun e => e.2.1) heq

theorem sampleToken_accepted : ∃ v, verifyTicket sampleTables.platform (JsNumber.ofNat 1700000150)
    sampleToken orchestratorKey { expectedNodeId := js "node-test" } = .ok v := by
  have h : (verifyTicket sampleTables.platform (JsNumber.ofNat 1700000150) sampleToken orchestratorKey
      { expectedNodeId := js "node-test" }).isOk = true := by
    decide +kernel
  revert h
  rcases verifyTicket sampleTables.platform (JsNumber.ofNat 1700000150) sampleToken orchestratorKey
      { expectedNodeId := js "node-test" } with e | v
  · intro h
    cases h
  · intro _
    exact ⟨v, rfl⟩

theorem sampleToken_authentic :
    (∃ token, signV4Public signer sampleMessage (js "key") sampleFooter (utf8 (js "node-test")) =
        some token ∧
      verifyV4Public signer token orchestratorKey (utf8 (js "node-test")) =
        .ok (sampleMessage, sampleFooter)) ∧
    ∃ v, verifyTicket sampleTables.platform (JsNumber.ofNat 1700000150) sampleToken orchestratorKey
        { expectedNodeId := js "node-test" } = .ok v ∧
      ∃ c ∈ ({issueCall} : Set IssueCall), utf8 c.input.nodeId = utf8 (js "node-test") ∧
        c.claims = some v.claims ∧ v.kid = .str c.kid := by
  obtain ⟨hround, -⟩ := token_authenticity signer
  obtain ⟨-, -, -, hissued⟩ := token_authenticity sampleTables.platform
  obtain ⟨v, hv⟩ := sampleToken_accepted
  have hfit : Fits sampleToken := by
    unfold Fits
    decide +kernel
  have hnode : Fits (utf8 (js "node-test")) := by
    unfold Fits
    decide
  refine ⟨hround _ _ (keyPair_signer _ _) _ _ _, v, hv, ?_⟩
  exact hissued _ _ unforgeable_sample _ _ _ hfit hnode v hv

end Sample

end ConsensusNode.Tickets
