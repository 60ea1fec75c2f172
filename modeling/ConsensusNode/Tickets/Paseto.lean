import ConsensusNode.Platform

/-! # PASETO v4.public

`tickets/paseto.ts`: a token is `v4.public.` followed by the message with its 64 signature bytes in
base64url and, after another dot, the footer. The signature is over the pre-authentication encoding of
header, message, footer and an implicit assertion that the token does not carry.

* `verifyV4Public_eq_ok`: what an accepted token is made of. Message and footer depend on the token
  alone (`tokenParts`), whatever key and assertion it is verified with. -/

namespace ConsensusNode.Tickets

open Js

variable (p : Platform)

def HEADER : JsString := js "v4.public."

def HEADER_BYTES : Bytes := utf8 HEADER

def SIG_LEN : ℕ := 64

/-- Eight bytes, the least significant first, the top bit cleared. -/
def le64 (n : ℕ) : Bytes := (leBytes 8 n).mapIdx fun i b => if i = 7 then b &&& 0x7f else b

def pae (pieces : List Bytes) : Bytes :=
  le64 pieces.length ++ pieces.flatMap fun piece => le64 piece.length ++ piece

/-- `signV4Public`; `none` if the key text holds no key. -/
def signV4Public (m : Bytes) (secretKey : JsString) (f i : Bytes) : Option JsString :=
  (p.sign secretKey (pae [HEADER_BYTES, m, f, i])).map fun sig =>
    let token := HEADER ++ base64url (m ++ sig)
    if f.length ≠ 0 then token ++ unit '.' :: base64url f else token

/-- What a token carries. -/
structure TokenParts where
  message : Bytes
  signature : Bytes
  footer : Bytes

/-- The checks of `verifyV4Public` before the signature. -/
def tokenParts (token : JsString) : Except JsError TokenParts := do
  require (startsWith token HEADER) (js "paseto: unsupported header")
  let parts := token.splitOn (unit '.')
  require (parts.length == 3 || parts.length == 4) (js "paseto: malformed token")
  let body := decodeBase64 (parts.getD 2 [])
  require (decide (SIG_LEN ≤ body.length)) (js "paseto: token too short")
  return {
    message := body.take (body.length - SIG_LEN)
    signature := body.drop (body.length - SIG_LEN)
    footer := if parts.length == 4 then decodeBase64 (parts.getD 3 []) else [] }

/-- The message and the footer of a token whose signature is good. -/
def verifyV4Public (token : JsString) (publicKey : Key) (implicit : Bytes) :
    Except JsError (Bytes × Bytes) := do
  let t ← tokenParts token
  require (p.verify publicKey (pae [HEADER_BYTES, t.message, t.footer, implicit]) t.signature)
    (js "paseto: bad signature")
  return (t.message, t.footer)

variable {p}

theorem verifyV4Public_eq_ok {token : JsString} {publicKey : Key} {implicit m f : Bytes} :
    verifyV4Public p token publicKey implicit = .ok (m, f) ↔
      ∃ sig, tokenParts token = .ok ⟨m, sig, f⟩ ∧
        p.verify publicKey (pae [HEADER_BYTES, m, f, implicit]) sig = true := by
  unfold verifyV4Public
  simp only [bind_eq_ok, require_eq_ok, pure, Except.pure, Except.ok.injEq]
  constructor
  · rintro ⟨⟨m', sig, f'⟩, ht, -, hv, h⟩
    cases h
    exact ⟨sig, ht, hv⟩
  · rintro ⟨sig, ht, hv⟩
    exact ⟨_, ht, (), hv, rfl⟩

end ConsensusNode.Tickets
