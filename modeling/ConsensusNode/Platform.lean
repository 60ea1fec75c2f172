import ConsensusNode.Js.Encoding
import ConsensusNode.Js.Value

/-! # The platform

What the program calls and does not contain: the Unicode case tables, the URL parser, sockets, SHA-256, Ed25519,
ECDH, HKDF and ChaCha20-Poly1305. A `Platform` is one choice of all of them, and every function of the
program that needs one takes it as a parameter. What a result assumes about a platform is a hypothesis
of that result; the common ones are named here. -/

namespace ConsensusNode

open Js

/-- What the getters of a `URL` object return; `params` lists `searchParams`. -/
structure Url where
  href : JsString
  origin : JsString
  protocol : JsString
  username : JsString
  password : JsString
  host : JsString
  hostname : JsString
  port : JsString
  pathname : JsString
  search : JsString
  params : List (JsString × JsString)
  hash : JsString
deriving DecidableEq

/-- The `URL` class. -/
structure UrlApi where
  /-- `new URL(s)`; `none` is the exception. -/
  parseUrl : JsString → Option Url
  /-- `new URL(s, base)`. -/
  parseUrlBase : JsString → JsString → Option Url
  setProtocol : Url → JsString → Url
  setHostname : Url → JsString → Url
  setPort : Url → JsString → Url
  setPathname : Url → JsString → Url
  setSearch : Url → JsString → Url
  setHash : Url → JsString → Url
  /-- `u.searchParams.append(k, v)`. -/
  appendParam : Url → JsString → JsString → Url

/-- The key of a signature scheme. -/
abbrev Key := Bytes

/-- The cryptographic functions. -/
structure Cryptography where
  sha256 : Bytes → Bytes
  /-- The public key in a PEM text. -/
  publicKeyOfPem : JsString → Option Key
  /-- `crypto.verify(null, payload, key, signature)`. -/
  verify : Key → Bytes → Bytes → Bool
  /-- `crypto.sign(null, payload, privateKeyPem)`; `none` if the text holds no key. -/
  sign : JsString → Bytes → Option Bytes
  /-- The raw public key of a private ECDH key. -/
  ecdhPublic : Bytes → Bytes
  /-- `importKey("raw", peer)` and `deriveBits`; `none` if `peer` is no point of the curve. -/
  ecdh : Bytes → Bytes → Option Bytes
  /-- `hkdfSync("sha256", secret, salt, info, length)`. -/
  hkdf : Bytes → Bytes → Bytes → ℕ → Bytes
  /-- `chacha20poly1305(key, nonce, aad).encrypt(plaintext)`: ciphertext and tag. -/
  encrypt : Bytes → Bytes → Bytes → Bytes → Bytes
  /-- `chacha20poly1305(key, nonce, aad).decrypt(sealed)`; `none` is the exception. -/
  decrypt : Bytes → Bytes → Bytes → Bytes → Option Bytes

/-- Everything the program takes from its platform. -/
structure Platform extends UrlApi, Cryptography where
  toUpperCase : JsString → JsString
  toLowerCase : JsString → JsString
  /-- `none` is the exception. -/
  decodeURIComponent : JsString → Option JsString
  /-- `Buffer.from(v, encoding)` of a value that is neither a string, `null` nor `undefined`. -/
  bufferFrom : Json → Except JsError Bytes
  /-- `net.createConnection({ host, port })`; what it throws, if it throws. -/
  createConnection : Json → JsNumber → Except JsError Unit

namespace Platform

/-- SHA-256 has no collisions. -/
def CollisionFree (p : Platform) : Prop := Function.Injective p.sha256

/-- On ASCII text the case tables map the twenty-six letters and nothing else. -/
structure AsciiCase (p : Platform) : Prop where
  upper : ∀ s, isAscii s = true → p.toUpperCase s = asciiUpper s
  lower : ∀ s, isAscii s = true → p.toLowerCase s = asciiLower s

end Platform

/-- `sha256Hex` of a buffer. -/
def sha256Hex (p : Platform) (b : Bytes) : JsString := hex (p.sha256 b)

/-- `sha256Hex` of a string. -/
def sha256HexText (p : Platform) (s : JsString) : JsString := sha256Hex p (utf8 s)

/-! ### Platforms from tables

A platform that knows finitely many digests, signatures and URLs, for running the model on given inputs.
A digest that is not in the table is the input with 33 more bytes, which is longer than any digest. The
setters are those of an http(s) URL whose parts need no encoding, and a host has to be a text. -/

structure Tables where
  digests : List (Bytes × Bytes) := []
  /-- Key, payload and signature. -/
  signatures : List (Key × Bytes × Bytes) := []
  urls : List (JsString × Url) := []
  /-- Key, nonce, associated data and sealed bytes, with the plaintext. -/
  sealed : List ((Bytes × Bytes × Bytes × Bytes) × Bytes) := []

namespace Url

/-- Host and port. -/
def hostPort (hostname port : JsString) : JsString :=
  if port = [] then hostname else hostname ++ unit ':' :: port

/-- The URL with `host`, `origin` and `href` as its parts give them. -/
def refresh (u : Url) : Url :=
  let host := hostPort u.hostname u.port
  let cred := if u.username = [] ∧ u.password = [] then [] else
    u.username ++ (if u.password = [] then [] else unit ':' :: u.password) ++ [unit '@']
  { u with
    host := host
    origin := u.protocol ++ js "//" ++ host
    href := u.protocol ++ js "//" ++ cred ++ host ++ u.pathname ++ u.search ++ u.hash }

/-- An http(s) URL without credentials, query and fragment. -/
def plain (protocol hostname pathname : JsString) : Url :=
  refresh {
    href := [], origin := [], protocol := protocol, username := [], password := [], host := [],
    hostname := hostname, port := [], pathname := pathname, search := [], params := [], hash := [] }

/-- `key=value` pairs with `&` between them, after a question mark. -/
def query (params : List (JsString × JsString)) : JsString :=
  if params = [] then [] else
    unit '?' :: join (unit '&') (params.map fun kv => kv.1 ++ unit '=' :: kv.2)

end Url

namespace Tables

variable (t : Tables)

def digest (b : Bytes) : Bytes := (t.digests.lookup b).getD (b ++ List.replicate 33 0)

def platform : Platform where
  parseUrl s := t.urls.lookup s
  parseUrlBase _ _ := none
  setProtocol u s := Url.refresh { u with protocol := s }
  setHostname u s := Url.refresh { u with hostname := s }
  setPort u s := Url.refresh { u with port := s }
  setPathname u s := Url.refresh { u with pathname := s }
  setSearch u s := Url.refresh { u with search := s, params := [] }
  setHash u s := Url.refresh { u with hash := s }
  appendParam u k v := Url.refresh
    { u with params := u.params ++ [(k, v)], search := Url.query (u.params ++ [(k, v)]) }
  sha256 := t.digest
  publicKeyOfPem _ := none
  verify k m s := decide ((k, m, s) ∈ t.signatures)
  sign _ _ := none
  ecdhPublic d := d
  ecdh _ _ := none
  hkdf _ _ _ _ := []
  encrypt key nonce aad b :=
    ((t.sealed.find? fun e => e.1.1 = key ∧ e.1.2.1 = nonce ∧ e.1.2.2.1 = aad ∧ e.2 = b).map
      fun e => e.1.2.2.2).getD b
  decrypt key nonce aad b := t.sealed.lookup (key, nonce, aad, b)
  toUpperCase := asciiUpper
  toLowerCase := asciiLower
  decodeURIComponent s := if s.contains (unit '%') then none else some s
  bufferFrom _ := .error .native
  createConnection host _ :=
    match host with
    | .str _ => .ok ()
    | _ => .error .native

theorem mem_digests {b d : Bytes} (h : t.digests.lookup b = some d) : (b, d) ∈ t.digests := by
  obtain ⟨l₁, l₂, heq, -⟩ := List.lookup_eq_some_iff.mp h
  rw [heq]
  simp

/-- Digests of at most 32 bytes, each of one input, do not collide. -/
theorem digest_injective (hlen : ∀ e ∈ t.digests, e.2.length ≤ 32)
    (hn : (t.digests.map Prod.snd).Nodup) : Function.Injective t.digest := by
  have hlong : ∀ {b c d}, t.digests.lookup c = some d → b ++ List.replicate 33 (0 : UInt8) ≠ d := by
    rintro b c d hc rfl
    have := hlen _ (t.mem_digests hc)
    simp at this
  intro a b h
  unfold digest at h
  cases ha : t.digests.lookup a with
  | none =>
    cases hb : t.digests.lookup b with
    | none =>
      rw [ha, hb] at h
      exact List.append_cancel_right h
    | some d =>
      rw [ha, hb] at h
      exact absurd h (hlong hb)
  | some d =>
    cases hb : t.digests.lookup b with
    | none =>
      rw [ha, hb] at h
      exact absurd h.symm (hlong ha)
    | some d' =>
      rw [ha, hb] at h
      have hpair := List.inj_on_of_nodup_map hn (t.mem_digests ha) (t.mem_digests hb) h
      exact congrArg Prod.fst hpair

theorem asciiCase : t.platform.AsciiCase := ⟨fun _ _ => rfl, fun _ _ => rfl⟩

end Tables

end ConsensusNode
