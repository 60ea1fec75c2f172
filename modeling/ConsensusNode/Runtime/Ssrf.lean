import ConsensusNode.Platform
import ConsensusNode.Js.OrdMap
import ConsensusNode.Js.UrlPath

/-! # The SSRF guard

`runtime/ssrf.ts`: `resolveAndCheckTarget` hands out the address a request may connect to. A literal
address is checked at once; a host name is looked up, unless its verdict is in the cache, and the first
address of the answer is taken if no record of the answer is private. The call stops at the lookup, so it
is given in two parts: `resolveStart` up to the lookup and `resolveAnswer` after it. Everything the code
matches with a regular expression is spelled out on the text. -/

namespace ConsensusNode.Runtime

open Js

variable (p : Platform)

structure SafeResolution where
  ip : JsString
  family : ℕ
  hostname : JsString
  isLiteral : Bool
deriving DecidableEq

structure DnsCacheEntry where
  isPrivate : Bool
  ip : Option JsString
  family : Option ℕ
  expiresAt : ℕ
deriving DecidableEq

structure DnsRecord where
  address : JsString
  family : ℕ
deriving DecidableEq

def DNS_TTL_MS : ℕ := 30000

def DNS_NEG_TTL : ℕ := 5000

def FORBIDDEN : JsError :=
  .thrown (js "Forbidden target_url — private/internal addresses are not allowed")

/-! ### Literals -/

/-- `s.replace(/^\[|\]$/g, '')`. -/
def stripBrackets (s : JsString) : JsString :=
  let s := if s.head? = some (unit '[') then s.tail else s
  if s.getLast? = some (unit ']') then s.dropLast else s

/-- `\d{1,3}\.\d{1,3}\.\d{1,3}\.\d{1,3}`. -/
def isDottedQuad (s : JsString) : Bool :=
  let parts := s.splitOn (unit '.')
  parts.length == 4 && parts.all fun q => !q.isEmpty && decide (q.length ≤ 3) && q.all isDigit

/-- What stands after `::ffff:`. -/
def afterMappedPrefix (s : JsString) : Option JsString :=
  if startsWith s (js "::ffff:") then some (s.drop 7) else none

/-- The dotted tail of a mapped address: five groups of zeros and `ffff`, or `::ffff:`. -/
def mappedQuad (s : JsString) : Option JsString :=
  let long := match s.splitOn (unit ':') with
    | [a, b, c, d, e, f, q] =>
      if [a, b, c, d, e].all (fun z => !z.isEmpty && decide (z.length ≤ 4) && z.all (· == 48)) &&
          f == js "ffff" && isDottedQuad q then some q else none
    | _ => none
  match long with
  | some q => some q
  | none => (afterMappedPrefix s).filter isDottedQuad

/-- `[0-9a-f]{1,4}`, with its value. -/
def hexGroup (s : JsString) : Option ℕ :=
  if s.length ≤ 4 && s.all (fun c => isDigit c || (97 ≤ c && c ≤ 102)) then readBase 16 s else none

/-- The two groups of `::ffff:hhhh:hhhh`. -/
def mappedGroups (s : JsString) : Option (ℕ × ℕ) :=
  match (afterMappedPrefix s).map fun r => r.splitOn (unit ':') with
  | some [h, l] =>
    match hexGroup h, hexGroup l with
    | some hi, some lo => some (hi, lo)
    | _, _ => none
  | _ => none

/-- `0x[0-9a-f]+ | 0[0-7]* | [1-9]\d*`, with its value. -/
def ipNumber (s : JsString) : Option ℕ :=
  match s with
  | [] => none
  | 48 :: c :: ds =>
    if c = unit 'x' then
      if ds.all fun d => isDigit d || (97 ≤ d && d ≤ 102) then readBase 16 ds else none
    else if (c :: ds).all fun d => 48 ≤ d && d ≤ 55 then readBase 8 (48 :: c :: ds) else none
  | s => if s.all isDigit then readBase 10 s else none

/-- Four octets as text. -/
def quadText (a b c d : ℕ) : JsString := join (unit '.') [decText a, decText b, decText c, decText d]

/-- The number of a literal of one to four parts; the bits of the parts do not overlap. -/
def ipValue : List ℕ → Option ℕ
  | [a] => if 0xffffffff < a then none else some a
  | [a, b] => if 0xff < a ∨ 0xffffff < b then none else some (a * 2 ^ 24 + b)
  | [a, b, c] =>
    if 0xff < a ∨ 0xff < b ∨ 0xffff < c then none else some (a * 2 ^ 24 + b * 2 ^ 16 + c)
  | [a, b, c, d] =>
    if 0xff < a ∨ 0xff < b ∨ 0xff < c ∨ 0xff < d then none
    else some (a * 2 ^ 24 + b * 2 ^ 16 + c * 2 ^ 8 + d)
  | _ => none

def normalizeToIPv4 (raw : JsString) : Option JsString :=
  let s := p.toLowerCase (stripBrackets raw)
  match mappedQuad s with
  | some q => some q
  | none =>
    match mappedGroups s with
    | some (hi, lo) => some (quadText (hi / 256) (hi % 256) (lo / 256) (lo % 256))
    | none =>
      match ((s.splitOn (unit '.')).mapM ipNumber).bind ipValue with
      | some n => some (quadText (n / 2 ^ 24 % 256) (n / 2 ^ 16 % 256) (n / 2 ^ 8 % 256) (n % 256))
      | none => none

/-! ### Private ranges -/

/-- `lo <= x && x <= hi` for a number. -/
def between (lo hi : ℕ) (x : JsNumber) : Bool :=
  !JsNumber.lt (some x) (some (JsNumber.ofNat lo)) && !JsNumber.lt (some (JsNumber.ofNat hi)) (some x)

/-- The blocks, by the first three octets. -/
def privateOctets (a b c : JsNumber) : Bool :=
  let is (x : JsNumber) (n : ℕ) : Bool := x = JsNumber.ofNat n
  is a 127 || is a 0 || is a 10 || (is a 172 && between 16 31 b) || (is a 192 && is b 168) ||
    (is a 169 && is b 254) || (is a 100 && between 64 127 b) || (is a 192 && is b 0 && is c 2) ||
    (is a 198 && is b 51 && is c 100) || (is a 203 && is b 0 && is c 113)

def isPrivateIPv4 (ip : JsString) : Bool :=
  match (ip.splitOn (unit '.')).map numberOfText with
  | [some a, some b, some c, some d] =>
    if [a, b, c, d].all (between 0 255) then privateOctets a b c else false
  | _ => false

/-- `^f[cd][0-9a-f]{2}:` -/
def isUniqueLocalText : JsString → Bool
  | f :: cd :: h :: h' :: col :: _ =>
    f == unit 'f' && (cd == unit 'c' || cd == unit 'd') && (digitIn 16 h).isSome &&
      (digitIn 16 h').isSome && col == unit ':'
  | _ => false

/-- The ranges of IPv6; the text is already in lower case. -/
def isPrivateIPv6Bare (bare : JsString) : Bool :=
  if bare = js "::1" then true
  else if startsWith bare (js "fe80:") then true
  else if isUniqueLocalText bare then true
  else
    match normalizeToIPv4 p bare with
    | some mapped => isPrivateIPv4 mapped
    | none => false

/-! ### The two parts of a call -/

/-- What a call does before it waits: it returns, or it looks up a host name. -/
inductive ResolveStart where
  | done (r : SafeResolution)
  | lookup (hostname : JsString)
deriving DecidableEq

abbrev DnsCache := OrdMap JsString DnsCacheEntry

/-- A host name: from the cache if the entry is fresh, else by a lookup. -/
def resolveCached (cache : DnsCache) (hostname : JsString) (now : ℕ) : Except JsError ResolveStart :=
  match cache.get? hostname with
  | none => .ok (.lookup hostname)
  | some e =>
    if now < e.expiresAt then
      match e.isPrivate, e.ip with
      | false, some (c :: ip) => .ok (.done ⟨c :: ip, e.family.getD 0, hostname, false⟩)
      | _, _ => .error FORBIDDEN
    else .ok (.lookup hostname)

def resolveStart (cache : DnsCache) (urlString : JsString) (now : ℕ) : Except JsError ResolveStart :=
  match p.parseUrl urlString with
  | none => .error FORBIDDEN
  | some parsed =>
    if !isHttp parsed.protocol then .error FORBIDDEN
    else match p.decodeURIComponent parsed.hostname with
      | none => .error .native
      | some decoded =>
        if parsed.hostname ≠ decoded then .error FORBIDDEN
        else
          let hostname := p.toLowerCase parsed.hostname
          let bare := stripBrackets hostname
          if isPrivateIPv6Bare p bare then .error FORBIDDEN
          else match normalizeToIPv4 p bare with
            | some normalized =>
              if isPrivateIPv4 normalized then .error FORBIDDEN
              else .ok (.done ⟨normalized, 4, normalized, true⟩)
            | none => resolveCached cache hostname now

/-- The loop over the records: the first address that is not private, and whether one is. -/
structure Scan where
  safe : Option (JsString × ℕ) := none
  anyPrivate : Bool := false

namespace Scan

/-- `!safeIp`. -/
def isUnset (s : Scan) : Bool :=
  match s.safe with
  | some (_ :: _, _) => false
  | _ => true

/-- The record is private by the code's own test. -/
def flags (r : DnsRecord) : Bool :=
  if r.family = 4 then isPrivateIPv4 r.address
  else if r.family = 6 then isPrivateIPv6Bare p (p.toLowerCase r.address)
  else false

def record (s : Scan) (r : DnsRecord) : Scan :=
  if r.family = 4 ∨ r.family = 6 then
    if flags p r then { s with anyPrivate := true }
    else if s.isUnset then { s with safe := some (r.address, r.family) }
    else s
  else s

end Scan

/-- The outcome of a lookup: an answer, an error, or an error of the language itself. -/
inductive LookupResult where
  | records (rs : List DnsRecord)
  | failed
  | typeError

/-- What a call does after its lookup. -/
def resolveAnswer (cache : DnsCache) (hostname : JsString) (result : LookupResult) (now : ℕ) :
    Except JsError SafeResolution × DnsCache :=
  match result with
  | .typeError => (.error .native, cache)
  | .failed => (.error FORBIDDEN, cache.set hostname ⟨true, none, none, now + DNS_NEG_TTL⟩)
  | .records rs =>
    let scan := rs.foldl (Scan.record p) {}
    match scan.anyPrivate, scan.safe with
    | false, some (c :: ip, family) =>
      (.ok ⟨c :: ip, family, hostname, false⟩,
        cache.set hostname ⟨false, some (c :: ip), some family, now + DNS_TTL_MS⟩)
    | _, _ => (.error FORBIDDEN, cache.set hostname ⟨true, none, none, now + DNS_TTL_MS⟩)

end ConsensusNode.Runtime
