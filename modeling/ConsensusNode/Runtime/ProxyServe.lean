import ConsensusNode.Runtime.Dedupe
import ConsensusNode.Runtime.ProfileV1
import ConsensusNode.Runtime.Ssrf

/-! # Serving a request

`runtime/proxy-serve.ts`. A call of `serveProxyRequest` has three parts with a wait between them:
`planRequest` is what it does before the SSRF check (profile, forwarded headers, cache key),
`upstreamRequest` what it builds from the checked address, and `ProxyResult.ofResponse` what it makes of
the answer. The calls of a process share one cache, so the calls are events of one machine
(`ProxyServer.step`); the SSRF check and the upstream are whatever the events say. -/

namespace ConsensusNode.Runtime

open Js

variable (p : Platform)

structure ProxyServeRequest where
  target_url : JsString
  method : Option JsString := none
  headers : Option Json := none
  body : Option RequestBody := none
  profile : Option Json := none
deriving DecidableEq

structure ProxyResult where
  status : ℕ
  statusText : JsString
  headers : List (JsString × JsString)
  body : Bytes
  cached : Bool
  profile_hash : Option JsString
deriving DecidableEq

/-! ### The cache -/

def MAX_PROFILE_CACHE_ENTRIES : ℕ := 1000

structure ProfileCacheEntry where
  value : ProxyResult
  expiresAt : ℕ

abbrev ProfileCache := OrdMap JsString ProfileCacheEntry

/-- The answer from the cache, and the cache without an entry that has run out. -/
def cachedProfileResult (cache : ProfileCache) (key : JsString) (now : ℕ) :
    Option ProxyResult × ProfileCache :=
  match cache.get? key with
  | none => (none, cache)
  | some e =>
    if e.expiresAt ≤ now then (none, cache.delete key)
    else (some { e.value with cached := true }, cache)

/-- The oldest key goes if the cache is full (an empty key would not). -/
def evictOldest (cache : ProfileCache) : ProfileCache :=
  if MAX_PROFILE_CACHE_ENTRIES ≤ cache.size then
    match cache.oldest? with
    | some (c :: k) => cache.delete (c :: k)
    | _ => cache
  else cache

def storeProfileResult (cache : ProfileCache) (key : JsString) (value : ProxyResult)
    (ttlSeconds now : ℕ) : ProfileCache :=
  (evictOldest cache).set key ⟨{ value with cached := false }, now + ttlSeconds * 1000⟩

/-! ### Headers -/

def HOP_BY_HOP : List JsString :=
  [js "host", js "connection", js "keep-alive", js "proxy-connection", js "transfer-encoding", js "te",
    js "trailer", js "upgrade"]

def CONSENSUS_CONTROL_HEADERS : List JsString :=
  [js "host", js "content-length", js "transfer-encoding", js "connection", js "x-idempotency-key",
    js "idempotency-key", js "x-payment", js "x-verbose", js "x-api-key", js "x-cache-ttl", js "x-direct",
    js "x-node-region", js "x-node-domain", js "x-node-exclude", js "x-forwarded-for", js "x-real-ip",
    js "forwarded"]

def CACHEABLE_METHODS : List JsString := [js "GET", js "HEAD"]

/-- The names that a `Connection` header lists. -/
def connectionTokens (value : JsString) : List JsString :=
  ((value.splitOn (unit ',')).map fun token => p.toLowerCase (trim token)).filter fun n => !n.isEmpty

def buildHopByHopDenySet (entries : List (JsString × Json)) : Except JsError (List JsString) :=
  entries.foldlM (fun deny e =>
    if p.toLowerCase e.1 ≠ js "connection" then .ok deny
    else match e.2 with
      | .str value => .ok (deny ++ connectionTokens p value)
      | _ => .error .native) HOP_BY_HOP

/-- The header goes upstream. -/
def isForwarded (deny : List JsString) (lower : JsString) : Bool :=
  !(deny.contains lower || CONSENSUS_CONTROL_HEADERS.contains lower)

/-- The headers that are forwarded, with names in lower case and sorted by them. -/
def forwardedHeaderEntries (effectiveHeaders : Json) : Except JsError (List (JsString × Json)) := do
  let entries ← objectEntries effectiveHeaders
  let deny ← buildHopByHopDenySet p entries
  return sortEntries ((entries.map fun e => (p.toLowerCase e.1, e.2)).filter fun e =>
    isForwarded deny e.1)

/-- The list of pairs as a JSON array. -/
def pairsJson (forwarded : List (JsString × Json)) : Json :=
  .arr (forwarded.map fun e => .arr [.str e.1, e.2])

def profileCacheKey (dedupeKey : JsString) (forwarded : List (JsString × Json)) : JsString :=
  sha256HexText p (dedupeKey ++ unit '\n' :: stableStringify (pairsJson forwarded))

/-! ### Before the check -/

/-- What a call knows when it waits for the SSRF check. -/
structure ProxyPlan where
  method : JsString
  profile : Option ProxyExecutionProfileV1
  profileHash : Option JsString
  forwarded : List (JsString × Json)
  cacheKey : Option JsString
deriving DecidableEq

/-- `(request.method ?? "GET").toUpperCase()`. -/
def upperMethod (r : ProxyServeRequest) : JsString := p.toUpperCase (r.method.getD (js "GET"))

/-- `request.profile ? prepareProxyProfileRequestV1(…) : undefined`. -/
def prepareRequest (r : ProxyServeRequest) : Except JsError (Option PreparedProxyProfileV1) :=
  match r.profile with
  | some input =>
    if Json.truthy (some input) then
      (prepareProxyProfileRequestV1 p input r.target_url (upperMethod p r) r.headers).map some
    else .ok none
  | none => .ok none

/-- `prepared?.headers ?? request.headers ?? {}`. -/
def effectiveHeaders (r : ProxyServeRequest) (prepared : Option PreparedProxyProfileV1) : Json :=
  match prepared, r.headers with
  | some q, _ => headersJson q.headers
  | none, some .null => .obj []
  | none, some h => h
  | none, none => .obj []

/-- The cache key of a request with a profile and a cacheable method. -/
def requestCacheKey (r : ProxyServeRequest) (prepared : Option PreparedProxyProfileV1)
    (forwarded : List (JsString × Json)) : Except JsError (Option JsString) :=
  match prepared with
  | none => .ok none
  | some q =>
    if Json.truthy (some (.num q.profile.cache_ttl)) && CACHEABLE_METHODS.contains (upperMethod p r) then do
      let dedupeKey ← generateDedupeKey p {
        target_url := r.target_url, method := upperMethod p r, headers := some (effectiveHeaders r prepared),
        body := r.body, profile_hash := some q.profile_hash }
      return some (profileCacheKey p dedupeKey forwarded)
    else .ok none

def planRequest (r : ProxyServeRequest) : Except JsError ProxyPlan := do
  let prepared ← prepareRequest p r
  let forwarded ← forwardedHeaderEntries p (effectiveHeaders r prepared)
  let cacheKey ← requestCacheKey p r prepared forwarded
  return {
    method := upperMethod p r
    profile := prepared.map PreparedProxyProfileV1.profile
    profileHash := prepared.map PreparedProxyProfileV1.profile_hash
    forwarded, cacheKey }

/-! ### After the check -/

/-- A character of a header name. -/
def isTokenUnit (c : UInt16) : Bool :=
  isDigit c || (65 ≤ c && c ≤ 90) || (97 ≤ c && c ≤ 122) || (js "!#$%&'*+-.^_|~").contains c || c = 96

/-- The white space around a header value. -/
def isHttpSpace (c : UInt16) : Bool := c = 9 || c = 10 || c = 13 || c = 32

def trimHttpSpace (s : JsString) : JsString :=
  ((s.dropWhile isHttpSpace).reverse.dropWhile isHttpSpace).reverse

/-- `headers.set(name, value)`: a name that is no token, or a value that is no byte string on one line,
throws. -/
def headersSet (headers : OrdMap JsString JsString) (name : JsString) (value : Json) :
    Except JsError (OrdMap JsString JsString) := do
  let text ← toStr value
  let text := trimHttpSpace text
  if name = [] ∨ name.any (fun c => !isTokenUnit c) ∨
      text.any (fun c => 255 < c || c = 0 || c = 10 || c = 13) then .error .native
  else return headers.set (asciiLower name) text

/-- The call of `fetch`; redirects are never followed. -/
structure UpstreamRequest where
  url : JsString
  method : JsString
  headers : OrdMap JsString JsString
  body : Option RequestBody
  /-- The name the certificate is checked against, for https. -/
  serverName : Option JsString
deriving DecidableEq

/-- The URL with the checked address as its host. -/
def pinHost (url : Url) (res : SafeResolution) : Url :=
  p.setHostname url (if res.family = 6 then unit '[' :: res.ip ++ [unit ']'] else res.ip)

def upstreamRequest (r : ProxyServeRequest) (plan : ProxyPlan) (res : SafeResolution) :
    Except JsError UpstreamRequest := do
  let url ← match p.parseUrl r.target_url with
    | some u => .ok u
    | none => .error .native
  let headers ← plan.forwarded.foldlM (fun hs e => headersSet hs e.1 e.2) ∅
  let headers ← headersSet headers (js "host") (.str url.host)
  let headers ← if headers.has (js "user-agent") then .ok headers
    else headersSet headers (js "user-agent") (.str (js "Consensus-Node/0.1"))
  return {
    url := (pinHost p url res).href
    method := plan.method
    headers := headers
    body := if CACHEABLE_METHODS.contains plan.method then none else r.body
    serverName := if url.protocol = js "https:" then some url.hostname else none }

/-- What the upstream answers, with its body. -/
structure UpstreamResponse where
  status : ℕ
  statusText : JsString
  headers : List (JsString × JsString)
  body : Bytes

def ProxyResult.ofResponse (plan : ProxyPlan) (resp : UpstreamResponse) : ProxyResult where
  status := resp.status
  statusText := resp.statusText
  headers := fromEntries resp.headers
  body := resp.body
  cached := false
  profile_hash := plan.profileHash.filter fun h => !h.isEmpty

/-- The seconds an answer may be kept: `cache_ttl` of a profile, which is a positive integer. -/
def ttlSeconds (f : ProxyExecutionProfileV1) : ℕ :=
  match f.cache_ttl with
  | .fin q _ => q.num.toNat
  | _ => 0

/-- The key and the time under which an answer is stored. -/
def storeUnder (plan : ProxyPlan) (result : ProxyResult) : Option (JsString × ℕ) :=
  match plan.cacheKey, plan.profile with
  | some (c :: k), some f =>
    if Json.truthy (some (.num f.cache_ttl)) ∧ 200 ≤ result.status ∧ result.status < 300 then
      some (c :: k, ttlSeconds f)
    else none
  | _, _ => none

/-! ### All calls of a process -/

/-- What a call waits for. -/
inductive ProxyStage where
  | checking (r : ProxyServeRequest) (plan : ProxyPlan)
  | fetching (r : ProxyServeRequest) (plan : ProxyPlan)

/-- What has happened, in order. -/
inductive ProxyRecord where
  | passed (id : ℕ) (res : SafeResolution)
  | fetched (id : ℕ) (up : UpstreamRequest)
  | stored (id : ℕ) (value : ProxyResult)
  | answered (id : ℕ) (result : ProxyResult)
  | rejected (id : ℕ)
deriving DecidableEq

structure ProxyServer where
  cache : ProfileCache := ∅
  pending : OrdMap ℕ ProxyStage := ∅
  /-- Every call so far. -/
  calls : OrdMap ℕ ProxyServeRequest := ∅
  history : List ProxyRecord := []

inductive ProxyEvent where
  /-- A new call, with its own number. -/
  | call (id : ℕ) (r : ProxyServeRequest) (now : ℕ)
  /-- The SSRF check of a call ends; `none` is its exception. -/
  | checked (id : ℕ) (res : Option SafeResolution)
  /-- `fetch` and the body end; `none` is an exception or the timeout. -/
  | responded (id : ℕ) (resp : Option UpstreamResponse) (now : ℕ)
  /-- `clearProxyProfileCache`. -/
  | clear

namespace ProxyServer

/-- The part of a call before its check; an empty key counts as none. -/
def start (s : ProxyServer) (id : ℕ) (r : ProxyServeRequest) (plan : ProxyPlan) (now : ℕ) :
    ProxyServer :=
  match plan.cacheKey with
  | some (c :: k) =>
    match cachedProfileResult s.cache (c :: k) now with
    | (some result, cache) => { s with cache, history := s.history ++ [.answered id result] }
    | (none, cache) => { s with cache, pending := s.pending.set id (.checking r plan) }
  | _ => { s with pending := s.pending.set id (.checking r plan) }

/-- The call ends with an exception. -/
def reject (s : ProxyServer) (id : ℕ) : ProxyServer :=
  { s with pending := s.pending.delete id, history := s.history ++ [.rejected id] }

/-- The check of a call has passed. -/
def continueFetch (s : ProxyServer) (id : ℕ) (r : ProxyServeRequest) (plan : ProxyPlan)
    (res : SafeResolution) : ProxyServer :=
  let s : ProxyServer := { s with history := s.history ++ [.passed id res] }
  match upstreamRequest p r plan res with
  | .error _ => s.reject id
  | .ok up =>
    { s with pending := s.pending.set id (.fetching r plan), history := s.history ++ [.fetched id up] }

/-- The answer of the upstream is there. -/
def finish (s : ProxyServer) (id : ℕ) (plan : ProxyPlan) (resp : UpstreamResponse) (now : ℕ) :
    ProxyServer :=
  let result := ProxyResult.ofResponse plan resp
  let s : ProxyServer := match storeUnder plan result with
    | some (key, ttl) =>
      { s with cache := storeProfileResult s.cache key result ttl now,
               history := s.history ++ [.stored id result] }
    | none => s
  { s with pending := s.pending.delete id, history := s.history ++ [.answered id result] }

def step (s : ProxyServer) : ProxyEvent → ProxyServer
  | .call id r now =>
    if s.calls.has id then s
    else
      let s : ProxyServer := { s with calls := s.calls.set id r }
      match planRequest p r with
      | .error _ => s.reject id
      | .ok plan => s.start id r plan now
  | .checked id res =>
    match s.pending.get? id, res with
    | some (.checking r plan), some res => s.continueFetch p id r plan res
    | some (.checking _ _), none => s.reject id
    | _, _ => s
  | .responded id resp now =>
    match s.pending.get? id, resp with
    | some (.fetching _ plan), some resp => s.finish id plan resp now
    | some (.fetching _ _), none => s.reject id
    | _, _ => s
  | .clear => { s with cache := ∅ }

end ProxyServer

end ConsensusNode.Runtime
