import ConsensusNode.Js.Canonical
import ConsensusNode.Js.UrlPath

/-! # Proxy profiles

`runtime/profile-v1.ts`: the execution plan a request may carry. `normalizeProxyProfileV1` checks a value
of unknown shape field by field and returns the plan in canonical form, `assertProxyProfileRequestV1`
checks that a request stays inside it, and `prepareProxyProfileRequestV1` does both and replaces the
control headers of the request by those of the plan. -/

namespace ConsensusNode.Runtime

open Js

variable (p : Platform)

def PROXY_PROFILE_PROTOCOL : JsString := js "consensus.proxy-profile"

def PROXY_PROFILE_VERSION : ℕ := 1

structure ProxyExecutionProfileV1 where
  base_url : JsString
  allowed_methods : List JsString
  allowed_paths : List JsString
  cache_ttl : JsNumber
  verbose : Bool
  node_region : Option JsString
  node_domain : Option JsString
  node_exclude : Option JsString
  direct : Bool
deriving DecidableEq

/-- A field that is left out without a value. -/
def optionalField (k : JsString) : Option JsString → List (JsString × Json)
  | some s => [(k, .str s)]
  | none => []

/-- The fields of a profile object, in the order of the source. -/
def profileFields (f : ProxyExecutionProfileV1) : List (JsString × Json) :=
  [(js "protocol", .str PROXY_PROFILE_PROTOCOL),
    (js "version", .num (JsNumber.ofNat PROXY_PROFILE_VERSION)),
    (js "base_url", .str f.base_url), (js "allowed_methods", .arr (f.allowed_methods.map .str)),
    (js "allowed_paths", .arr (f.allowed_paths.map .str)), (js "cache_ttl", .num f.cache_ttl),
    (js "verbose", .bool f.verbose)] ++
  optionalField (js "node_region") f.node_region ++ optionalField (js "node_domain") f.node_domain ++
  optionalField (js "node_exclude") f.node_exclude ++ [(js "direct", .bool f.direct)]

/-- The profile as a JSON value. -/
def profileJson (f : ProxyExecutionProfileV1) : Json := .obj (profileFields f)

def PROFILE_KEYS : List JsString :=
  [js "protocol", js "version", js "base_url", js "allowed_methods", js "allowed_paths", js "cache_ttl",
    js "verbose", js "node_region", js "node_domain", js "node_exclude", js "direct"]

def METHOD_ORDER : List JsString :=
  [js "GET", js "HEAD", js "POST", js "PUT", js "PATCH", js "DELETE", js "OPTIONS"]

def MAX_PATHS : ℕ := 64

def MAX_CACHE_TTL_SECONDS : ℕ := 3600

def MAX_PREFERENCE_LENGTH : ℕ := 256

def PROFILE_CONTROL_HEADERS : List JsString :=
  [js "x-cache-ttl", js "x-verbose", js "x-node-region", js "x-node-domain", js "x-node-exclude",
    js "x-direct"]

/-- `stableValue` is the same function as `deepSort`. -/
def stableValue : Json → Json := deepSort

/-! ### The fields -/

def normalizePath (value : Json) (field : JsString) : Except JsError JsString :=
  match value with
  | .str s =>
    if !startsWith s [unit '/'] || startsWith s (js "//") || s.contains (unit '\\') then
      .error (.thrown (field ++ js " must be an origin-relative path beginning with /"))
    else
      match p.parseUrlBase s PROFILE_BASE with
      | none => .error .native
      | some u =>
        if u.origin ≠ PROFILE_BASE ∨ u.search ≠ [] ∨ u.hash ≠ [] then
          .error (.thrown (field ++ js " must not contain an origin, query, or fragment"))
        else .ok u.pathname
  | _ => .error (.thrown (field ++ js " must be an origin-relative path beginning with /"))

/-- `optionalBoolean(value, field) ?? fallback`. -/
def optionalBoolean (value : Option Json) (field : JsString) (fallback : Bool) : Except JsError Bool :=
  match value with
  | none => .ok fallback
  | some (.bool b) => .ok b
  | some _ => .error (.thrown (field ++ js " must be a boolean"))

/-- The non-empty trimmed items of a list with commas. -/
def preferenceItems (s : JsString) : List JsString :=
  ((s.splitOn (unit ',')).map trim).filter fun x => !x.isEmpty

def optionalPreference (value : Option Json) (field : JsString) : Except JsError (Option JsString) :=
  match value with
  | none => .ok none
  | some (.str s) =>
    let normalized := join (unit ',') (preferenceItems s)
    if normalized = [] ∨ MAX_PREFERENCE_LENGTH < normalized.length then
      .error (.thrown (field ++ js " must contain 1-256 characters"))
    else .ok (some normalized)
  | some _ => .error (.thrown (field ++ js " must be a string"))

/-- `String(value ?? '')`. -/
def textOrEmpty : Option Json → Except JsError JsString
  | none => .ok []
  | some .null => .ok []
  | some v => toStr v

/-- `base_url`: parsed, checked, and without slashes at the end of its path. -/
def normalizeBase (value : Option Json) : Except JsError JsString :=
  let invalid : JsError := .thrown (js "proxy profile base_url is invalid")
  match textOrEmpty value with
  | .error _ => .error invalid
  | .ok s =>
    match p.parseUrl s with
    | none => .error invalid
    | some base =>
      if !isHttp base.protocol || !base.username.isEmpty || !base.password.isEmpty ||
          !base.search.isEmpty || !base.hash.isEmpty then
        .error (.thrown (js ("proxy profile base_url must be an http(s) URL without " ++
          "credentials, query, or fragment")))
      else
        .ok (p.setPathname base
          (if base.pathname = [unit '/'] then [unit '/'] else stripSlashes base.pathname)).href

def normalizeMethods (value : Option Json) : Except JsError (List JsString) :=
  match value with
  | some (.arr (x :: xs)) => do
    let methodSet ← (x :: xs).mapM fun m => (toStr m).map p.toUpperCase
    if methodSet.any fun m => !METHOD_ORDER.contains m then
      .error (.thrown (js "proxy profile contains an unsupported HTTP method"))
    else .ok (METHOD_ORDER.filter methodSet.contains)
  | _ => .error (.thrown (js "proxy profile allowed_methods must be a non-empty array"))

def normalizePaths (value : Option Json) : Except JsError (List JsString) :=
  let range : JsError := .thrown (js "proxy profile allowed_paths must contain 1-64 entries")
  match value with
  | some (.arr xs) =>
    if xs.length = 0 ∨ MAX_PATHS < xs.length then .error range
    else do
      let paths ← xs.mapM fun x => normalizePath p x (js "proxy profile allowed_paths entry")
      return sortText paths.dedup
  | _ => .error range

def normalizeCacheTtl (value : Option Json) : Except JsError JsNumber :=
  match value with
  | none => .ok (JsNumber.ofNat 300)
  | some v => do
    match ← toNumber v with
    | some x =>
      if x.isInteger && !JsNumber.lt (some x) (some (JsNumber.ofNat 1)) &&
          !JsNumber.lt (some (JsNumber.ofNat MAX_CACHE_TTL_SECONDS)) (some x) then .ok x
      else .error (.thrown (js "proxy profile cache_ttl must be an integer from 1-3600"))
    | none => .error (.thrown (js "proxy profile cache_ttl must be an integer from 1-3600"))

/-- The keys, the protocol and the version. -/
def checkShape (fs : List (JsString × Json)) : Except JsError Unit :=
  match (fs.map Prod.fst).find? fun k => !PROFILE_KEYS.contains k with
  | some k => .error (.thrown (js "unsupported proxy profile field: " ++ k))
  | none => require
      (fs.lookup (js "protocol") = some (.str PROXY_PROFILE_PROTOCOL) ∧
        fs.lookup (js "version") = some (.num (JsNumber.ofNat PROXY_PROFILE_VERSION)))
      (js "unsupported proxy profile protocol/version; expected consensus.proxy-profile@1")

def normalizeProxyProfileV1 (input : Json) : Except JsError ProxyExecutionProfileV1 :=
  match input with
  | .obj value => do
    checkShape value
    let base_url ← normalizeBase p (value.lookup (js "base_url"))
    let allowed_methods ← normalizeMethods p (value.lookup (js "allowed_methods"))
    let allowed_paths ← normalizePaths p (value.lookup (js "allowed_paths"))
    let cache_ttl ← normalizeCacheTtl (value.lookup (js "cache_ttl"))
    let verbose ← optionalBoolean (value.lookup (js "verbose")) (js "proxy profile verbose") false
    let node_region ← optionalPreference (value.lookup (js "node_region"))
      (js "proxy profile node_region")
    let node_domain ← optionalPreference (value.lookup (js "node_domain"))
      (js "proxy profile node_domain")
    let node_exclude ← optionalPreference (value.lookup (js "node_exclude"))
      (js "proxy profile node_exclude")
    let direct ← optionalBoolean (value.lookup (js "direct")) (js "proxy profile direct") true
    return { base_url, allowed_methods, allowed_paths, cache_ttl, verbose, node_region, node_domain,
             node_exclude, direct }
  | _ => .error (.thrown (js "proxy profile must be an object"))

def hashNormalizedProfile (f : ProxyExecutionProfileV1) : JsString :=
  sha256HexText p (stringify (stableValue (profileJson f)))

def hashProxyProfileV1 (input : Json) : Except JsError JsString :=
  (normalizeProxyProfileV1 p input).map (hashNormalizedProfile p)

/-! ### Requests -/

/-- The target stays below one of the allowed paths. -/
def pathAllowed (allowed : List JsString) (relative : JsString) : Bool :=
  allowed.any fun pre => pre == [unit '/'] || relative == pre || startsWith relative (pre ++ [unit '/'])

/-- The checks of a target against a normalized profile. -/
def checkTarget (f : ProxyExecutionProfileV1) (targetUrl method : JsString) : Except JsError Unit := do
  let target ← match p.parseUrl targetUrl with
    | some u => .ok u
    | none => .error (.thrown (js "proxy profile target_url is invalid"))
  let base ← match p.parseUrl f.base_url with
    | some u => .ok u
    | none => .error .native
  require (isHttp target.protocol) (js "proxy profile target must use http(s)")
  require (target.username.isEmpty && target.password.isEmpty && target.hash.isEmpty)
    (js "proxy profile target cannot contain credentials or a fragment")
  require (target.origin == base.origin) (js "proxy profile target is outside its configured origin")
  let basePath := if base.pathname = [unit '/'] then []
    else if base.pathname.getLast? = some (unit '/') then base.pathname.dropLast else base.pathname
  require (basePath.isEmpty || target.pathname == basePath ||
      startsWith target.pathname (basePath ++ [unit '/']))
    (js "proxy profile target is outside its configured base path")
  let rest := target.pathname.drop basePath.length
  let relativePath := if rest = [] then [unit '/'] else rest
  require (pathAllowed f.allowed_paths relativePath) (js "proxy profile target path is not allowed")
  let normalizedMethod := p.toUpperCase method
  require (f.allowed_methods.contains normalizedMethod)
    (js "method " ++ normalizedMethod ++ js " is not allowed by the proxy profile")

def assertProxyProfileRequestV1 (input : Json) (targetUrl method : JsString) :
    Except JsError ProxyExecutionProfileV1 := do
  let profile ← normalizeProxyProfileV1 p input
  checkTarget p profile targetUrl method
  return profile

/-- Headers as a JSON value. -/
def headersJson (hs : List (JsString × JsString)) : Json := .obj (hs.map fun h => (h.1, .str h.2))

/-- A header of the list, if it has a value. -/
def optionalHeader (k : JsString) : Option JsString → List (JsString × JsString)
  | some s => [(k, s)]
  | none => []

def controlHeadersForNormalizedProfile (f : ProxyExecutionProfileV1) : List (JsString × JsString) :=
  [(js "x-cache-ttl", f.cache_ttl.toText)] ++
  (if f.verbose then [(js "x-verbose", js "true")] else []) ++
  optionalHeader (js "x-node-region") f.node_region ++
  optionalHeader (js "x-node-domain") f.node_domain ++
  optionalHeader (js "x-node-exclude") f.node_exclude ++
  (if f.direct then [(js "x-direct", js "true")] else [])

structure PreparedProxyProfileV1 where
  profile : ProxyExecutionProfileV1
  profile_hash : JsString
  headers : List (JsString × JsString)
deriving DecidableEq

/-- The entry is no control header of a profile. -/
def isRequestHeader (key : JsString) : Bool := !PROFILE_CONTROL_HEADERS.contains (p.toLowerCase key)

/-- The request's own headers, their values as strings. -/
def requestHeaders (headers : Json) : Except JsError (List (JsString × JsString)) := do
  let entries ← objectEntries headers
  let kept ← (entries.filter fun e => isRequestHeader p e.1).mapM fun e =>
    (toStr e.2).map fun s => (e.1, s)
  return fromEntries kept

def prepareProxyProfileRequestV1 (input : Json) (targetUrl method : JsString) (headers : Option Json) :
    Except JsError PreparedProxyProfileV1 := do
  let profile ← assertProxyProfileRequestV1 p input targetUrl method
  let own ← requestHeaders p (headers.getD (.obj []))
  return {
    profile
    profile_hash := hashNormalizedProfile p profile
    headers := (controlHeadersForNormalizedProfile profile).foldl
      (fun hs e => setField hs e.1 e.2) own }

end ConsensusNode.Runtime
