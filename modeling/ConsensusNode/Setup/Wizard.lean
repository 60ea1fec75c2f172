import ConsensusNode.Clients.ControlUpdate
import ConsensusNode.Js.Path
import ConsensusNode.Js.Value
import ConsensusNode.Lib.SharedRecord
import Mathlib.Data.Fintype.Defs

/-! # The setup wizard

The request handlers of `setup-wizard.ts` that take the setup from stage to stage, and what runs when a wallet
session is done, as programs that share a record, the setup progress. A handler loads the whole progress when it
starts; what it waits for (the server, child processes, other files) it asks for. Saving and loading are one step
each. Of a response the error, the progress in it or what the server has answered is kept.

* `WizardOperation.prog`: the programs.
* `extends_prog`: each of them saves the progress that it has loaded or saved last, with its patch. -/

namespace ConsensusNode.Setup

open Js Clients Lib.SharedRecord RecordProg

def AGREEMENT_VERSION : JsString := js "node-operator-good-faith-v2"

def DEFAULT_SERVER_URL : JsString := js "https://consensus.canister.software"

/-! ### The progress -/

inductive SetupField where
  | serverUrl | installDir | installedVersion | publicIpv4 | publicIpv6 | region | evalPassedAt | contact
  | emailVerificationToken | emailVerificationExpiresAt | evmAddress | solanaAddress | icpAddress | port
  | operatorAgreementAccepted | operatorAgreementAcceptedAt | operatorAgreementSignature | operatorAgreementVersion
deriving DecidableEq

def SetupField.all : List SetupField := [serverUrl, installDir, installedVersion, publicIpv4, publicIpv6, region,
  evalPassedAt, contact, emailVerificationToken, emailVerificationExpiresAt, evmAddress, solanaAddress, icpAddress,
  port, operatorAgreementAccepted, operatorAgreementAcceptedAt, operatorAgreementSignature, operatorAgreementVersion]

instance : Fintype SetupField where
  elems := SetupField.all.toFinset
  complete f := by cases f <;> decide

/-- The fields with their values; `none` is `undefined`. -/
abbrev SetupProgress := SetupField → Option Json

abbrev SetupPatch := SetupField → Option (Option Json)

/-- `{ key: value, … }` -/
def patchOf (values : List (SetupField × Option Json)) : SetupPatch := fun f => values.lookup f

/-- A field that holds a text. -/
def text (progress : SetupProgress) (f : SetupField) : Option JsString :=
  match progress f with
  | some (.str s) => some s
  | _ => none

def serverUrlOf (progress : SetupProgress) : JsString := (text progress .serverUrl).getD DEFAULT_SERVER_URL

/-! ### What the handlers wait for -/

/-- The environment of the wizard. -/
structure WizardEnv where
  TEST_FLOW : Bool
  homedir : JsString
  /-- `process.platform` and `process.arch` with a dash. -/
  platform : JsString

structure WalletAddresses where
  evmAddress : Option JsString
  solanaAddress : Option JsString
  icpAddress : Option JsString

/-- How a child process ends. -/
structure CommandResult where
  ok : Bool
  output : JsString

inductive WizardReply where
  | error (status : ℕ) (message : JsString)
  | success (mode : Option JsString) (progress : SetupProgress)
  | verification (body : Json)

inductive WizardAsk where
  | fetchRequiredManifest (serverUrl : JsString)
  | pathExists (target : JsString)
  | downloadAndVerify (manifest : ReleaseManifest)
  /-- `scripts/install-release.sh` with its three variables. -/
  | installRelease (installDir artifactPath targetVersion : JsString)
  | detectPublicIpv4
  | detectPublicIpv6
  | fetchRegion (serverUrl ipv4 : JsString)
  /-- Its `expires_at`, as the number that it is compared as. -/
  | loadJoinAuthorization
  /-- `bun run eval` in the directory. -/
  | runEval (serverUrl currentDir : JsString)
  | startEmail (serverUrl email : JsString)
  | verifyEmail (serverUrl email verificationId code : JsString)
  | startWalletAddressServer (initialAddresses : WalletAddresses)
  /-- What `registerNodeFromWizard` does after its save. -/
  | finishRegistration (progress : SetupProgress) (port : ℕ) (startPm2 : Bool)

/-- The answers; an error is what was thrown. -/
@[reducible] def WizardAsk.Answer : WizardAsk → Type
  | .fetchRequiredManifest _ => Except JsString ReleaseManifest
  | .pathExists _ => Bool
  | .downloadAndVerify _ => Except JsString Downloaded
  | .installRelease _ _ _ => CommandResult
  | .detectPublicIpv4 => Except JsString JsString
  | .detectPublicIpv6 => Option JsString
  | .fetchRegion _ _ => Option Json
  | .loadJoinAuthorization => Option JsNumber
  | .runEval _ _ => CommandResult
  | .startEmail _ _ => Except JsString Json
  | .verifyEmail _ _ _ _ => Except JsString (Option Json × Option Json)
  | .startWalletAddressServer _ => Except JsString JsString
  | .finishRegistration _ _ _ => WizardReply

abbrev WizardProg := RecordProg SetupField (Option Json) WizardAsk WizardAsk.Answer JsString

def ask (q : WizardAsk) : WizardProg q.Answer := answer q

/-- An answer, or the exception. -/
def orThrow {α : Type} : Except JsString α → WizardProg α
  | .ok a => .ret a
  | .error e => .thrown e

/-- `value || fallback` -/
def orText (value fallback : JsString) : JsString := if value = [] then fallback else value

/-! ### The checks before a handler -/

def isCurrentAgreementAccepted (progress : SetupProgress) : Bool :=
  progress .operatorAgreementAccepted == some (.bool true) &&
    progress .operatorAgreementVersion == some (.str AGREEMENT_VERSION)

def connectionReady (progress : SetupProgress) : Option WizardReply :=
  if !isCurrentAgreementAccepted progress then some (.error 409 (js "Operator agreement must be accepted first"))
  else if !Json.truthy (progress .installDir) then some (.error 409 (js "Runtime directory must be selected first"))
  else none

def installReady (env : WizardEnv) (progress : SetupProgress) : Option WizardReply :=
  (connectionReady progress).or <|
    if !env.TEST_FLOW && !Json.truthy (progress .installedVersion) then
      some (.error 409 (js "Runtime must be installed first"))
    else none

def registrationReady (env : WizardEnv) (progress : SetupProgress) : Option WizardReply :=
  (installReady env progress).or <|
    if !Json.truthy (progress .evalPassedAt) then some (.error 409 (js "Network evaluation must pass first")) else none

/-! ### Request bodies -/

/-- A text of the body, trimmed; empty if there is none. -/
def bodyText (input : Json) (k : JsString) : JsString :=
  match input.field? k with
  | some (.str s) => trim s
  | _ => []

/-- `record[k] === true` -/
def bodyFlag (input : Json) (k : JsString) : Bool := input.field? k == some (.bool true)

/-- `record.mode === mode` -/
def bodyMode (input : Json) (mode : JsString) : Bool := input.field? (js "mode") == some (.str mode)

def normalizeInstallDir (env : WizardEnv) (value : JsString) : Option JsString :=
  let trimmed := trim value
  if trimmed = [] then none
  else if trimmed = js "~" then some env.homedir
  else if startsWith trimmed (js "~/") then some (joinPath env.homedir (trimmed.drop 2))
  else if startsWith trimmed [unit '/'] then some (normalizePath trimmed)
  else none

def normalizePort (value : JsString) : Option ℕ :=
  match numberOfText (if value = [] then js "9090" else value) with
  | some (.fin q _) => if q.den = 1 ∧ 1 ≤ q ∧ q ≤ 65535 then some q.num.toNat else none
  | _ => none

/-- A text with one `@`, no white space, something before it, and a dot inside what stands behind it. -/
def isValidEmail (value : JsString) : Bool :=
  match value.splitOn (unit '@') with
  | [name, domain] => !name.isEmpty && !value.any isSpace && (domain.drop 1).dropLast.contains (unit '.')
  | _ => false

/-! ### Handlers -/

variable (env : WizardEnv)

/-- `acceptedAt` is the time. -/
def recordOperatorAgreement (input : Json) (acceptedAt : JsString) : WizardProg WizardReply := do
  let progress ← current
  if !bodyFlag input (js "agreementReviewed") then
    return .error 422 (js "Review and accept the Operator Agreement before signing")
  else if !bodyFlag input (js "accepted") then
    return .error 422 (js "Agreement checkbox is required")
  else if (bodyText input (js "signature")).length < 2 then
    return .error 422 (js "Electronic signature is required")
  else if bodyText input (js "confirmation") ≠ js "I AGREE" then
    return .error 422 (js "Typed confirmation must match I AGREE")
  else do
    let next ← remember progress (patchOf [(.operatorAgreementAccepted, some (.bool true)),
      (.operatorAgreementAcceptedAt, some (.str acceptedAt)),
      (.operatorAgreementSignature, some (.str (bodyText input (js "signature")))),
      (.operatorAgreementVersion, some (.str AGREEMENT_VERSION))])
    return .success none next

def recordConnection (input : Json) : WizardProg WizardReply := do
  let progress ← current
  if !isCurrentAgreementAccepted progress then
    return .error 409 (js "Operator agreement must be accepted first")
  else match normalizeInstallDir env (bodyText input (js "installDir")) with
    | none | some [] => return .error 422 (js "Enter an absolute or ~-relative runtime directory")
    | some installDir => do
      let next ← remember progress
        (patchOf [(.serverUrl, some (.str DEFAULT_SERVER_URL)), (.installDir, some (.str installDir))])
      return .success none next

def testReleaseManifest : ReleaseManifest where
  version := js "0.1.0-alpha.9-test"
  platform := env.platform
  commit := js "local-test-flow"
  routesHash := js "local-test-flow"
  downloadUrl := some (js "local-test-flow://consensus-node")
  tarballSha256 := some (js "sha256:local-test-flow")

def setupManifest (progress : SetupProgress) : WizardProg ReleaseManifest := do
  if env.TEST_FLOW then return testReleaseManifest env
  else
    let manifest : Except JsString ReleaseManifest ← ask (.fetchRequiredManifest (serverUrlOf progress))
    orThrow manifest

/-- `path.join(installDir, "current")` -/
def currentDir (installDir : JsString) : JsString := joinPath installDir (js "current")

def canReuseRuntime (progress : SetupProgress) (manifest : ReleaseManifest) : WizardProg Bool := do
  if !Json.truthy (progress .installDir) then return false
  else if text progress .installedVersion = some manifest.version then do
    let present : Bool ← ask (.pathExists (currentDir ((text progress .installDir).getD [])))
    return present
  else return false

def rememberRuntimeInstall (progress : SetupProgress) (installedVersion : JsString) : WizardProg SetupProgress :=
  remember progress (patchOf [(.installedVersion, some (.str installedVersion))])

def installRuntime (input : Json) : WizardProg WizardReply := do
  let progress ← current
  match connectionReady progress with
  | some notReady => return notReady
  | none => do
    let manifest ← setupManifest env progress
    let canReuse ← canReuseRuntime progress manifest
    if bodyMode input (js "reuse") then
      if !canReuse then return .error 409 (js "No matching runtime install is available to reuse")
      else do
        let next ← rememberRuntimeInstall progress manifest.version
        return .success (some (js "reuse")) next
    else if env.TEST_FLOW then do
      let next ← rememberRuntimeInstall progress manifest.version
      return .success (some (js "test-install")) next
    else do
      let downloaded : Except JsString Downloaded ← ask (.downloadAndVerify manifest)
      let artifact ← orThrow downloaded
      let result : CommandResult ← ask
        (.installRelease ((text progress .installDir).getD []) artifact.path manifest.version)
      if !result.ok then
        return .error 500 (orText result.output (js "Runtime installation failed"))
      else do
        let next ← rememberRuntimeInstall progress manifest.version
        return .success (some (js "install")) next

/-- `rememberNetworkProgress` and `rememberRegistrationProgress`. -/
def rememberProgress (progress : SetupProgress) (patch : List (SetupField × Option Json)) : WizardProg SetupProgress :=
  remember progress (patchOf patch)

/-- `now` is the time when the handler reads it, as text and in seconds. -/
def runNetworkEval (input : Json) (now : JsString) (nowSeconds : ℕ) : WizardProg WizardReply := do
  let progress ← current
  match installReady env progress with
  | some notReady => return notReady
  | none =>
    if bodyMode input (js "test") then
      if !env.TEST_FLOW then return .error 403 (js "Local test flow is not enabled")
      else do
        let next ← rememberProgress progress [(.publicIpv4, some (.str (js "203.0.113.42"))),
          (.publicIpv6, some .null),
          (.region, some (.obj [(js "region", .str (js "local-test")), (js "city", .str (js "Local Test")),
            (js "country_code", .str (js "US"))])),
          (.evalPassedAt, some (.str now))]
        return .success (some (js "test")) next
    else do
      let detected : Except JsString JsString ← ask .detectPublicIpv4
      let publicIpv4 ← orThrow detected
      let next ← rememberProgress progress [(.publicIpv4, some (.str publicIpv4))]
      let publicIpv6 : Option JsString ← ask .detectPublicIpv6
      let next ← rememberProgress next [(.publicIpv6, some ((publicIpv6.map Json.str).getD .null))]
      let region : Option Json ← ask (.fetchRegion (serverUrlOf next) publicIpv4)
      let next ← rememberProgress next [(.region, some (region.getD .null))]
      let expiresAt : Option JsNumber ← ask .loadJoinAuthorization
      if expiresAt.any fun x => (JsNumber.ofNat (nowSeconds + 60)).val < x.val then do
        let next ← rememberProgress next [(.evalPassedAt, some (.str now))]
        return .success (some (js "reuse-join-auth")) next
      else do
        let dir := currentDir ((text next .installDir).getD [])
        let installed : Bool ← ask (.pathExists dir)
        if !installed then return .error 409 (js "Installed runtime not found at " ++ dir)
        else do
          let result : CommandResult ← ask (.runEval (serverUrlOf next) dir)
          if !result.ok then
            return .error 500 (orText result.output (js "Benchmark evaluation failed"))
          else do
            let next ← rememberProgress next [(.evalPassedAt, some (.str now))]
            return .success (some (js "real")) next

/-- It saves nothing. -/
def startEmailVerification (input : Json) (nowSeconds : ℕ) : WizardProg WizardReply := do
  let progress ← current
  match registrationReady env progress with
  | some notReady => return notReady
  | none =>
    let email := bodyText input (js "email")
    if !isValidEmail email then return .error 422 (js "Enter a valid contact email")
    else if env.TEST_FLOW then
      return .verification (.obj [(js "verification_id", .str (js "local-test-email")),
        (js "expires_at", .num (JsNumber.ofNat (nowSeconds + 900))), (js "dev_code", .str (js "123456")),
        (js "testFlow", .bool true)])
    else do
      let posted : Except JsString Json ← ask (.startEmail (serverUrlOf progress) email)
      let body ← orThrow posted
      return .verification body

/-- The token and when it expires, from the server or from the local test flow. -/
def verifiedEmail (progress : SetupProgress) (email verificationId code : JsString) (nowSeconds : ℕ) :
    WizardProg (Option Json × Option Json) := do
  if env.TEST_FLOW then
    return (some (.str (js "local-test-email-token")), some (.num (JsNumber.ofNat (nowSeconds + 3600))))
  else
    let posted : Except JsString (Option Json × Option Json) ←
      ask (.verifyEmail (serverUrlOf progress) email verificationId code)
    orThrow posted

def verifyEmailCode (input : Json) (nowSeconds : ℕ) : WizardProg WizardReply := do
  let progress ← current
  match registrationReady env progress with
  | some notReady => return notReady
  | none =>
    let email := bodyText input (js "email")
    let verificationId := bodyText input (js "verificationId")
    let code := bodyText input (js "code")
    if !isValidEmail email then return .error 422 (js "Enter a valid contact email")
    else if verificationId = [] then return .error 422 (js "Verification session is missing")
    else if code = [] then return .error 422 (js "Enter the email verification code")
    else do
      let verified ← verifiedEmail env progress email verificationId code nowSeconds
      let next ← rememberProgress progress [(.contact, some (.str email)), (.emailVerificationToken, verified.1),
        (.emailVerificationExpiresAt, verified.2)]
      return .success none next

def currentWalletAddresses (progress : SetupProgress) : WalletAddresses :=
  ⟨text progress .evmAddress, text progress .solanaAddress, text progress .icpAddress⟩

def testWalletAddresses : WalletAddresses :=
  ⟨some (js "0x0000000000000000000000000000000000000000"), some (js "11111111111111111111111111111111"),
    some (js "aaaaa-aa")⟩

/-- The fields of the addresses. -/
def WalletAddresses.fields (addresses : WalletAddresses) : List (SetupField × Option Json) :=
  [(.evmAddress, addresses.evmAddress.map .str), (.solanaAddress, addresses.solanaAddress.map .str),
    (.icpAddress, addresses.icpAddress.map .str)]

/-- Without the local test flow it saves nothing. -/
def startWalletSession : WizardProg WizardReply := do
  let progress ← current
  match registrationReady env progress with
  | some notReady => return notReady
  | none =>
    if env.TEST_FLOW then do
      let next ← rememberProgress progress testWalletAddresses.fields
      return .success none next
    else do
      let started : Except JsString JsString ← ask (.startWalletAddressServer (currentWalletAddresses progress))
      let _ ← orThrow started
      return .success none progress

def mergeWalletAddresses (base patch : WalletAddresses) : WalletAddresses :=
  ⟨patch.evmAddress.or base.evmAddress, patch.solanaAddress.or base.solanaAddress,
    patch.icpAddress.or base.icpAddress⟩

/-- What runs when `session.done` resolves with the addresses, if the session is still there. -/
def walletSessionDone (addresses : WalletAddresses) : WizardProg WizardReply := do
  let latest ← current
  let merged := mergeWalletAddresses (currentWalletAddresses latest) addresses
  let next ← rememberProgress latest merged.fields
  return .success none next

/-! ### Registration -/

def inRange (lo hi : Char) (c : UInt16) : Bool := unit lo ≤ c && c ≤ unit hi

def isValidEvmAddress (value : JsString) : Bool :=
  startsWith value (js "0x") && value.length == 42 &&
    (value.drop 2).all fun c => inRange 'a' 'f' c || inRange 'A' 'F' c || inRange '0' '9' c

def isValidSolanaAddress (value : JsString) : Bool :=
  32 ≤ value.length && value.length ≤ 44 && value.all fun c => inRange '1' '9' c || inRange 'A' 'H' c ||
    inRange 'J' 'N' c || inRange 'P' 'Z' c || inRange 'a' 'k' c || inRange 'm' 'z' c

def isValidIcpAddress (value : JsString) : Bool :=
  let groups := value.splitOn (unit '-')
  2 ≤ groups.length && groups.all fun g =>
    1 ≤ g.length && g.length ≤ 5 && g.all fun c => inRange 'a' 'z' c || inRange '0' '9' c

/-- The texts of `validateWalletAddresses`. -/
def validateWalletAddresses (addresses : WalletAddresses) : List JsString :=
  let check (address : Option JsString) (valid : JsString → Bool) (message : JsString) : List JsString :=
    match address with
    | some (c :: s) => if valid (c :: s) then [] else [message]
    | _ => []
  check addresses.evmAddress isValidEvmAddress (js "EVM address must be 0x followed by 40 hex characters") ++
  check addresses.solanaAddress isValidSolanaAddress (js "Solana address must be a base58 public key") ++
  check addresses.icpAddress isValidIcpAddress (js "ICP address must be a textual principal")

/-- `v > n` compares `v` as a number; the exception is that of an object with a `toString` of its own. -/
def exceeds (v : Json) (n : JsNumber) : Except JsString Bool :=
  match toNumber v with
  | .ok x => .ok (x.any fun x => n.val < x.val)
  | .error _ => .error (js "No default value")

/-- The token is there and good for another minute. -/
def emailValid (progress : SetupProgress) (nowSeconds : ℕ) : Except JsString Bool :=
  match progress .emailVerificationExpiresAt with
  | some v =>
    if Json.truthy (progress .contact) && Json.truthy (progress .emailVerificationToken) && Json.truthy (some v) then
      exceeds v (JsNumber.ofNat (nowSeconds + 60))
    else .ok false
  | none => .ok false

/-- The texts of the checks that have failed, after that of the address. -/
def validationErrors (progress : SetupProgress) (emailValid : Bool) : List JsString :=
  let require (b : Bool) (message : JsString) : List JsString := if b then [] else [message]
  require emailValid (js "Contact email must be verified") ++
  require (Json.truthy (progress .publicIpv4)) (js "Public IPv4 must be detected") ++
  require (Json.truthy (progress .evalPassedAt)) (js "Network evaluation must pass") ++
  require (Json.truthy (progress .evmAddress)) (js "EVM address is required") ++
  require (Json.truthy (progress .solanaAddress)) (js "Solana address is required") ++
  require (Json.truthy (progress .icpAddress)) (js "ICP address is required") ++
  validateWalletAddresses (currentWalletAddresses progress)

def registrationValidationErrors (progress : SetupProgress) (nowSeconds : ℕ) : Except JsString (List JsString) :=
  (emailValid progress nowSeconds).map (validationErrors progress)

def registerNodeFromWizard (input : Json) (nowSeconds : ℕ) : WizardProg WizardReply := do
  let progress ← current
  match registrationReady env progress with
  | some notReady => return notReady
  | none =>
    match normalizePort (bodyText input (js "port")) with
    | none => return .error 422 (js "Enter a valid TCP port")
    | some port => do
      let errors ← orThrow (registrationValidationErrors progress nowSeconds)
      if errors ≠ [] then return .error 422 ((js "; ").intercalate errors)
      else do
        let next ← rememberProgress progress [(.port, some (.str (decText port)))]
        ask (.finishRegistration next port (bodyFlag input (js "startPm2")))

/-! ### Operations -/

/-- A request, or the end of a wallet session, with the times that it reads. -/
inductive WizardOperation where
  | operatorAgreement (input : Json) (acceptedAt : JsString)
  | connection (input : Json)
  | runtimeInstall (input : Json)
  | networkEval (input : Json) (now : JsString) (nowSeconds : ℕ)
  | emailStart (input : Json) (nowSeconds : ℕ)
  | emailVerify (input : Json) (nowSeconds : ℕ)
  | walletSession
  | walletSessionDone (addresses : WalletAddresses)
  | registerNode (input : Json) (nowSeconds : ℕ)

def WizardOperation.prog : WizardOperation → WizardProg WizardReply
  | .operatorAgreement input acceptedAt => recordOperatorAgreement input acceptedAt
  | .connection input => recordConnection env input
  | .runtimeInstall input => installRuntime env input
  | .networkEval input now nowSeconds => runNetworkEval env input now nowSeconds
  | .emailStart input nowSeconds => startEmailVerification env input nowSeconds
  | .emailVerify input nowSeconds => verifyEmailCode env input nowSeconds
  | .walletSession => startWalletSession env
  | .walletSessionDone addresses => Setup.walletSessionDone addresses
  | .registerNode input nowSeconds => registerNodeFromWizard env input nowSeconds

/-! ### Each save extends the progress that the operation holds -/

theorem asks_orThrow {α : Type} (x : Except JsString α) : Asks (orThrow x) := by
  cases x <;> trivial

theorem extends_ask {β : Type} {q : WizardAsk} {f : q.Answer → WizardProg β} {held : Option SetupProgress}
    (hf : ∀ a, Extends held (f a)) : Extends held (ask q >>= f) := extends_answer hf

theorem extends_orThrow {α β : Type} {x : Except JsString α} {f : α → WizardProg β} {held : Option SetupProgress}
    (hf : ∀ a, Extends held (f a)) : Extends held (orThrow x >>= f) := Asks.extends_bind hf (asks_orThrow x)

theorem asks_setupManifest (progress : SetupProgress) : Asks (setupManifest env progress) := by
  unfold setupManifest
  split_ifs
  · trivial
  · exact fun a => asks_orThrow a

theorem asks_canReuseRuntime (progress : SetupProgress) (manifest : ReleaseManifest) :
    Asks (canReuseRuntime progress manifest) := by
  unfold canReuseRuntime
  split
  · trivial
  · by_cases hversion : text progress .installedVersion = some manifest.version
    · rw [if_pos hversion]
      exact fun present => trivial
    · rw [if_neg hversion]
      trivial

theorem asks_verifiedEmail (progress : SetupProgress) (email verificationId code : JsString) (nowSeconds : ℕ) :
    Asks (verifiedEmail env progress email verificationId code nowSeconds) := by
  unfold verifiedEmail
  split
  · trivial
  · exact fun posted => asks_orThrow posted

theorem extends_installRuntime (input : Json) : Extends none (installRuntime env input) := by
  refine extends_current fun progress => ?_
  split
  · trivial
  · refine Asks.extends_bind (fun manifest => ?_) (asks_setupManifest env progress)
    refine Asks.extends_bind (fun canReuse => ?_) (asks_canReuseRuntime progress manifest)
    have hinstalled : ∀ mode, Extends (some progress) (rememberRuntimeInstall progress manifest.version >>= fun next =>
        (.ret (.success mode next) : WizardProg WizardReply)) := fun mode => extends_remember trivial
    split_ifs
    · trivial
    · exact hinstalled _
    · exact hinstalled _
    · refine extends_ask fun downloaded => extends_orThrow fun artifact => extends_ask fun result => ?_
      split_ifs
      · trivial
      · exact hinstalled _

theorem extends_runNetworkEval (input : Json) (now : JsString) (nowSeconds : ℕ) :
    Extends none (runNetworkEval env input now nowSeconds) := by
  refine extends_current fun progress => ?_
  split
  · trivial
  · split_ifs
    · trivial
    · exact extends_remember trivial
    · refine extends_ask fun detected => extends_orThrow fun publicIpv4 => extends_remember ?_
      refine extends_ask fun publicIpv6 => extends_remember ?_
      refine extends_ask fun region => extends_remember ?_
      refine extends_ask fun expiresAt => ?_
      split_ifs
      · exact extends_remember trivial
      · refine extends_ask fun installed => ?_
        split_ifs
        · trivial
        · refine extends_ask fun result => ?_
          split_ifs
          · trivial
          · exact extends_remember trivial

theorem extends_startEmailVerification (input : Json) (nowSeconds : ℕ) :
    Extends none (startEmailVerification env input nowSeconds) := by
  refine extends_current fun progress => ?_
  split
  · trivial
  · dsimp only
    split_ifs
    · trivial
    · trivial
    · exact extends_ask fun posted => extends_orThrow fun _ => trivial

theorem extends_verifyEmailCode (input : Json) (nowSeconds : ℕ) :
    Extends none (verifyEmailCode env input nowSeconds) := by
  refine extends_current fun progress => ?_
  split
  · trivial
  · dsimp only
    split_ifs
    · trivial
    · trivial
    · trivial
    · refine Asks.extends_bind (fun verified => ?_) (asks_verifiedEmail env _ _ _ _ _)
      exact extends_remember trivial

theorem extends_startWalletSession : Extends none (startWalletSession env) := by
  refine extends_current fun progress => ?_
  split
  · trivial
  · split_ifs
    · exact extends_remember trivial
    · exact extends_ask fun started => extends_orThrow fun _ => trivial

theorem extends_registerNodeFromWizard (input : Json) (nowSeconds : ℕ) :
    Extends none (registerNodeFromWizard env input nowSeconds) := by
  refine extends_current fun progress => ?_
  split
  · trivial
  · split
    · trivial
    · refine extends_orThrow fun errors => ?_
      split_ifs
      · trivial
      · exact extends_remember fun _ => trivial

theorem extends_recordOperatorAgreement (input : Json) (acceptedAt : JsString) :
    Extends none (recordOperatorAgreement input acceptedAt) := by
  refine extends_current fun progress => ?_
  split_ifs
  · trivial
  · trivial
  · trivial
  · trivial
  · exact extends_remember trivial

theorem extends_recordConnection (input : Json) : Extends none (recordConnection env input) := by
  refine extends_current fun progress => ?_
  split_ifs
  · trivial
  · split
    · trivial
    · trivial
    · exact extends_remember trivial

/-- **Every operation** saves the progress that it has loaded or saved last, with its patch. -/
theorem extends_prog (operation : WizardOperation) : Extends none (operation.prog env) := by
  cases operation with
  | operatorAgreement input acceptedAt => exact extends_recordOperatorAgreement input acceptedAt
  | connection input => exact extends_recordConnection env input
  | runtimeInstall input => exact extends_installRuntime env input
  | networkEval input now nowSeconds => exact extends_runNetworkEval env input now nowSeconds
  | emailStart input nowSeconds => exact extends_startEmailVerification env input nowSeconds
  | emailVerify input nowSeconds => exact extends_verifyEmailCode env input nowSeconds
  | walletSession => exact extends_startWalletSession env
  | walletSessionDone addresses => exact extends_current fun latest => extends_remember trivial
  | registerNode input nowSeconds => exact extends_registerNodeFromWizard env input nowSeconds

end ConsensusNode.Setup
