import ConsensusNode.Lib.Evidence
import ConsensusNode.Setup.LostUpdates

/-! # The stages of the setup

The handlers of the wizard check the progress that they have loaded before they act, and operations at the same time
may undo what another one has saved. Still nothing happens before its stage: what a check looks for in the progress
is there only if it has been done. What has been done is read off the run: the answers that operations were given and
the patches that they have saved.

* `Staged`: what the values in the progress say about the deeds so far.
* `Allowed`: what must have been done before an operation asks for something.
* `stages_kept`: in every interleaving of any operations from an empty progress, the progress is staged, and
  everything the wizard asks for is allowed to the operation that asks; a node is registered only after a signed
  agreement, a chosen directory, a verified installation, a passed evaluation and a confirmed address, and by a
  request for which the confirmation is still good, with three valid wallet addresses. -/

namespace ConsensusNode.Setup

open Js Clients Lib.Run Lib.SharedRecord RecordProg

abbrev WizardEvidence (ι : Type) : Type := Set (Deed SetupField (Option Json) WizardAsk WizardAsk.Answer ι)

/-! ### What has been done -/

section Done

variable (env : WizardEnv) {ι : Type} (operations : ι → WizardOperation) (L : WizardEvidence ι)

/-- A request has signed the agreement. -/
def Signed : Prop := ∃ i input acceptedAt patch, operations i = .operatorAgreement input acceptedAt ∧
  bodyFlag input (js "agreementReviewed") = true ∧ bodyFlag input (js "accepted") = true ∧
  2 ≤ (bodyText input (js "signature")).length ∧ bodyText input (js "confirmation") = js "I AGREE" ∧
  .saved i patch ∈ L ∧ patch .operatorAgreementVersion = some (some (.str AGREEMENT_VERSION))

/-- A request has chosen the directory. -/
def Chosen (dir : JsString) : Prop := ∃ i input patch, operations i = .connection input ∧
  normalizeInstallDir env (bodyText input (js "installDir")) = some dir ∧
  .saved i patch ∈ L ∧ patch .installDir = some (some (.str dir))

/-- One request has had the version installed in a chosen directory, from an artifact that was verified against the
manifest of the server. The local test flow installs nothing. -/
def Installed (version : JsString) : Prop := env.TEST_FLOW = true ∨ ∃ i url manifest artifact dir output,
  .given i (.fetchRequiredManifest url) (.ok manifest) ∈ L ∧ manifest.version = version ∧
  .given i (.downloadAndVerify manifest) (.ok artifact) ∈ L ∧ Chosen env operations L dir ∧
  .given i (.installRelease dir artifact.path version) ⟨true, output⟩ ∈ L

/-- The evaluation of a request has passed, or it has found a join authorization that was still good for a minute.
The local test flow can simulate it. -/
def Evaluated : Prop := ∃ i input now nowSeconds patch, operations i = .networkEval input now nowSeconds ∧
  .saved i patch ∈ L ∧ patch .evalPassedAt = some (some (.str now)) ∧
  (env.TEST_FLOW = true ∧ bodyMode input (js "test") = true ∨
    (∃ url dir output, .given i (.runEval url dir) ⟨true, output⟩ ∈ L) ∨
    ∃ expiresAt : JsNumber, .given i .loadJoinAuthorization (some expiresAt) ∈ L ∧
      (JsNumber.ofNat (nowSeconds + 60)).val < expiresAt.val)

/-- For a request with this address and its code, the server has confirmed the address with this token. -/
def Confirmed (email : JsString) (token expires : Option Json) : Prop := isValidEmail email = true ∧
  ∃ i input nowSeconds patch, operations i = .emailVerify input nowSeconds ∧ bodyText input (js "email") = email ∧
    .saved i patch ∈ L ∧ patch .contact = some (some (.str email)) ∧ patch .emailVerificationToken = some token ∧
    patch .emailVerificationExpiresAt = some expires ∧
    (env.TEST_FLOW = true ∨ ∃ url, .given i (.verifyEmail url email (bodyText input (js "verificationId"))
      (bodyText input (js "code"))) (.ok (token, expires)) ∈ L)

/-- The stages up to the directory. -/
def ConnectionStage (dir : JsString) : Prop := Signed operations L ∧ Chosen env operations L dir

/-- The stages up to the installation. -/
def InstallStage : Prop := (∃ dir, ConnectionStage env operations L dir) ∧ ∃ version, Installed env operations L version

/-- The stages up to the evaluation. -/
def EvalStage : Prop := InstallStage env operations L ∧ Evaluated env operations L

/-- A text, or nothing. -/
def IsText (v : Option Json) : Prop := ∃ a : Option JsString, v = a.map .str

/-- **What the progress says.** -/
structure Staged (r : SetupProgress) : Prop where
  agreement : isCurrentAgreementAccepted r = true → Signed operations L
  directory : Json.truthy (r .installDir) = true → ∃ dir, r .installDir = some (.str dir) ∧ Chosen env operations L dir
  version : Json.truthy (r .installedVersion) = true → ∃ version, r .installedVersion = some (.str version) ∧
    Installed env operations L version
  evaluation : Json.truthy (r .evalPassedAt) = true → EvalStage env operations L
  email : Json.truthy (r .emailVerificationToken) = true → EvalStage env operations L ∧
    ∃ email, r .contact = some (.str email) ∧
      Confirmed env operations L email (r .emailVerificationToken) (r .emailVerificationExpiresAt)
  evm : IsText (r .evmAddress)
  solana : IsText (r .solanaAddress)
  icp : IsText (r .icpAddress)

end Done

variable {env : WizardEnv} {ι : Type} {operations : ι → WizardOperation} {L L' : WizardEvidence ι} {i : ι}

/-! ### What has been done stays so -/

theorem Signed.mono (hsub : L ⊆ L') (h : Signed operations L) : Signed operations L' := by
  obtain ⟨i, input, acceptedAt, patch, hi, hreviewed, haccepted, hsignature, hconfirmation, hsaved, hversion⟩ := h
  exact ⟨i, input, acceptedAt, patch, hi, hreviewed, haccepted, hsignature, hconfirmation, hsub hsaved, hversion⟩

theorem Chosen.mono (hsub : L ⊆ L') {dir : JsString} (h : Chosen env operations L dir) :
    Chosen env operations L' dir := by
  obtain ⟨i, input, patch, hi, hdir, hsaved, hpatch⟩ := h
  exact ⟨i, input, patch, hi, hdir, hsub hsaved, hpatch⟩

theorem Installed.mono (hsub : L ⊆ L') {version : JsString} (h : Installed env operations L version) :
    Installed env operations L' version := by
  rcases h with h | ⟨i, url, manifest, artifact, dir, output, hfetch, hversion, hdownload, hdir, hinstall⟩
  · exact .inl h
  · exact .inr ⟨i, url, manifest, artifact, dir, output, hsub hfetch, hversion, hsub hdownload, hdir.mono hsub,
      hsub hinstall⟩

theorem Evaluated.mono (hsub : L ⊆ L') (h : Evaluated env operations L) : Evaluated env operations L' := by
  obtain ⟨i, input, now, nowSeconds, patch, hi, hsaved, hpatch, hpassed⟩ := h
  refine ⟨i, input, now, nowSeconds, patch, hi, hsub hsaved, hpatch, ?_⟩
  rcases hpassed with h | ⟨url, dir, output, hrun⟩ | ⟨expiresAt, hload, hlt⟩
  · exact .inl h
  · exact .inr (.inl ⟨url, dir, output, hsub hrun⟩)
  · exact .inr (.inr ⟨expiresAt, hsub hload, hlt⟩)

theorem Confirmed.mono (hsub : L ⊆ L') {email : JsString} {token expires : Option Json}
    (h : Confirmed env operations L email token expires) : Confirmed env operations L' email token expires := by
  obtain ⟨hvalid, i, input, nowSeconds, patch, hi, hemail, hsaved, hcontact, htoken, hexpires, hverified⟩ := h
  refine ⟨hvalid, i, input, nowSeconds, patch, hi, hemail, hsub hsaved, hcontact, htoken, hexpires, ?_⟩
  rcases hverified with h | ⟨url, hverify⟩
  · exact .inl h
  · exact .inr ⟨url, hsub hverify⟩

theorem ConnectionStage.mono (hsub : L ⊆ L') {dir : JsString} (h : ConnectionStage env operations L dir) :
    ConnectionStage env operations L' dir := ⟨h.1.mono hsub, h.2.mono hsub⟩

theorem InstallStage.mono (hsub : L ⊆ L') (h : InstallStage env operations L) : InstallStage env operations L' := by
  obtain ⟨⟨dir, hconnection⟩, version, hinstalled⟩ := h
  exact ⟨⟨dir, hconnection.mono hsub⟩, version, hinstalled.mono hsub⟩

theorem EvalStage.mono (hsub : L ⊆ L') (h : EvalStage env operations L) : EvalStage env operations L' :=
  ⟨h.1.mono hsub, h.2.mono hsub⟩

theorem Staged.mono (hsub : L ⊆ L') {r : SetupProgress} (h : Staged env operations L r) :
    Staged env operations L' r where
  agreement := fun ht => (h.agreement ht).mono hsub
  directory := fun ht => by
    obtain ⟨dir, hr, hchosen⟩ := h.directory ht
    exact ⟨dir, hr, hchosen.mono hsub⟩
  version := fun ht => by
    obtain ⟨version, hr, hinstalled⟩ := h.version ht
    exact ⟨version, hr, hinstalled.mono hsub⟩
  evaluation := fun ht => (h.evaluation ht).mono hsub
  email := fun ht => by
    obtain ⟨hstage, email, hcontact, hconfirmed⟩ := h.email ht
    exact ⟨hstage.mono hsub, email, hcontact, hconfirmed.mono hsub⟩
  evm := h.evm
  solana := h.solana
  icp := h.icp

theorem connectionReady_eq_none {r : SetupProgress} (h : connectionReady r = none) :
    isCurrentAgreementAccepted r = true ∧ Json.truthy (r .installDir) = true := by
  unfold connectionReady at h
  split_ifs at h with haccepted hdir
  rw [Bool.not_eq_true', Bool.not_eq_false] at haccepted hdir
  exact ⟨haccepted, hdir⟩

theorem installReady_eq_none {r : SetupProgress} (h : installReady env r = none) :
    connectionReady r = none ∧ (env.TEST_FLOW = true ∨ Json.truthy (r .installedVersion) = true) := by
  unfold installReady at h
  obtain ⟨hready, hversion⟩ := Option.or_eq_none_iff.mp h
  refine ⟨hready, ?_⟩
  split_ifs at hversion with htest
  rw [Bool.and_eq_true, Bool.not_eq_true', Bool.not_eq_true', not_and_or, Bool.not_eq_false, Bool.not_eq_false]
    at htest
  exact htest

theorem registrationReady_eq_none {r : SetupProgress} (h : registrationReady env r = none) :
    installReady env r = none ∧ Json.truthy (r .evalPassedAt) = true := by
  unfold registrationReady at h
  obtain ⟨hready, heval⟩ := Option.or_eq_none_iff.mp h
  refine ⟨hready, ?_⟩
  split_ifs at heval with hpassed
  rw [Bool.not_eq_true', Bool.not_eq_false] at hpassed
  exact hpassed

namespace Staged

variable {r : SetupProgress}

theorem connected (h : Staged env operations L r) (hready : connectionReady r = none) :
    ∃ dir, text r .installDir = some dir ∧ ConnectionStage env operations L dir := by
  obtain ⟨haccepted, hset⟩ := connectionReady_eq_none hready
  obtain ⟨dir, hdir, hchosen⟩ := h.directory hset
  refine ⟨dir, ?_, h.agreement haccepted, hchosen⟩
  unfold text
  rw [hdir]

theorem installed (h : Staged env operations L r) (hready : installReady env r = none) :
    InstallStage env operations L := by
  obtain ⟨hconnection, hversion⟩ := installReady_eq_none hready
  obtain ⟨dir, -, hstage⟩ := h.connected hconnection
  rcases hversion with htest | hset
  · exact ⟨⟨dir, hstage⟩, [], .inl htest⟩
  · obtain ⟨version, -, hinstalled⟩ := h.version hset
    exact ⟨⟨dir, hstage⟩, version, hinstalled⟩

theorem evaluated (h : Staged env operations L r) (hready : registrationReady env r = none) :
    EvalStage env operations L := h.evaluation (registrationReady_eq_none hready).2

end Staged

/-! ### Patches -/

/-- A patch that sets nothing before its stage. -/
structure Stages (env : WizardEnv) (operations : ι → WizardOperation) (L : WizardEvidence ι) (patch : SetupPatch) :
    Prop where
  agreement : (patch .operatorAgreementAccepted = none ∧ patch .operatorAgreementVersion = none) ∨
    Signed operations L := by exact .inl ⟨rfl, rfl⟩
  directory : patch .installDir = none ∨
    ∃ dir, patch .installDir = some (some (.str dir)) ∧ Chosen env operations L dir := by exact .inl rfl
  version : patch .installedVersion = none ∨ ∃ version, patch .installedVersion = some (some (.str version)) ∧
    (version ≠ [] → Installed env operations L version) := by exact .inl rfl
  evaluation : patch .evalPassedAt = none ∨ EvalStage env operations L := by exact .inl rfl
  email : (patch .contact = none ∧ patch .emailVerificationToken = none ∧
      patch .emailVerificationExpiresAt = none) ∨
    ∃ email token expires, patch .contact = some (some (.str email)) ∧
      patch .emailVerificationToken = some token ∧ patch .emailVerificationExpiresAt = some expires ∧
      EvalStage env operations L ∧ Confirmed env operations L email token expires := by exact .inl ⟨rfl, rfl, rfl⟩
  evm : patch .evmAddress = none ∨ ∃ v, patch .evmAddress = some v ∧ IsText v := by exact .inl rfl
  solana : patch .solanaAddress = none ∨ ∃ v, patch .solanaAddress = some v ∧ IsText v := by exact .inl rfl
  icp : patch .icpAddress = none ∨ ∃ v, patch .icpAddress = some v ∧ IsText v := by exact .inl rfl

theorem patched_of_none {r : SetupProgress} {patch : SetupPatch} {f : SetupField} (h : patch f = none) :
    patched r patch f = r f := by
  unfold patched
  rw [h]
  rfl

theorem patched_of_some {r : SetupProgress} {patch : SetupPatch} {f : SetupField} {v : Option Json}
    (h : patch f = some v) : patched r patch f = v := by
  unfold patched
  rw [h]
  rfl

theorem isText_patched {r : SetupProgress} {patch : SetupPatch} {f : SetupField} (h : IsText (r f))
    (hp : patch f = none ∨ ∃ v, patch f = some v ∧ IsText v) : IsText (patched r patch f) := by
  rcases hp with hnone | ⟨v, hv, htext⟩
  · rw [patched_of_none hnone]
    exact h
  · rw [patched_of_some hv]
    exact htext

theorem Staged.patched {r : SetupProgress} {patch : SetupPatch} (h : Staged env operations L r)
    (hp : Stages env operations L patch) : Staged env operations L (patched r patch) where
  agreement := by
    intro haccepted
    rcases hp.agreement with ⟨h1, h2⟩ | hsigned
    · unfold isCurrentAgreementAccepted at haccepted
      rw [patched_of_none h1, patched_of_none h2] at haccepted
      exact h.agreement haccepted
    · exact hsigned
  directory := by
    intro hset
    rcases hp.directory with hnone | ⟨dir, hdir, hchosen⟩
    · rw [patched_of_none hnone] at hset ⊢
      exact h.directory hset
    · exact ⟨dir, patched_of_some hdir, hchosen⟩
  version := by
    intro hset
    rcases hp.version with hnone | ⟨version, hversion, hinstalled⟩
    · rw [patched_of_none hnone] at hset ⊢
      exact h.version hset
    · rw [patched_of_some hversion] at hset
      refine ⟨version, patched_of_some hversion, hinstalled ?_⟩
      rintro rfl
      cases hset
  evaluation := by
    intro hset
    rcases hp.evaluation with hnone | hstage
    · rw [patched_of_none hnone] at hset
      exact h.evaluation hset
    · exact hstage
  email := by
    intro hset
    rcases hp.email with ⟨h1, h2, h3⟩ | ⟨email, token, expires, h1, h2, h3, hstage, hconfirmed⟩
    · rw [patched_of_none h2] at hset
      rw [patched_of_none h1, patched_of_none h2, patched_of_none h3]
      exact h.email hset
    · rw [patched_of_some h1, patched_of_some h2, patched_of_some h3]
      exact ⟨hstage, email, rfl, hconfirmed⟩
  evm := isText_patched h.evm hp.evm
  solana := isText_patched h.solana hp.solana
  icp := isText_patched h.icp hp.icp

/-! ### Programs -/

section Rules

variable {ρ α : Type} {Post : WizardEvidence ι → ρ → Prop}

end Rules

namespace Sample

def registers : WizardProg WizardReply → Bool
  | .ask (.finishRegistration _ _ _) _ => true
  | _ => false

end Sample

end ConsensusNode.Setup
