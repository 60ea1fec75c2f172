import ConsensusNode.Setup.Wizard

/-! # Reuse of an installed runtime

Requests to the wizard, one after another, on a machine where some directories have a current release. The installer
puts the version that it is given at `current` in the runtime directory, and nothing else writes there. Whether a
runtime is offered for reuse depends on the version that is remembered and on the existence of `current`, not on what
is there; a connection request changes the directory and leaves the remembered version.

* `step_iff`: the requests that keep what is offered equal to what is there.
* `reused_is_installed`: runs of such requests. -/

namespace ConsensusNode.Setup

open Js Clients Lib.Run Lib.SharedRecord RecordProg

/-! ### The machine -/

/-- The progress, and the versions of the releases at their paths. -/
structure SetupMachine where
  progress : SetupProgress
  releases : JsString → Option JsString

def SetupMachine.save (m : SetupMachine) (progress : SetupProgress) : SetupMachine := { m with progress := progress }

/-- Files are there or not; the installer does its work; everything else answers as it likes. -/
def SetupMachine.reply (answers : (q : WizardAsk) → q.Answer) (m : SetupMachine) :
    (q : WizardAsk) → q.Answer × SetupMachine
  | .pathExists target => ((m.releases target).isSome, m)
  | .installRelease dir artifact version =>
    let result : CommandResult := answers (.installRelease dir artifact version)
    (result,
      if result.ok then { m with releases := Function.update m.releases (currentDir dir) (some version) } else m)
  | q => (answers q, m)

/-- A program that runs alone on the machine. -/
def SetupMachine.exec {ρ : Type} (m : SetupMachine) (answers : (q : WizardAsk) → q.Answer) (p : WizardProg ρ) :
    Except JsString ρ × SetupMachine :=
  RecordProg.exec progress save (reply answers) p m

/-- A request, with what the handler is answered. -/
structure WizardRequest where
  operation : WizardOperation
  answers : (q : WizardAsk) → q.Answer

variable (env : WizardEnv)

def SetupMachine.handle (m : SetupMachine) (request : WizardRequest) : SetupMachine :=
  (m.exec request.answers (request.operation.prog env)).2

/-- `path.join(progress.installDir, "current")` -/
def SetupMachine.current (m : SetupMachine) : JsString := currentDir ((text m.progress .installDir).getD [])

/-- **A runtime offered for reuse is the one that was installed.** -/
def SetupMachine.ReuseIsInstalled (m : SetupMachine) : Prop := ∀ answers manifest,
  (m.exec answers (canReuseRuntime m.progress manifest)).1 = .ok true → m.releases m.current = some manifest.version

/-- What a connection request that is accepted sets as the directory. -/
def connectedDir (m : SetupMachine) (input : Json) : Option JsString :=
  if isCurrentAgreementAccepted m.progress then
    (normalizeInstallDir env (bodyText input (js "installDir"))).filter fun dir => !dir.isEmpty
  else none

/-- **The condition.** An accepted connection request names a directory without a release, or with the one that
is remembered; in the local test flow, which installs nothing, an install request finds no release or that of the
test. -/
def Fits (m : SetupMachine) (request : WizardRequest) : Prop :=
  match request.operation with
  | .connection input => ∀ dir, connectedDir env m input = some dir → ∀ remembered release,
      text m.progress .installedVersion = some remembered → m.releases (currentDir dir) = some release →
      release = remembered
  | .runtimeInstall input => env.TEST_FLOW = true → connectionReady m.progress = none →
      bodyMode input (js "reuse") = false → ∀ release, m.releases m.current = some release →
      release = (testReleaseManifest env).version
  | _ => True

/-! ### Programs on the machine -/

/-- `canReuseRuntime` of the progress on the machine. -/
def SetupMachine.offers (m : SetupMachine) (manifest : ReleaseManifest) : Bool :=
  Json.truthy (m.progress .installDir) && decide (text m.progress .installedVersion = some manifest.version) &&
    (m.releases m.current).isSome

/-- `rememberRuntimeInstall` -/
def SetupMachine.remember (m : SetupMachine) (installedVersion : JsString) : SetupMachine :=
  m.save (patched m.progress (patchOf [(.installedVersion, some (.str installedVersion))]))

/-- What the installer leaves. -/
def SetupMachine.install (m : SetupMachine) (version : JsString) : SetupMachine :=
  { m with releases := Function.update m.releases m.current (some version) }

section Exec

variable {ρ τ : Type} {m : SetupMachine} {answers : (q : WizardAsk) → q.Answer}

theorem exec_orThrow_ok (r : ρ) : m.exec answers (orThrow (.ok r)) = (.ok r, m) := rfl

theorem exec_orThrow_error (e : JsString) : m.exec answers (orThrow (.error e) : WizardProg ρ) = (.error e, m) := rfl

theorem exec_bind_ok {p : WizardProg ρ} {r : ρ} {m' : SetupMachine} (h : m.exec answers p = (.ok r, m'))
    (f : ρ → WizardProg τ) : m.exec answers (p >>= f) = m'.exec answers (f r) := by
  unfold SetupMachine.exec at h ⊢
  rw [exec_bind, h]

theorem exec_bind_error {p : WizardProg ρ} {e : JsString} {m' : SetupMachine} (h : m.exec answers p = (.error e, m'))
    (f : ρ → WizardProg τ) : m.exec answers (p >>= f) = (.error e, m') := by
  unfold SetupMachine.exec at h ⊢
  rw [exec_bind, h]

theorem exec_current (f : SetupProgress → WizardProg τ) :
    m.exec answers (current >>= f) = m.exec answers (f m.progress) := rfl

theorem exec_ask (q : WizardAsk) (f : q.Answer → WizardProg τ) : m.exec answers (ask q >>= f) =
    (m.reply answers q).2.exec answers (f (m.reply answers q).1) := rfl

/-- The installer succeeds, or it leaves everything as it is. -/
theorem exec_installRelease (artifact version : JsString) :
    (∃ output, ∀ {τ : Type} (f : CommandResult → WizardProg τ),
      m.exec answers (ask (.installRelease ((text m.progress .installDir).getD []) artifact version) >>= f) =
        (m.install version).exec answers (f ⟨true, output⟩)) ∨
    ∃ output, ∀ {τ : Type} (f : CommandResult → WizardProg τ),
      m.exec answers (ask (.installRelease ((text m.progress .installDir).getD []) artifact version) >>= f) =
        m.exec answers (f ⟨false, output⟩) := by
  rcases hresult : answers (.installRelease ((text m.progress .installDir).getD []) artifact version) with
    ⟨_ | _, output⟩
  · refine .inr ⟨output, fun f => ?_⟩
    rw [exec_ask]
    dsimp only [SetupMachine.reply]
    rw [hresult]
    rfl
  · refine .inl ⟨output, fun f => ?_⟩
    rw [exec_ask]
    dsimp only [SetupMachine.reply]
    rw [hresult]
    rfl

theorem exec_canReuseRuntime (manifest : ReleaseManifest) :
    m.exec answers (canReuseRuntime m.progress manifest) = (.ok (m.offers manifest), m) := by
  unfold canReuseRuntime SetupMachine.offers
  by_cases hdir : Json.truthy (m.progress .installDir) = true
  · rw [hdir]
    by_cases hversion : text m.progress .installedVersion = some manifest.version
    · rw [if_pos hversion, decide_eq_true hversion]
      rfl
    · rw [if_neg hversion, decide_eq_false hversion]
      rfl
  · rw [eq_false_of_ne_true hdir]
    rfl

/-- Where the manifest comes from. -/
theorem exec_setupManifest_test (h : env.TEST_FLOW = true) (progress : SetupProgress) :
    m.exec answers (setupManifest env progress) = (.ok (testReleaseManifest env), m) := by
  unfold setupManifest
  rw [if_pos h]
  rfl

theorem exec_setupManifest (h : env.TEST_FLOW = false) (progress : SetupProgress) :
    (∃ manifest, m.exec answers (setupManifest env progress) = (.ok manifest, m)) ∨
      ∃ e, m.exec answers (setupManifest env progress) = (.error e, m) := by
  unfold setupManifest
  rw [if_neg (ne_true_of_eq_false h), exec_ask]
  show (∃ manifest, m.exec answers (orThrow (answers (.fetchRequiredManifest (serverUrlOf progress)))) = _) ∨
    ∃ e, m.exec answers (orThrow (answers (.fetchRequiredManifest (serverUrlOf progress)))) = _
  rcases answers (.fetchRequiredManifest (serverUrlOf progress)) with e | manifest
  · exact .inr ⟨e, rfl⟩
  · exact .inl ⟨manifest, rfl⟩

end Exec

/-! ### Requests -/

theorem handle_connection (m : SetupMachine) (input : Json) (answers : (q : WizardAsk) → q.Answer) :
    m.handle env ⟨.connection input, answers⟩ =
      match connectedDir env m input with
      | none => m
      | some dir => m.save (patched m.progress
          (patchOf [(.serverUrl, some (.str DEFAULT_SERVER_URL)), (.installDir, some (.str dir))])) := by
  unfold SetupMachine.handle connectedDir
  show (m.exec answers (recordConnection env input)).2 = _
  unfold recordConnection
  rw [exec_current]
  by_cases haccepted : isCurrentAgreementAccepted m.progress = true
  · rw [haccepted]
    rcases normalizeInstallDir env (bodyText input (js "installDir")) with _ | _ | ⟨c, dir⟩ <;> rfl
  · rw [eq_false_of_ne_true haccepted]
    rfl

/-- The local test flow only remembers its version. -/
theorem handle_install_test {m : SetupMachine} {input : Json} {answers : (q : WizardAsk) → q.Answer}
    (htest : env.TEST_FLOW = true) (hready : connectionReady m.progress = none)
    (hmode : bodyMode input (js "reuse") = false) :
    m.handle env ⟨.runtimeInstall input, answers⟩ = m.remember (testReleaseManifest env).version := by
  unfold SetupMachine.handle
  show (m.exec answers (installRuntime env input)).2 = _
  unfold installRuntime
  rw [exec_current, hready]
  dsimp only
  rw [exec_bind_ok (exec_setupManifest_test env htest _), exec_bind_ok (exec_canReuseRuntime _), hmode, htest]
  rfl

/-- What an install request can do otherwise: nothing; remember what is remembered already; install a version and
remember it. -/
theorem handle_install_cases (m : SetupMachine) (input : Json) (answers : (q : WizardAsk) → q.Answer)
    (hother : ¬ (env.TEST_FLOW = true ∧ connectionReady m.progress = none ∧ bodyMode input (js "reuse") = false)) :
    m.handle env ⟨.runtimeInstall input, answers⟩ = m ∨
    (∃ v, text m.progress .installedVersion = some v ∧ m.handle env ⟨.runtimeInstall input, answers⟩ = m.remember v) ∨
    ∃ v, m.handle env ⟨.runtimeInstall input, answers⟩ = (m.install v).remember v := by
  unfold SetupMachine.handle
  show (m.exec answers (installRuntime env input)).2 = m ∨
    (∃ v, text m.progress .installedVersion = some v ∧ (m.exec answers (installRuntime env input)).2 = m.remember v) ∨
    ∃ v, (m.exec answers (installRuntime env input)).2 = (m.install v).remember v
  unfold installRuntime
  rw [exec_current]
  rcases hready : connectionReady m.progress with _ | notReady
  swap
  · exact .inl rfl
  dsimp only
  -- without a manifest nothing happens
  obtain ⟨manifest, hmanifest⟩ | ⟨e, he⟩ :
      (∃ manifest, m.exec answers (setupManifest env m.progress) = (.ok manifest, m)) ∨
      ∃ e, m.exec answers (setupManifest env m.progress) = (.error e, m) := by
    by_cases htest : env.TEST_FLOW = true
    · exact .inl ⟨_, exec_setupManifest_test env htest _⟩
    · exact exec_setupManifest env (eq_false_of_ne_true htest) _
  swap
  · rw [exec_bind_error he]
    exact .inl rfl
  rw [exec_bind_ok hmanifest, exec_bind_ok (exec_canReuseRuntime _)]
  by_cases hmode : bodyMode input (js "reuse") = true
  · rw [hmode]
    rcases hoffers : m.offers manifest
    · exact .inl rfl
    · refine .inr (.inl ⟨manifest.version, ?_, rfl⟩)
      unfold SetupMachine.offers at hoffers
      rw [Bool.and_eq_true, Bool.and_eq_true] at hoffers
      exact of_decide_eq_true hoffers.1.2
  have htest : env.TEST_FLOW = false := by
    by_contra htest
    exact hother ⟨eq_true_of_ne_false htest, hready, eq_false_of_ne_true hmode⟩
  rw [eq_false_of_ne_true hmode, htest, if_neg Bool.false_ne_true, if_neg Bool.false_ne_true, exec_ask]
  dsimp only [SetupMachine.reply]
  rcases answers (.downloadAndVerify manifest) with e | artifact
  · rw [exec_bind_error (exec_orThrow_error e)]
    exact .inl rfl
  rw [exec_bind_ok (exec_orThrow_ok artifact)]
  obtain ⟨output, hrun⟩ | ⟨output, hrun⟩ :=
    @exec_installRelease m answers artifact.path manifest.version
  · rw [hrun]
    exact .inr (.inr ⟨manifest.version, rfl⟩)
  · rw [hrun]
    exact .inl rfl

/-- What a reuse depends on is the same. -/
structure SetupMachine.SameRuntime (m m' : SetupMachine) : Prop where
  installDir : m'.progress .installDir = m.progress .installDir
  installedVersion : m'.progress .installedVersion = m.progress .installedVersion
  releases : m'.releases = m.releases

/-- The remembered version is the one at `current`, if there is one. -/
def SetupMachine.Consistent (m : SetupMachine) : Prop := Json.truthy (m.progress .installDir) = true →
  ∀ remembered release, text m.progress .installedVersion = some remembered → m.releases m.current = some release →
    release = remembered

include env in
theorem reuseIsInstalled_iff (answers : (q : WizardAsk) → q.Answer) {m : SetupMachine} :
    m.ReuseIsInstalled ↔ m.Consistent := by
  constructor
  · intro h hdir remembered release hremembered hrelease
    have hinstalled := h answers { testReleaseManifest env with version := remembered } ?_
    · exact Option.some.inj (hrelease.symm.trans hinstalled)
    · rw [exec_canReuseRuntime, SetupMachine.offers, hdir, hremembered, hrelease, decide_eq_true rfl]
      rfl
  · intro h answers manifest hoffers
    rw [exec_canReuseRuntime] at hoffers
    have hoffers : m.offers manifest = true := by injection hoffers
    unfold SetupMachine.offers at hoffers
    rw [Bool.and_eq_true, Bool.and_eq_true] at hoffers
    obtain ⟨⟨hdir, hversion⟩, hpresent⟩ := hoffers
    obtain ⟨release, hrelease⟩ := Option.isSome_iff_exists.mp hpresent
    rw [hrelease, h hdir manifest.version release (of_decide_eq_true hversion) hrelease]

theorem SetupMachine.SameRuntime.consistent {m m' : SetupMachine} (h : m.SameRuntime m') (hm : m.Consistent) :
    m'.Consistent := by
  have hcurrent : m'.current = m.current := by
    unfold SetupMachine.current text
    rw [h.installDir]
  unfold SetupMachine.Consistent text at hm ⊢
  rw [hcurrent, h.installDir, h.installedVersion, h.releases]
  exact hm

/-! ### The other operations -/

/-- A question whose answer changes no file. -/
def OnlyReads : WizardAsk → Prop
  | .installRelease _ _ _ => False
  | _ => True

/-- A patch of other fields. -/
def OtherFields (patch : SetupPatch) : Prop := patch .installDir = none ∧ patch .installedVersion = none

/-- Programs that leave the runtime alone. -/
abbrev LeavesRuntime {ρ : Type} (p : WizardProg ρ) : Prop := Within OnlyReads OtherFields p

theorem SetupMachine.SameRuntime.of_exec {m : SetupMachine} {p : WizardProg WizardReply} (hextends : Extends none p)
    (hleaves : LeavesRuntime p) (answers : (q : WizardAsk) → q.Answer) : m.SameRuntime (m.exec answers p).2 := by
  refine exec_keeps progress save (reply answers) (I := m.SameRuntime) (fun _ _ => rfl) (fun m' q => ?_)
    (fun m' patch hpatch h => ?_) (fun m' q hq h => ?_) hextends hleaves (fun _ h => by cases h) ⟨rfl, rfl, rfl⟩
  · cases q <;> try rfl
    show (if _ then _ else m').progress = m'.progress
    split_ifs <;> rfl
  · refine ⟨?_, ?_, h.releases⟩
    · show (patch .installDir).getD _ = _
      rw [hpatch.1]
      exact h.installDir
    · show (patch .installedVersion).getD _ = _
      rw [hpatch.2]
      exact h.installedVersion
  · cases q with
    | installRelease dir artifact version => exact hq.elim
    | _ => exact h

section Leaves

variable {α ρ : Type}

theorem leaves_current {f : SetupProgress → WizardProg ρ} (hf : ∀ r, LeavesRuntime (f r)) :
    LeavesRuntime (current >>= f) := hf

theorem leaves_remember {base : SetupProgress} {patch : SetupPatch} {f : SetupProgress → WizardProg ρ}
    (hpatch : OtherFields patch) (hf : ∀ r, LeavesRuntime (f r)) : LeavesRuntime (remember base patch >>= f) :=
  ⟨hpatch, hf⟩

theorem leaves_ask {q : WizardAsk} {f : q.Answer → WizardProg ρ} (hq : OnlyReads q) (hf : ∀ a, LeavesRuntime (f a)) :
    LeavesRuntime (ask q >>= f) := ⟨hq, hf⟩

theorem leaves_orThrow {x : Except JsString α} {f : α → WizardProg ρ} (hf : ∀ a, LeavesRuntime (f a)) :
    LeavesRuntime (orThrow x >>= f) := by
  cases x with
  | ok a => exact hf a
  | error e => trivial

end Leaves

theorem leaves_recordOperatorAgreement (input : Json) (acceptedAt : JsString) :
    LeavesRuntime (recordOperatorAgreement input acceptedAt) := by
  refine leaves_current fun progress => ?_
  split_ifs
  · trivial
  · trivial
  · trivial
  · trivial
  · exact leaves_remember ⟨rfl, rfl⟩ fun _ => trivial

theorem leaves_runNetworkEval (input : Json) (now : JsString) (nowSeconds : ℕ) :
    LeavesRuntime (runNetworkEval env input now nowSeconds) := by
  refine leaves_current fun progress => ?_
  split
  · trivial
  · split_ifs
    · trivial
    · exact leaves_remember ⟨rfl, rfl⟩ fun _ => trivial
    · refine leaves_ask trivial fun detected => leaves_orThrow fun publicIpv4 => ?_
      refine leaves_remember ⟨rfl, rfl⟩ fun next => leaves_ask trivial fun publicIpv6 => ?_
      refine leaves_remember ⟨rfl, rfl⟩ fun next => leaves_ask trivial fun region => ?_
      refine leaves_remember ⟨rfl, rfl⟩ fun next => leaves_ask trivial fun expiresAt => ?_
      split_ifs
      · exact leaves_remember ⟨rfl, rfl⟩ fun _ => trivial
      · refine leaves_ask trivial fun installed => ?_
        split_ifs
        · trivial
        · refine leaves_ask trivial fun result => ?_
          split_ifs
          · trivial
          · exact leaves_remember ⟨rfl, rfl⟩ fun _ => trivial

theorem leaves_startEmailVerification (input : Json) (nowSeconds : ℕ) :
    LeavesRuntime (startEmailVerification env input nowSeconds) := by
  refine leaves_current fun progress => ?_
  split
  · trivial
  · dsimp only
    split_ifs
    · trivial
    · trivial
    · exact leaves_ask trivial fun posted => leaves_orThrow fun _ => trivial

theorem leaves_verifyEmailCode (input : Json) (nowSeconds : ℕ) :
    LeavesRuntime (verifyEmailCode env input nowSeconds) := by
  refine leaves_current fun progress => ?_
  split
  · trivial
  · dsimp only
    split_ifs
    · trivial
    · trivial
    · trivial
    · refine Within.bind (fun verified => ?_) ?_
      · exact leaves_remember ⟨rfl, rfl⟩ fun _ => trivial
      · unfold verifiedEmail
        split_ifs
        · trivial
        · exact ⟨trivial, fun posted => by cases posted <;> trivial⟩

theorem leaves_startWalletSession : LeavesRuntime (startWalletSession env) := by
  refine leaves_current fun progress => ?_
  split
  · trivial
  · split_ifs
    · exact leaves_remember ⟨rfl, rfl⟩ fun _ => trivial
    · exact leaves_ask trivial fun started => leaves_orThrow fun _ => trivial

theorem leaves_registerNodeFromWizard (input : Json) (nowSeconds : ℕ) :
    LeavesRuntime (registerNodeFromWizard env input nowSeconds) := by
  refine leaves_current fun progress => ?_
  split
  · trivial
  · split
    · trivial
    · refine leaves_orThrow fun errors => ?_
      split_ifs
      · trivial
      · exact leaves_remember ⟨rfl, rfl⟩ fun _ => ⟨trivial, fun _ => trivial⟩

/-- A request that is neither for a connection nor for an install. -/
def IsOther : WizardOperation → Prop
  | .connection _ => False
  | .runtimeInstall _ => False
  | _ => True

theorem leaves_prog {operation : WizardOperation} (h : IsOther operation) : LeavesRuntime (operation.prog env) := by
  cases operation with
  | operatorAgreement input acceptedAt => exact leaves_recordOperatorAgreement input acceptedAt
  | connection input => exact h.elim
  | runtimeInstall input => exact h.elim
  | networkEval input now nowSeconds => exact leaves_runNetworkEval env input now nowSeconds
  | emailStart input nowSeconds => exact leaves_startEmailVerification env input nowSeconds
  | emailVerify input nowSeconds => exact leaves_verifyEmailCode env input nowSeconds
  | walletSession => exact leaves_startWalletSession env
  | walletSessionDone addresses => exact leaves_current fun latest => leaves_remember ⟨rfl, rfl⟩ fun _ => trivial
  | registerNode input nowSeconds => exact leaves_registerNodeFromWizard env input nowSeconds

/-! ### Each request -/

theorem connectedDir_ne_nil {m : SetupMachine} {input : Json} {dir : JsString}
    (h : connectedDir env m input = some dir) : dir ≠ [] := by
  unfold connectedDir at h
  split_ifs at h
  obtain ⟨-, hne⟩ := Option.filter_eq_some_iff.mp h
  rintro rfl
  cases hne

theorem consistent_connection (m : SetupMachine) (input : Json) (answers : (q : WizardAsk) → q.Answer)
    (h : m.Consistent) : (m.handle env ⟨.connection input, answers⟩).Consistent ↔
      Fits env m ⟨.connection input, answers⟩ := by
  rw [handle_connection]
  unfold Fits
  dsimp only
  rcases hdir : connectedDir env m input with _ | dir
  · refine ⟨fun _ dir hnone => ?_, fun _ => h⟩
    cases hnone
  · have htruthy : Json.truthy (some (.str dir)) = true := by
      cases dir with
      | nil => exact absurd rfl (connectedDir_ne_nil env hdir)
      | cons c dir => rfl
    constructor
    · intro hafter dir' hdir' remembered release hremembered hrelease
      cases hdir'
      exact hafter htruthy remembered release hremembered hrelease
    · intro hfits _ remembered release hremembered hrelease
      exact hfits dir rfl remembered release hremembered hrelease

/-- The runtime that is there when a version has been remembered. -/
theorem consistent_remember {m : SetupMachine} {v : JsString} : (m.remember v).Consistent ↔
    (Json.truthy (m.progress .installDir) = true → ∀ release, m.releases m.current = some release → release = v) := by
  constructor
  · intro h hdir release hrelease
    exact h hdir v release rfl hrelease
  · intro h hdir remembered release hremembered hrelease
    cases hremembered
    exact h hdir release hrelease

theorem truthy_of_ready {m : SetupMachine} (h : connectionReady m.progress = none) :
    Json.truthy (m.progress .installDir) = true := by
  unfold connectionReady at h
  split_ifs at h with haccepted hdir
  simpa using hdir

theorem consistent_install (m : SetupMachine) (input : Json) (answers : (q : WizardAsk) → q.Answer)
    (h : m.Consistent) : (m.handle env ⟨.runtimeInstall input, answers⟩).Consistent ↔
      Fits env m ⟨.runtimeInstall input, answers⟩ := by
  by_cases hsimulated : env.TEST_FLOW = true ∧ connectionReady m.progress = none ∧ bodyMode input (js "reuse") = false
  · obtain ⟨htest, hready, hmode⟩ := hsimulated
    rw [handle_install_test env htest hready hmode, consistent_remember]
    exact ⟨fun hafter _ _ _ => hafter (truthy_of_ready hready), fun hfits _ => hfits htest hready hmode⟩
  · have hfits : Fits env m ⟨.runtimeInstall input, answers⟩ :=
      fun htest hready hmode => absurd ⟨htest, hready, hmode⟩ hsimulated
    refine ⟨fun _ => hfits, fun _ => ?_⟩
    obtain hsame | ⟨v, hv, hreused⟩ | ⟨v, hinstalled⟩ := handle_install_cases env m input answers hsimulated
    · rw [hsame]
      exact h
    · rw [hreused, consistent_remember]
      exact fun hdir release hrelease => h hdir v release hv hrelease
    · rw [hinstalled, consistent_remember]
      intro _ release hrelease
      have hcurrent : (m.install v).releases (m.install v).current = some v := Function.update_self _ _ _
      rw [hcurrent] at hrelease
      cases hrelease
      rfl

/-- **One request** keeps the property if and only if it meets the condition. -/
theorem consistent_handle_iff {m : SetupMachine} (request : WizardRequest) (h : m.Consistent) :
    (m.handle env request).Consistent ↔ Fits env m request := by
  obtain ⟨operation, answers⟩ := request
  by_cases hother : IsOther operation
  · have hsame : m.SameRuntime (m.handle env ⟨operation, answers⟩) :=
      .of_exec (extends_prog env operation) (leaves_prog env hother) answers
    have hfits : Fits env m ⟨operation, answers⟩ := by
      cases operation <;> trivial
    exact ⟨fun _ => hfits, fun _ => hsame.consistent h⟩
  · cases operation with
    | connection input => exact consistent_connection env m input answers h
    | runtimeInstall input => exact consistent_install env m input answers h
    | _ => exact absurd trivial hother

/-! ### Runs -/

/-- **One request** keeps the offer to what is installed if and only if it meets the condition. -/
theorem step_iff {m : SetupMachine} (request : WizardRequest) (h : m.ReuseIsInstalled) :
    (m.handle env request).ReuseIsInstalled ↔ Fits env m request := by
  rw [reuseIsInstalled_iff env request.answers]
  exact consistent_handle_iff env request ((reuseIsInstalled_iff env request.answers).mp h)

/-- **A runtime offered for reuse is the one that was installed**, in every run whose requests all meet the
condition. -/
theorem reused_is_installed (m : SetupMachine) (requests : List WizardRequest) (h : m.ReuseIsInstalled)
    (hfits : Steps (SetupMachine.handle env) (fun _ m request => Fits env m request) m requests) :
    (run (SetupMachine.handle env) m requests).ReuseIsInstalled :=
  run_induct (J := fun _ m => m.ReuseIsInstalled) (C := fun _ m request => Fits env m request) h
    (fun _ request hm hfits => (step_iff env request hm).mpr hfits) hfits

namespace Sample

def reuseEnv : WizardEnv where
  TEST_FLOW := false
  homedir := js "/h"
  platform := js "linux-x64"

/-- The server offers version 2; what is downloaded can be installed. -/
def serverAnswers : (q : WizardAsk) → q.Answer
  | .fetchRequiredManifest _ => .ok { testReleaseManifest reuseEnv with version := js "2" }
  | .pathExists _ => true
  | .downloadAndVerify _ => .ok ⟨js "/d", []⟩
  | .installRelease _ _ _ => ⟨true, []⟩
  | .detectPublicIpv4 => .error []
  | .detectPublicIpv6 => none
  | .fetchRegion _ _ => none
  | .loadJoinAuthorization => none
  | .runEval _ _ => ⟨true, []⟩
  | .startEmail _ _ => .error []
  | .verifyEmail _ _ _ _ => .error []
  | .startWalletAddressServer _ => .error []
  | .finishRegistration _ _ _ => .error 500 []

/-- The agreement is signed, and version 1 is at `/b`. -/
def oldRelease : SetupMachine where
  progress f := (patchOf [(.operatorAgreementAccepted, some (.bool true)),
    (.operatorAgreementVersion, some (.str AGREEMENT_VERSION))] f).join
  releases path := if path = js "/b/current" then some (js "1") else none

def connectTo (dir : JsString) : WizardRequest where
  operation := .connection (.obj [(js "installDir", .str dir)])
  answers := serverAnswers

def install : WizardRequest where
  operation := .runtimeInstall (.obj [(js "mode", .str (js "install"))])
  answers := serverAnswers

/-- Without a remembered version nothing is offered. -/
theorem oldRelease_reuse : oldRelease.ReuseIsInstalled := by
  refine (reuseIsInstalled_iff reuseEnv serverAnswers).mpr fun _ remembered release hremembered => ?_
  cases hremembered

/-- Version 2 is installed at `/a`. -/
theorem installed_reuse :
    (run (SetupMachine.handle reuseEnv) oldRelease [connectTo (js "/a"), install]).ReuseIsInstalled := by
  refine reused_is_installed reuseEnv oldRelease [connectTo (js "/a"), install] oldRelease_reuse ?_
  refine .cons (fun dir _ remembered release hremembered => ?_) (.cons (fun htest => ?_) .nil)
  · cases hremembered
  · cases htest

/-- Then the connection goes to `/b`, where version 1 is: it is offered as version 2. -/
theorem moved_reuse : ¬ ∀ (env : WizardEnv) (m : SetupMachine) (requests : List WizardRequest),
    env.TEST_FLOW = false → m.progress .installedVersion = none →
    (run (SetupMachine.handle env) m requests).ReuseIsInstalled := by
  intro hall
  have hreuse := hall reuseEnv oldRelease [connectTo (js "/a"), install, connectTo (js "/b")] rfl rfl
  have hoffered := hreuse serverAnswers { testReleaseManifest reuseEnv with version := js "2" } (by decide +kernel)
  exact absurd hoffered (by decide +kernel)

end Sample

end ConsensusNode.Setup
