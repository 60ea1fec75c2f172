import ConsensusNode.Setup.Wizard

/-! # Updates of the setup progress

Operations of the wizard at the same time. A handler loads the whole progress when it starts, waits, and saves the
whole progress; what another operation has saved in between is overwritten. When a wallet session is done, the
progress is loaded again right before the save; the handlers do not do this.

* `no_update_lost`: if no operation saves between another one's load and save, every patch is in the progress. -/

namespace ConsensusNode.Setup

open Js Lib.Run Lib.SharedRecord

abbrev WizardState (ι : Type) := Shared SetupField (Option Json) WizardAsk WizardAsk.Answer JsString WizardReply ι

abbrev WizardTurn (ι : Type) := Turn WizardAsk WizardAsk.Answer ι

/-- The operations start. -/
def wizardStart {ι : Type} (env : WizardEnv) (progress : SetupProgress) (operations : ι → WizardOperation) :
    WizardState ι where
  record := progress
  procs i := (operations i).prog env

/-- **The setup wizard loses no update**, if every save is of an operation that has loaded or saved the progress
since any other one saved it. -/
theorem no_update_lost {ι : Type} [DecidableEq ι] (env : WizardEnv) (progress : SetupProgress)
    (operations : ι → WizardOperation) (turns : List (WizardTurn ι))
    (h : Steps Shared.step (fun _ s t => UpToDate s t) (wizardStart env progress operations) turns)
    (hapart : ∀ i, Apart i (run Shared.step (wizardStart env progress operations) turns).saves) (i : ι) :
    Contains (run Shared.step (wizardStart env progress operations) turns).record
      (patchesOf i (run Shared.step (wizardStart env progress operations) turns).saves) :=
  contains_patches (fun i => extends_prog env (operations i)) h i (hapart i)

namespace Sample

def wizardEnv : WizardEnv where
  TEST_FLOW := false
  homedir := js "/h"
  platform := js "linux-x64"

/-- The progress after the network evaluation. -/
def evaluated : SetupProgress := fun f => patchOf [(.operatorAgreementAccepted, some (.bool true)),
  (.operatorAgreementVersion, some (.str AGREEMENT_VERSION)), (.installDir, some (.str (js "/r"))),
  (.installedVersion, some (.str (js "1.0.0"))), (.evalPassedAt, some (.str (js "t")))] f |>.join

def address : JsString := js "0x52908400098527886e0f7030069857d2e4169ee7"

/-- The code in the mail is confirmed while the wallet session is done. -/
def mailAndWallet : Bool → WizardOperation
  | true => .emailVerify (.obj [(js "email", .str (js "a@b.c")), (js "verificationId", .str (js "v")),
      (js "code", .str (js "1"))]) 0
  | false => .walletSessionDone ⟨some address, none, none⟩

/-- Everything answers, and nothing fails. -/
def answers : (q : WizardAsk) → q.Answer
  | .fetchRequiredManifest _ => .error []
  | .pathExists _ => true
  | .downloadAndVerify _ => .error []
  | .installRelease _ _ _ => ⟨true, []⟩
  | .detectPublicIpv4 => .ok (js "192.0.2.1")
  | .detectPublicIpv6 => none
  | .fetchRegion _ _ => none
  | .loadJoinAuthorization => none
  | .runEval _ _ => ⟨true, []⟩
  | .startEmail _ _ => .ok .null
  | .verifyEmail _ _ _ _ => .ok (some (.str (js "token")), some (.num (.ofNat 900)))
  | .startWalletAddressServer _ => .ok (js "u")
  | .finishRegistration _ _ _ => .error 500 []

def turns (order : List Bool) : List (WizardTurn Bool) := order.map fun who => ⟨who, answers⟩

/-- One operation after the other. -/
def oneByOne : List (WizardTurn Bool) := turns [true, true, true, false, false]

/-- The wallet session is done while the server checks the code. -/
def overlapping : List (WizardTurn Bool) := turns [true, false, false, true, true]

theorem oneByOne_keeps : Contains (run Shared.step (wizardStart wizardEnv evaluated mailAndWallet) oneByOne).record
    (patchesOf true (run Shared.step (wizardStart wizardEnv evaluated mailAndWallet) oneByOne).saves) :=
  no_update_lost wizardEnv evaluated mailAndWallet oneByOne (by decide) (by decide) true

/-- The addresses of the wallet are lost. -/
theorem overlapping_loses : ¬ ∀ (env : WizardEnv) (progress : SetupProgress) (operations : Bool → WizardOperation)
    (turns : List (WizardTurn Bool)),
    (∀ i, Apart i (run Shared.step (wizardStart env progress operations) turns).saves) →
    ∀ i, Contains (run Shared.step (wizardStart env progress operations) turns).record
      (patchesOf i (run Shared.step (wizardStart env progress operations) turns).saves) := by
  intro hall
  have hcontains := hall wizardEnv evaluated mailAndWallet overlapping (by decide) false
  have hwallet := hcontains .evmAddress (some (.str address)) rfl
  exact absurd hwallet (by decide)

end Sample

end ConsensusNode.Setup
