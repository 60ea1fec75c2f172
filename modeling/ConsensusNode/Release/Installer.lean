import ConsensusNode.Js.OrdMap
import ConsensusNode.Js.Text
import ConsensusNode.Lib.LockedSection
import ConsensusNode.Lib.Run

/-! # The installer

`scripts/install-release.sh`: it unpacks an artifact, gives it a directory of its own below `releases`,
installs its dependencies, turns the link `current` to it and removes old releases. Installers run side by
side (an update, the wizard, an operator) and exclude each other by a directory that only one of them can
make.

One step is one command of the script. What a command finds outside the install directory is part of the
input of its step (`Said`): its exit status, the artifact's content, the time. `kill` ends the shell alone: a
command that is a process of its own goes on, and it is the last one (`lastCommand`). `term`, for a signal that
runs the exit trap, is taken between two commands; what a command does that outlives the shell there is not
modelled. `install_dir` is an absolute path, names of releases are file names, and the install directory holds
nothing else. -/

namespace ConsensusNode.Release.Installer

open Js Lib.LockedSection

/-! ## The files -/

/-- A directory below `releases`. -/
structure ReleaseDir where
  /-- What `bun -e` prints for its `package.json`. -/
  version : JsString
  mtime : ℕ
  /-- Nothing of it has been removed. -/
  intact : Bool
  /-- `bun install` has gone through. -/
  installed : Bool
deriving DecidableEq

/-- `${install_dir}`: the links hold the name of the release they lead to. -/
structure InstallDir where
  releases : OrdMap JsString ReleaseDir
  current : Option JsString
  /-- `current.next`. -/
  next : Option JsString
deriving DecidableEq

/-! ## The variables of the script -/

/-- `running_release` is the release whose directory the script was started in, if it is one. -/
structure Env where
  artifact : JsString
  target_version : JsString
  release_retention : JsString
  running_release : Option JsString
deriving DecidableEq

/-- The command that comes next. -/
inductive Phase where
  | checks
  | makeInstallDir
  | acquireLock (waited : ℕ)
  /-- The directory of the lock is made, `lock_acquired` is not set yet. -/
  | markLock
  | makeReleases
  | makeTmp
  | unpack
  | checkPackage
  | readVersion
  | checkVersion
  | nameRelease
  | moveRelease
  | installDeps
  | linkNext
  | switch
  /-- `mv -T` has failed: `rm -f current`. -/
  | dropCurrent
  | moveNext
  | readCurrent
  | list
  | cleanup (candidates : List JsString)
  /-- `rm -rf` is at work. -/
  | remove (candidate : JsString) (candidates : List JsString)
  /-- The exit trap, with `lock_acquired` and the exit status. -/
  | trapTmp (lock_acquired : Bool) (code : ℕ)
  | trapLock (code : ℕ)
  | exited (code : ℕ)
  | killed
deriving DecidableEq

/-- `lock_acquired`. -/
def Phase.lock_acquired : Phase → Bool
  | checks | makeInstallDir | acquireLock _ | markLock | exited _ | killed => false
  | trapTmp acquired _ => acquired
  | _ => true

/-- The directory of the lock is this installer's. -/
def Phase.inside : Phase → Bool
  | markLock => true
  | ph => ph.lock_acquired

/-- A running installer. -/
structure Proc where
  env : Env
  /-- The shell has not been killed. -/
  shell : Bool
  phase : Phase
  tmp_dir : Bool
  /-- `version` of `consensus-node/package.json` in `tmp_dir`, if there is one. -/
  package : Option JsString
  version : JsString
  release_id : JsString
  current_real : JsString
  kept : ℕ
deriving DecidableEq

def Proc.start (env : Env) : Proc := ⟨env, true, .checks, false, none, [], [], [], 0⟩

/-- What a command says. -/
structure Said where
  status : ℕ
  /-- `[[ -f "${artifact}" ]]`. -/
  isFile : Bool
  /-- What `tar` has unpacked. -/
  package : Option JsString
  /-- `date -u +%Y%m%d%H%M%S`. -/
  date : ℕ
  mtime : ℕ
deriving DecidableEq

/-! ## Numbers of the shell -/

/-- The value of a number in `(( ))`, as a 64-bit integer; a leading zero makes it octal, and then the
digits 8 and 9 are an error. -/
def arith (s : JsString) : Option ℤ :=
  match s with
  | 48 :: d :: r =>
    if (d :: r).all fun c => c < 56 then
      some (Int.bmod ((d :: r).foldl (fun a c => a * 8 + (c.toNat - 48)) 0 : ℕ) (2 ^ 64))
    else none
  | s => some (Int.bmod (digitsVal s) (2 ^ 64))

/-- `[[ "${release_retention}" =~ ^[0-9]+$ ]] || (( release_retention < 1 ))`; an error in `(( ))` counts as
false. -/
def badRetention (s : JsString) : Bool :=
  s.isEmpty || !s.all isDigit || (match arith s with | some n => n < 1 | none => false)

/-- `(( kept < release_retention ))`. -/
def below (kept : ℕ) (limit : Option ℤ) : Bool :=
  match limit with
  | some n => (kept : ℤ) < n
  | none => false

/-! ## The script -/

/-- `release_id="${version}-$(date -u +%Y%m%d%H%M%S)-$$"`. -/
def releaseId (version : JsString) (date pid : ℕ) : JsString :=
  version ++ unit '-' :: decText date ++ unit '-' :: decText pid

/-- `ls -1dt releases/*`: newest first, then by name; the pattern leaves out names with a point in front. -/
def listing (m : OrdMap JsString ReleaseDir) : List JsString :=
  ((m.entries.filter fun e => e.1.head? != some (unit '.')).insertionSort fun a b =>
    b.2.mtime < a.2.mtime ∨ (a.2.mtime = b.2.mtime ∧ a.1 ≤ b.1)).map Prod.fst

/-- The candidate is the current release or the one the script was started in. -/
def Proc.protects (p : Proc) (candidate : JsString) : Bool :=
  candidate == p.current_real || p.env.running_release == some candidate

/-- Change a directory below `releases`, if it is there. -/
def InstallDir.touch (d : InstallDir) (id : JsString) (f : ReleaseDir → ReleaseDir) : InstallDir :=
  match d.releases.get? id with
  | some r => { d with releases := d.releases.set id (f r) }
  | none => d

/-- `mv "${release_root}" "${release_dir}"`: where the directory exists, the release goes into it. -/
def InstallDir.receive (d : InstallDir) (id : JsString) (r : ReleaseDir) : InstallDir :=
  if d.releases.has id then d else { d with releases := d.releases.set id r }

/-- The exit status of a command that has failed. -/
def Said.code (said : Said) : ℕ := if said.status = 0 then 1 else said.status

abbrev Seen := View Proc InstallDir

/-- Go on with the next command. -/
def goto (v : Seen) (ph : Phase) : Seen := { v with proc := { v.proc with phase := ph } }

/-- `exit`, and what `set -e` does: the exit trap comes next. -/
def exit (v : Seen) (code : ℕ) : Seen := goto v (.trapTmp v.proc.phase.lock_acquired code)

/-- A command that has to succeed. -/
def orExit (said : Said) (v : Seen) (next : Seen) : Seen :=
  if said.status = 0 then next else exit v said.status

/-- `cleanup_old_releases`, one candidate. -/
def cleanupCandidate (said : Said) (v : Seen) (candidate : JsString) (rest : List JsString) : Seen :=
  if v.store.releases.has candidate then
    orExit said v <|
      if v.proc.protects candidate || below v.proc.kept (arith v.proc.env.release_retention) then
        goto { v with proc := { v.proc with kept := v.proc.kept + 1 } } (.cleanup rest)
      else
        goto { v with store := v.store.touch candidate fun r => { r with intact := false } } (.remove candidate rest)
  else goto v (.cleanup rest)

/-- One command of the script, in the process `pid`. -/
def script (pid : ℕ) (said : Said) (v : Seen) : Seen :=
  let p := v.proc
  let d := v.store
  match p.phase with
  | .checks =>
    if p.env.artifact.isEmpty then goto v (.exited 64)
    else if !said.isFile then goto v (.exited 66)
    else if badRetention p.env.release_retention then goto v (.exited 64)
    else goto v .makeInstallDir
  -- the trap is set after this command
  | .makeInstallDir => if said.status = 0 then goto v (.acquireLock 0) else goto v (.exited said.status)
  | .acquireLock waited =>
    if said.status = 0 ∧ v.locked = false then goto { v with locked := true } .markLock
    else if 300 ≤ waited then exit v 75
    else goto v (.acquireLock (waited + 1))
  | .markLock => goto v .makeReleases
  | .makeReleases => orExit said v (goto v .makeTmp)
  | .makeTmp => orExit said v (goto { v with proc := { p with tmp_dir := true } } .unpack)
  | .unpack => orExit said v (goto { v with proc := { p with package := said.package } } .checkPackage)
  | .checkPackage => if p.package.isSome then goto v .readVersion else exit v 65
  | .readVersion => orExit said v (goto { v with proc := { p with version := p.package.getD [] } } .checkVersion)
  | .checkVersion =>
    if p.env.target_version ≠ [] ∧ p.version ≠ p.env.target_version then exit v 65 else goto v .nameRelease
  | .nameRelease =>
    orExit said v (goto { v with proc := { p with release_id := releaseId p.version said.date pid } } .moveRelease)
  | .moveRelease =>
    orExit said v
      (goto { v with store := d.receive p.release_id ⟨p.version, said.mtime, true, false⟩ } .installDeps)
  | .installDeps =>
    if d.releases.has p.release_id then
      orExit said { v with store := d.touch p.release_id fun r => { r with mtime := said.mtime } }
        (goto { v with store := d.touch p.release_id fun r => { r with mtime := said.mtime, installed := true } }
          .linkNext)
    else exit v said.code
  | .linkNext => orExit said v (goto { v with store := { d with next := some p.release_id } } .switch)
  | .switch =>
    match d.next with
    | some n =>
      if said.status = 0 then goto { v with store := { d with current := some n, next := none } } .readCurrent
      else goto v .dropCurrent
    | none => goto v .dropCurrent
  | .dropCurrent => orExit said v (goto { v with store := { d with current := none } } .moveNext)
  | .moveNext =>
    match d.next with
    | some n =>
      -- where `current` leads to a directory, the link goes into that
      orExit said v (goto { v with store := { d with current := d.current.or (some n), next := none } } .readCurrent)
    | none => exit v said.code
  | .readCurrent =>
    match d.current with
    | some c =>
      if d.releases.has c then orExit said v (goto { v with proc := { p with current_real := c } } .list)
      else exit v said.code
    | none => exit v said.code
  | .list => goto { v with proc := { p with kept := 0 } } (.cleanup (listing d.releases))
  | .cleanup [] => exit v 0
  | .cleanup (candidate :: rest) => cleanupCandidate said v candidate rest
  | .remove candidate rest =>
    orExit said v (goto { v with store := { d with releases := d.releases.delete candidate } } (.cleanup rest))
  -- under `set -e` a failure in the trap ends it
  | .trapTmp acquired code =>
    if p.tmp_dir ∧ said.status ≠ 0 then goto v (.exited said.status)
    else if acquired then goto v (.trapLock code)
    else goto v (.exited code)
  | .trapLock code => goto { v with locked := if said.status = 0 then false else v.locked } (.exited code)
  | .exited _ => v
  | .killed => v

/-- The command is a process of its own. The `mkdir` of the lock is one call, so that a kill meets it before or
after. -/
def Phase.outlives : Phase → Bool
  | checks | acquireLock _ | markLock | checkPackage | checkVersion | cleanup _ | exited _ | killed => false
  | _ => true

/-- The end of the command that was under way when the shell was killed. -/
def lastCommand (pid : ℕ) (said : Said) (v : Seen) : Seen :=
  { (if v.proc.phase.outlives then script pid said v else v) with proc := { v.proc with phase := .killed } }

/-- One command. -/
def command (pid : ℕ) (said : Said) (v : Seen) : Seen :=
  if v.proc.shell then script pid said v else lastCommand pid said v

/-- A signal that runs the exit trap; `sig` is its number. -/
def term (sig : ℕ) (v : Seen) : Seen :=
  if v.proc.shell then
    match v.proc.phase with
    | .exited _ => v
    | .killed => v
    | .checks => goto v (.exited (128 + sig))
    | .makeInstallDir => goto v (.exited (128 + sig))
    | .trapTmp _ _ => goto v (.exited (128 + sig))
    | .trapLock _ => goto v (.exited (128 + sig))
    | _ => exit v (128 + sig)
  else v

/-- A signal that runs nothing. -/
def kill (v : Seen) : Seen :=
  match v.proc.phase with
  | .exited _ => v
  | _ => { v with proc := { v.proc with shell := false } }

def Phase.ended : Phase → Bool
  | exited _ | killed => true
  | _ => false

/-! ## Many installers -/

inductive Action where
  | launch (env : Env)
  | command (said : Said)
  | term (sig : ℕ)
  | kill
deriving DecidableEq

/-- What happens in one process; process numbers are used again once the process and its command have ended. -/
def act (pid : ℕ) (a : Action) (v : View (Option Proc) InstallDir) : View (Option Proc) InstallDir :=
  match v.proc, a with
  | none, .launch env => { v with proc := some (.start env) }
  | none, _ => v
  | some p, .launch env => if p.phase.ended then { v with proc := some (.start env) } else v
  | some p, .command said => lift (Installer.command pid said ⟨v.locked, p, v.store⟩)
  | some p, .term sig => lift (Installer.term sig ⟨v.locked, p, v.store⟩)
  | some p, .kill => lift (Installer.kill ⟨v.locked, p, v.store⟩)
where lift (w : Seen) : View (Option Proc) InstallDir := ⟨w.locked, some w.proc, w.store⟩

abbrev World := Sys ℕ (Option Proc) InstallDir

/-- One event in one process. -/
def step (t : World) (e : ℕ × Action) : World := t.put e.1 (act e.1 e.2 (t.view e.1))

/-- No installer is running. -/
def idle (d : InstallDir) : World := ⟨false, fun _ => none, d⟩

end ConsensusNode.Release.Installer
