import ConsensusNode.Release.Installer

/-! # What the lock of the installer protects

The installers as processes that share the install directory, in the sense of `Lib.LockedSection`. `Own` says,
command by command, what the installer that holds the lock has made of the directory; `Sound` is what it gives
back: `current` leads to a release that is whole and has its dependencies.

* `kind_act`: only the holder of the lock changes the directory, and only a free lock is taken.
* `own_script`: one command keeps `Own`.
* `guarded_run`: both over all runs.
* `current_always_ready`: wherever installers stop, `current` leads to a release that is ready.
* `current_stays`: where `mv -T` works, it is there at every moment.
* `finished_is_current`: an installer that reports success has made `current` its own release.
* `left_behind`: what a kill inside leaves is final, but for the command that goes on: no later installer
  succeeds or changes anything. -/

namespace ConsensusNode.Release.Installer

open Js Lib.LockedSection Lib.Run

/-! ## The files -/

section Files

variable {d : InstallDir} {id c : JsString} {f : ReleaseDir → ReleaseDir} {r : ReleaseDir}

@[simp] theorem touch_current (d : InstallDir) (id : JsString) (f : ReleaseDir → ReleaseDir) :
    (d.touch id f).current = d.current := by
  unfold InstallDir.touch
  split <;> rfl

@[simp] theorem touch_next (d : InstallDir) (id : JsString) (f : ReleaseDir → ReleaseDir) :
    (d.touch id f).next = d.next := by
  unfold InstallDir.touch
  split <;> rfl

theorem get?_touch (d : InstallDir) (id c : JsString) (f : ReleaseDir → ReleaseDir) :
    (d.touch id f).releases.get? c = if c = id then (d.releases.get? id).map f else d.releases.get? c := by
  unfold InstallDir.touch
  rcases hr : d.releases.get? id with _ | r
  · by_cases hc : c = id
    · rw [if_pos hc, hc, hr]
      rfl
    · rw [if_neg hc]
  · rw [OrdMap.get?_set]
    rfl

theorem get?_receive (hnew : d.releases.has id = false) :
    (d.receive id r).releases.get? c = if c = id then some r else d.releases.get? c := by
  unfold InstallDir.receive
  rw [hnew, if_neg (by simp), OrdMap.get?_set]

@[simp] theorem receive_current (d : InstallDir) (id : JsString) (r : ReleaseDir) :
    (d.receive id r).current = d.current := by
  unfold InstallDir.receive
  split <;> rfl

/-- The release is whole and has its dependencies. -/
def InstallDir.Ready (d : InstallDir) (id : JsString) : Prop :=
  ∃ r, d.releases.get? id = some r ∧ r.intact = true ∧ r.installed = true

/-- `current`, where it exists, leads to a release that is ready. -/
def InstallDir.Sound (d : InstallDir) : Prop := ∀ c, d.current = some c → d.Ready c

theorem InstallDir.Ready.has (h : d.Ready c) : d.releases.has c = true := by
  obtain ⟨r, hr, -⟩ := h
  simp [OrdMap.has, hr]

/-- Changes that take nothing from a release. -/
theorem InstallDir.Ready.touch (h : d.Ready c)
    (hf : ∀ r, r.intact = true → r.installed = true → (f r).intact = true ∧ (f r).installed = true) :
    (d.touch id f).Ready c := by
  obtain ⟨r, hr, hintact, hinstalled⟩ := h
  by_cases hc : c = id
  · refine ⟨f r, ?_, hf r hintact hinstalled⟩
    rw [get?_touch, if_pos hc, ← hc, hr]
    rfl
  · refine ⟨r, ?_, hintact, hinstalled⟩
    rw [get?_touch, if_neg hc, hr]

theorem InstallDir.Ready.touch_ne (h : d.Ready c) (hne : c ≠ id) : (d.touch id f).Ready c := by
  obtain ⟨r, hr, hready⟩ := h
  refine ⟨r, ?_, hready⟩
  rw [get?_touch, if_neg hne, hr]

theorem InstallDir.Ready.receive (h : d.Ready c) (hnew : d.releases.has id = false) :
    (d.receive id r).Ready c := by
  have hne : c ≠ id := by
    rintro rfl
    rw [h.has] at hnew
    cases hnew
  obtain ⟨r', hr, hready⟩ := h
  refine ⟨r', ?_, hready⟩
  rw [get?_receive hnew, if_neg hne, hr]

end Files

/-- A property of what a process has come to, by the kind of its action. -/
theorem act_induct {P : View (Option Proc) InstallDir → Prop} {pid : ℕ} {a : Action}
    {v : View (Option Proc) InstallDir} (hsame : P v)
    (hlaunch : ∀ env, (∀ q, v.proc = some q → q.phase.ended = true) → a = .launch env →
      P { v with proc := some (.start env) })
    (hcommand : ∀ q said, v.proc = some q → a = .command said →
      P (act.lift (command pid said ⟨v.locked, q, v.store⟩)))
    (hterm : ∀ q sig, v.proc = some q → P (act.lift (term sig ⟨v.locked, q, v.store⟩)))
    (hkill : ∀ q, v.proc = some q → P (act.lift (kill ⟨v.locked, q, v.store⟩))) : P (act pid a v) := by
  obtain ⟨b, _ | q, d⟩ := v
  · cases a with
    | launch env => exact hlaunch env (fun _ h => by cases h) rfl
    | command said => exact hsame
    | term sig => exact hsame
    | kill => exact hsame
  · cases a with
    | launch env =>
      have hact : act pid (.launch env) ⟨b, some q, d⟩ =
          if q.phase.ended then ⟨b, some (.start env), d⟩ else ⟨b, some q, d⟩ := rfl
      rw [hact]
      split_ifs with hended
      · refine hlaunch env (fun q' hq => ?_) rfl
        cases hq
        exact hended
      · exact hsame
    | command said => exact hcommand q said rfl rfl
    | term sig => exact hterm q sig rfl
    | kill => exact hkill q rfl

/-! ## Who may change what -/

/-- The process holds the lock. -/
def Holds (p : Option Proc) : Prop := ∃ q, p = some q ∧ q.phase.inside = true

theorem holds_some {p : Proc} : Holds (some p) ↔ p.phase.inside = true := by simp [Holds]

theorem not_holds_none : ¬ Holds none := by simp [Holds]

section Kinds

variable {said : Said} {v : Seen}

/-- The step of one process, in the terms of the lock. -/
def SeenKind (v w : Seen) : Prop :=
  Kind Holds ⟨v.locked, some v.proc, v.store⟩ ⟨w.locked, some w.proc, w.store⟩

/-- The work of a process that stays inside. -/
theorem seenKind_work {w : Seen} (h : v.proc.phase.inside = true) (h' : w.proc.phase.inside = true)
    (hlocked : w.locked = v.locked) : SeenKind v w := by
  unfold SeenKind
  rw [hlocked]
  exact .work (holds_some.mpr h) (holds_some.mpr h')

/-- A step that changes only the process. -/
theorem seenKind_goto (ph : Phase) (h : v.proc.phase.inside = false → ph.inside = false) :
    SeenKind v (goto v ph) := by
  by_cases hin : v.proc.phase.inside = true
  · by_cases hin' : ph.inside = true
    · exact .work (holds_some.mpr hin) (holds_some.mpr hin')
    · exact .abandon (holds_some.mpr hin) (by rw [holds_some]; exact hin')
  · refine .outside (by rw [holds_some]; exact hin) ?_
    rw [holds_some]
    have hout : ph.inside = false := h (by simpa using hin)
    show ¬ ph.inside = true
    rw [hout]
    exact Bool.false_ne_true

theorem seenKind_self : SeenKind v v := seenKind_goto v.proc.phase id

theorem lock_acquired_inside {ph : Phase} (h : ph.inside = false) : ph.lock_acquired = false := by
  cases ph <;> first | rfl | exact h

theorem outside_of_ended {ph : Phase} (h : ph.ended = true) : ph.inside = false := by
  cases ph <;> first | rfl | simp [Phase.ended] at h

theorem seenKind_exit (code : ℕ) : SeenKind v (exit v code) :=
  seenKind_goto _ fun h => lock_acquired_inside h

theorem seenKind_orExit {w next : Seen} (hlocked : w.locked = v.locked) (hphase : w.proc.phase = v.proc.phase)
    (hacquired : v.proc.phase.lock_acquired = true) (hnext : SeenKind v next) :
    SeenKind v (orExit said w next) := by
  unfold orExit
  split
  · exact hnext
  · refine seenKind_work ?_ ?_ hlocked
    · by_contra h
      rw [lock_acquired_inside (by simpa using h)] at hacquired
      cases hacquired
    · show (Phase.trapTmp w.proc.phase.lock_acquired _).inside = true
      rw [hphase, hacquired]
      rfl

theorem seenKind_cleanupCandidate {candidate : JsString} {rest : List JsString}
    (hph : v.proc.phase = .cleanup (candidate :: rest)) :
    SeenKind v (cleanupCandidate said v candidate rest) := by
  have hin : v.proc.phase.inside = true := by rw [hph]; rfl
  unfold cleanupCandidate
  split
  · refine seenKind_orExit rfl rfl (by rw [hph]; rfl) ?_
    split
    · exact seenKind_work hin rfl rfl
    · exact seenKind_work hin rfl rfl
  · exact seenKind_work hin rfl rfl

/-- **One command of the script respects the lock.** -/
theorem kind_script (pid : ℕ) (said : Said) (v : Seen) : SeenKind v (script pid said v) := by
  have hout : ∀ ph : Phase, ph.inside = false → SeenKind v (goto v ph) := fun ph h => seenKind_goto ph fun _ => h
  unfold script
  dsimp only
  cases hph : v.proc.phase with
  | checks =>
    dsimp only
    split_ifs
    all_goals exact hout _ rfl
  | makeInstallDir =>
    dsimp only
    split_ifs
    all_goals exact hout _ rfl
  | acquireLock waited =>
    have hnot : ¬ Holds (some v.proc) := by rw [holds_some, hph]; simp [Phase.inside, Phase.lock_acquired]
    dsimp only
    split_ifs with hfree hwaited
    · unfold SeenKind
      rw [hfree.2]
      exact .enter hnot (holds_some.mpr rfl)
    · exact seenKind_exit 75
    · exact hout _ rfl
  | trapTmp acquired code =>
    dsimp only
    split_ifs with hfail hacquired
    · exact hout _ rfl
    · exact seenKind_work (by rw [hph, hacquired]; rfl) rfl rfl
    · exact hout _ rfl
  | trapLock code =>
    have hin : Holds (some v.proc) := by rw [holds_some, hph]; rfl
    have hnot : ¬ Holds (some (goto v (.exited code)).proc) := by
      rw [holds_some]
      simp [goto, Phase.inside, Phase.lock_acquired]
    dsimp only
    split_ifs with hstatus
    · exact .leave hin hnot
    · exact .abandon hin hnot
  | exited code => exact seenKind_self
  | killed => exact seenKind_self
  | markLock => exact seenKind_work (by rw [hph]; rfl) rfl rfl
  | list => exact seenKind_work (by rw [hph]; rfl) rfl rfl
  | checkPackage =>
    dsimp only
    split_ifs
    · exact seenKind_work (by rw [hph]; rfl) rfl rfl
    · exact seenKind_exit 65
  | checkVersion =>
    dsimp only
    split_ifs
    · exact seenKind_exit 65
    · exact seenKind_work (by rw [hph]; rfl) rfl rfl
  | installDeps =>
    dsimp only
    split_ifs
    · exact seenKind_orExit rfl rfl (by rw [hph]; rfl) (seenKind_work (by rw [hph]; rfl) rfl rfl)
    · exact seenKind_exit _
  | switch =>
    dsimp only
    split
    · split_ifs
      all_goals exact seenKind_work (by rw [hph]; rfl) rfl rfl
    · exact seenKind_work (by rw [hph]; rfl) rfl rfl
  | moveNext =>
    dsimp only
    split
    · exact seenKind_orExit rfl rfl (by rw [hph]; rfl) (seenKind_work (by rw [hph]; rfl) rfl rfl)
    · exact seenKind_exit _
  | readCurrent =>
    dsimp only
    split
    · split_ifs
      · exact seenKind_orExit rfl rfl (by rw [hph]; rfl) (seenKind_work (by rw [hph]; rfl) rfl rfl)
      · exact seenKind_exit _
    · exact seenKind_exit _
  | cleanup candidates =>
    rcases candidates with _ | ⟨candidate, rest⟩
    · exact seenKind_exit 0
    · exact seenKind_cleanupCandidate hph
  | makeReleases | makeTmp | unpack | readVersion | nameRelease | moveRelease | linkNext | dropCurrent
  | remove candidate candidates =>
    exact seenKind_orExit rfl rfl (by rw [hph]; rfl) (seenKind_work (by rw [hph]; rfl) rfl rfl)

/-- Outside, no command that outlives the shell takes the lock. -/
theorem outside_script (pid : ℕ) (houtlives : v.proc.phase.outlives = true) (hout : v.proc.phase.inside = false) :
    (script pid said v).proc.phase.inside = false := by
  have hphase : v.proc.phase = .makeInstallDir ∨ ∃ code, v.proc.phase = .trapTmp false code := by
    cases hph : v.proc.phase <;> rw [hph] at houtlives hout
    case makeInstallDir => exact .inl rfl
    case trapTmp acquired code =>
      obtain rfl : acquired = false := hout
      exact .inr ⟨code, rfl⟩
    all_goals first
      | exact absurd houtlives Bool.false_ne_true
      | exact absurd hout.symm Bool.false_ne_true
  unfold script
  rcases hphase with hph | ⟨code, hph⟩
  · simp only [hph]
    split_ifs <;> rfl
  · simp only [hph, Bool.false_eq_true, if_false]
    split_ifs <;> rfl

theorem kind_lastCommand (pid : ℕ) (said : Said) (v : Seen) : SeenKind v (lastCommand pid said v) := by
  unfold lastCommand
  split_ifs with houtlives
  · refine (kind_script pid said v).gone ?_ (by rw [holds_some]; exact Bool.false_ne_true)
    by_cases hin : v.proc.phase.inside = true
    · exact .inl (holds_some.mpr hin)
    · refine .inr ?_
      rw [holds_some, outside_script pid houtlives (by simpa using hin)]
      exact Bool.false_ne_true
  · exact seenKind_goto _ fun _ => rfl

/-- **One command respects the lock**, with its shell or without. -/
theorem kind_command (pid : ℕ) (said : Said) (v : Seen) : SeenKind v (command pid said v) := by
  unfold command
  split_ifs
  · exact kind_script pid said v
  · exact kind_lastCommand pid said v

theorem kind_term (sig : ℕ) (v : Seen) : SeenKind v (term sig v) := by
  unfold term
  split_ifs
  · split
    · exact seenKind_self
    · exact seenKind_self
    · exact seenKind_goto _ fun _ => rfl
    · exact seenKind_goto _ fun _ => rfl
    · exact seenKind_goto _ fun _ => rfl
    · exact seenKind_goto _ fun _ => rfl
    · exact seenKind_exit _
  · exact seenKind_self

theorem kind_kill (v : Seen) : SeenKind v (kill v) := by
  unfold kill
  split
  · exact seenKind_self
  · by_cases hin : v.proc.phase.inside = true
    · exact seenKind_work hin hin rfl
    · exact .outside (by rw [holds_some]; exact hin) (by rw [holds_some]; exact hin)

theorem not_holds_start (env : Env) : ¬ Holds (some (Proc.start env)) := by
  rw [holds_some]
  exact Bool.false_ne_true

/-- **Every action of an installer respects the lock.** -/
theorem kind_act (pid : ℕ) (a : Action) (v : View (Option Proc) InstallDir) : Kind Holds v (act pid a v) := by
  have hseen : ∀ q w, v.proc = some q → SeenKind ⟨v.locked, q, v.store⟩ w → Kind Holds v (act.lift w) := by
    rintro q w hq hw
    obtain ⟨b, o, d⟩ := v
    obtain rfl : o = some q := hq
    exact hw
  refine act_induct ?_ ?_ ?_ ?_ ?_
  · obtain ⟨b, _ | q, d⟩ := v
    · exact .outside not_holds_none not_holds_none
    · exact seenKind_self (v := ⟨b, q, d⟩)
  · intro env hended _
    refine .outside ?_ (not_holds_start env)
    rintro ⟨q, hq, hin⟩
    rw [outside_of_ended (hended q hq)] at hin
    cases hin
  · exact fun q said hq _ => hseen q _ hq (kind_command pid said _)
  · exact fun q sig hq => hseen q _ hq (kind_term sig _)
  · exact fun q hq => hseen q _ hq (kind_kill _)

end Kinds

/-! ## What the holder of the lock has made -/

section Own

/-- The version is the one of the artifact, and the one that was asked for. -/
def Proc.Checked (p : Proc) : Prop :=
  p.package = some p.version ∧ (p.env.target_version ≠ [] → p.version = p.env.target_version)

/-- The release of this installer is in its place. -/
def Placed (p : Proc) (d : InstallDir) : Prop :=
  ∃ r, d.releases.get? p.release_id = some r ∧ r.intact = true ∧ r.version = p.version

/-- It is ready. -/
def Built (p : Proc) (d : InstallDir) : Prop :=
  p.Checked ∧ ∃ r, d.releases.get? p.release_id = some r ∧ r.intact = true ∧ r.installed = true ∧
    r.version = p.version

/-- It is the current one. -/
def Switched (p : Proc) (d : InstallDir) : Prop := Built p d ∧ d.current = some p.release_id

/-- What the installer that holds the lock relies on at its next command. -/
def Stage (p : Proc) (d : InstallDir) : Prop :=
  match p.phase with
  | .readVersion => p.package.isSome = true
  | .checkVersion => p.package = some p.version
  | .nameRelease | .moveRelease => p.Checked
  | .installDeps => p.Checked ∧ Placed p d
  | .linkNext => Built p d
  | .switch | .dropCurrent => Built p d ∧ d.next = some p.release_id
  | .moveNext => Built p d ∧ d.next = some p.release_id ∧ d.current = none
  | .readCurrent => Switched p d
  | .list | .cleanup _ => Switched p d ∧ p.current_real = p.release_id
  | .remove candidate _ => Switched p d ∧ p.current_real = p.release_id ∧ candidate ≠ p.release_id
  | .trapTmp _ code | .trapLock code => code = 0 → Switched p d
  | _ => True

def Own (p : Option Proc) (d : InstallDir) : Prop := d.Sound ∧ ∀ q, p = some q → Stage q d

/-- A release gets a name that no release has. -/
def Fresh (p : Proc) (d : InstallDir) : Prop := p.phase = .moveRelease → d.releases.has p.release_id = false

variable {p : Proc} {d : InstallDir} {v : Seen} {said : Said}

theorem Built.ready (h : Built p d) : d.Ready p.release_id := by
  obtain ⟨-, r, hr, hintact, hinstalled, -⟩ := h
  exact ⟨r, hr, hintact, hinstalled⟩

theorem Switched.sound (h : Switched p d) : d.Sound := by
  intro c hc
  rw [h.2] at hc
  cases hc
  exact h.1.ready

/-- The link is turned to the release. -/
theorem Built.switched {c n : Option JsString} (h : Built p d) (hc : c = some p.release_id) :
    Switched p { d with current := c, next := n } := ⟨h, hc⟩

theorem Switched.touch_ne {id : JsString} {f : ReleaseDir → ReleaseDir} (h : Switched p d) (hne : id ≠ p.release_id) :
    Switched p (d.touch id f) := by
  obtain ⟨⟨hchecked, r, hr, hrest⟩, hcurrent⟩ := h
  refine ⟨⟨hchecked, r, ?_, hrest⟩, ?_⟩
  · rw [get?_touch, if_neg hne.symm, hr]
  · rw [touch_current, hcurrent]

theorem Switched.delete {id : JsString} (h : Switched p d) (hne : id ≠ p.release_id) :
    Switched p { d with releases := d.releases.delete id } := by
  obtain ⟨⟨hchecked, r, hr, hrest⟩, hcurrent⟩ := h
  refine ⟨⟨hchecked, r, ?_, hrest⟩, hcurrent⟩
  show (d.releases.delete id).get? p.release_id = some r
  rw [OrdMap.get?_delete_ne _ hne.symm, hr]

theorem Placed.installed {mtime : ℕ} (h : Placed p d) (hchecked : p.Checked) :
    Built p (d.touch p.release_id fun r => { r with mtime, installed := true }) := by
  obtain ⟨r, hr, hintact, hversion⟩ := h
  refine ⟨hchecked, { r with mtime, installed := true }, ?_, hintact, rfl, hversion⟩
  rw [get?_touch, if_pos rfl, hr]
  rfl

theorem InstallDir.Sound.touch {id : JsString} {f : ReleaseDir → ReleaseDir} (h : d.Sound)
    (hf : ∀ r, r.intact = true → r.installed = true → (f r).intact = true ∧ (f r).installed = true) :
    (d.touch id f).Sound := by
  intro c hc
  rw [touch_current] at hc
  exact (h c hc).touch hf

theorem InstallDir.Sound.receive {id : JsString} {r : ReleaseDir} (h : d.Sound) (hnew : d.releases.has id = false) :
    (d.receive id r).Sound := by
  intro c hc
  rw [receive_current] at hc
  exact (h c hc).receive hnew

/-- The directory is sound and as the next command of this installer needs it. -/
def Good (v : Seen) : Prop := v.store.Sound ∧ Stage v.proc v.store

theorem good_exit {code : ℕ} (h : v.store.Sound) (hcode : code ≠ 0) : Good (exit v code) :=
  ⟨h, fun h0 => absurd h0 hcode⟩

theorem good_orExit {w next : Seen} (hw : w.store.Sound) (hnext : Good next) : Good (orExit said w next) := by
  unfold orExit
  split
  · exact hnext
  · rename_i hstatus
    exact good_exit hw hstatus

theorem code_ne_zero : said.code ≠ 0 := by
  unfold Said.code
  split
  · exact one_ne_zero
  · rename_i h
    exact h

theorem good_cleanupCandidate {candidate : JsString} {rest : List JsString}
    (h : Switched v.proc v.store) (hreal : v.proc.current_real = v.proc.release_id) :
    Good (cleanupCandidate said v candidate rest) := by
  unfold cleanupCandidate
  split_ifs with hhas hkeep
  · exact good_orExit h.sound ⟨h.sound, h, hreal⟩
  · have hne : candidate ≠ v.proc.release_id := by
      intro he
      have hprotects : v.proc.protects candidate = true := by simp [Proc.protects, hreal, he]
      simp [hprotects] at hkeep
    have hafter := h.touch_ne (f := fun r => { r with intact := false }) hne
    exact good_orExit h.sound ⟨hafter.sound, hafter, hreal, hne⟩
  · exact ⟨h.sound, h, hreal⟩

/-- **One command of the script keeps what the installer has made.** -/
theorem good_script (pid : ℕ) (h : Good v) (hfresh : Fresh v.proc v.store) : Good (script pid said v) := by
  obtain ⟨hsound, hstage⟩ := h
  unfold script Stage at *
  dsimp only
  cases hph : v.proc.phase with
  | checks =>
    dsimp only
    split_ifs
    all_goals exact ⟨hsound, trivial⟩
  | makeInstallDir =>
    dsimp only
    split_ifs
    all_goals exact ⟨hsound, trivial⟩
  | acquireLock waited =>
    dsimp only
    split_ifs
    · exact ⟨hsound, trivial⟩
    · exact good_exit hsound (by omega)
    · exact ⟨hsound, trivial⟩
  | markLock => exact ⟨hsound, trivial⟩
  | makeReleases | makeTmp | unpack => exact good_orExit hsound ⟨hsound, trivial⟩
  | checkPackage =>
    dsimp only
    split_ifs with hpackage
    · exact ⟨hsound, hpackage⟩
    · exact good_exit hsound (by omega)
  | readVersion =>
    rw [hph] at hstage
    obtain ⟨version, hversion⟩ := Option.isSome_iff_exists.mp hstage
    refine good_orExit hsound ⟨hsound, ?_⟩
    show v.proc.package = some (v.proc.package.getD [])
    rw [hversion]
    rfl
  | checkVersion =>
    rw [hph] at hstage
    dsimp only
    split_ifs with hversion
    · exact good_exit hsound (by omega)
    · refine ⟨hsound, hstage, ?_⟩
      intro htarget
      by_contra hne
      exact hversion ⟨htarget, hne⟩
  | nameRelease =>
    rw [hph] at hstage
    exact good_orExit hsound ⟨hsound, hstage⟩
  | moveRelease =>
    rw [hph] at hstage
    have hnew := hfresh hph
    refine good_orExit hsound ⟨hsound.receive hnew, hstage, ⟨v.proc.version, said.mtime, true, false⟩, ?_, rfl, rfl⟩
    show (v.store.receive v.proc.release_id _).releases.get? v.proc.release_id = _
    rw [get?_receive hnew, if_pos rfl]
  | installDeps =>
    rw [hph] at hstage
    dsimp only
    split_ifs
    · have hmtime : (v.store.touch v.proc.release_id fun r => { r with mtime := said.mtime }).Sound :=
        hsound.touch fun r hintact hinstalled => ⟨hintact, hinstalled⟩
      have hdeps : (v.store.touch v.proc.release_id fun r =>
          { r with mtime := said.mtime, installed := true }).Sound :=
        hsound.touch fun r hintact _ => ⟨hintact, rfl⟩
      exact good_orExit hmtime ⟨hdeps, hstage.2.installed hstage.1⟩
    · exact good_exit hsound code_ne_zero
  | linkNext =>
    rw [hph] at hstage
    exact good_orExit hsound ⟨hsound, hstage, rfl⟩
  | switch =>
    rw [hph] at hstage
    obtain ⟨hbuilt, hnext⟩ := hstage
    dsimp only
    rw [hnext]
    dsimp only
    split_ifs
    · have hswitched : Switched v.proc { v.store with current := some v.proc.release_id, next := none } :=
        hbuilt.switched rfl
      exact ⟨hswitched.sound, hswitched⟩
    · exact ⟨hsound, hbuilt, hnext⟩
  | dropCurrent =>
    rw [hph] at hstage
    refine good_orExit hsound ⟨?_, hstage.1, hstage.2, rfl⟩
    intro c hc
    cases hc
  | moveNext =>
    rw [hph] at hstage
    obtain ⟨hbuilt, hnext, hcurrent⟩ := hstage
    dsimp only
    rw [hnext]
    dsimp only
    have hswitched : Switched v.proc
        { v.store with current := v.store.current.or (some v.proc.release_id), next := none } :=
      hbuilt.switched (by rw [hcurrent]; rfl)
    exact good_orExit hsound ⟨hswitched.sound, hswitched⟩
  | readCurrent =>
    rw [hph] at hstage
    have hcurrent := hstage.2
    dsimp only
    rw [hcurrent]
    dsimp only
    split_ifs
    · exact good_orExit hsound ⟨hsound, hstage, rfl⟩
    · exact good_exit hsound code_ne_zero
  | list =>
    rw [hph] at hstage
    exact ⟨hsound, hstage⟩
  | cleanup candidates =>
    rw [hph] at hstage
    rcases candidates with _ | ⟨candidate, rest⟩
    · exact ⟨hsound, fun _ => hstage.1⟩
    · exact good_cleanupCandidate hstage.1 hstage.2
  | remove candidate rest =>
    rw [hph] at hstage
    obtain ⟨hswitched, hreal, hne⟩ := hstage
    have hafter := hswitched.delete hne
    exact good_orExit hsound ⟨hafter.sound, hafter, hreal⟩
  | trapTmp acquired code =>
    rw [hph] at hstage
    dsimp only
    split_ifs
    · exact ⟨hsound, trivial⟩
    · exact ⟨hsound, hstage⟩
    · exact ⟨hsound, trivial⟩
  | trapLock code => exact ⟨hsound, trivial⟩
  | exited code =>
    refine ⟨hsound, ?_⟩
    unfold Stage
    rw [hph]
    trivial
  | killed =>
    refine ⟨hsound, ?_⟩
    unfold Stage
    rw [hph]
    trivial

theorem good_lastCommand (pid : ℕ) (h : Good v) (hfresh : Fresh v.proc v.store) : Good (lastCommand pid said v) := by
  unfold lastCommand
  split_ifs
  · exact ⟨(good_script pid h hfresh).1, trivial⟩
  · exact ⟨h.1, trivial⟩

theorem good_command (pid : ℕ) (h : Good v) (hfresh : Fresh v.proc v.store) : Good (command pid said v) := by
  unfold command
  split_ifs
  · exact good_script pid h hfresh
  · exact good_lastCommand pid h hfresh

theorem good_term (sig : ℕ) (h : Good v) : Good (term sig v) := by
  unfold term
  split_ifs
  · split
    · exact h
    · exact h
    · exact ⟨h.1, trivial⟩
    · exact ⟨h.1, trivial⟩
    · exact ⟨h.1, trivial⟩
    · exact ⟨h.1, trivial⟩
    · exact good_exit h.1 (by omega)
  · exact h

theorem good_kill (h : Good v) : Good (kill v) := by
  unfold kill
  split
  · exact h
  · exact ⟨h.1, h.2⟩

theorem own_some {b : Bool} : Own (some p) d ↔ Good ⟨b, p, d⟩ := by
  simp [Own, Good]

theorem own_act {v : View (Option Proc) InstallDir} (pid : ℕ) (a : Action)
    (hfresh : ∀ p, v.proc = some p → Fresh p v.store) (h : Own v.proc v.store) :
    Own (act pid a v).proc (act pid a v).store := by
  have hgood : ∀ q, v.proc = some q → Good ⟨v.locked, q, v.store⟩ := fun q hq => ⟨h.1, h.2 q hq⟩
  refine act_induct (P := fun w => Own w.proc w.store) h ?_ ?_ ?_ ?_
  · exact fun env _ _ => (own_some (b := v.locked)).mpr ⟨h.1, trivial⟩
  · exact fun q said hq _ => own_some.mpr (good_command pid (hgood q hq) (hfresh q hq))
  · exact fun q sig hq => own_some.mpr (good_term sig (hgood q hq))
  · exact fun q hq => own_some.mpr (good_kill (hgood q hq))

/-- Outside, nothing has been made. -/
theorem stage_of_outside (h : p.phase.inside = false) : Stage p d ∨ ∃ code, p.phase = .trapTmp false code := by
  unfold Stage
  cases hph : p.phase <;> rw [hph] at h
  case trapTmp acquired code =>
    obtain rfl : acquired = false := h
    exact .inr ⟨code, rfl⟩
  all_goals first | exact .inl trivial | cases h

/-- An installer that gives up waiting does not come in any more. -/
theorem outside_act {v : View (Option Proc) InstallDir} {pid : ℕ} {a : Action} {code : ℕ} (hp : v.proc = some p)
    (hph : p.phase = .trapTmp false code) : ¬ Holds (act pid a v).proc := by
  obtain ⟨b, o, d⟩ := v
  obtain rfl : o = some p := hp
  cases a with
  | launch env =>
    have hself : act pid (.launch env) ⟨b, some p, d⟩ = ⟨b, some p, d⟩ := by simp [act, hph, Phase.ended]
    rw [hself, holds_some, hph]
    exact Bool.false_ne_true
  | command said =>
    show ¬ Holds (some (command pid said ⟨b, p, d⟩).proc)
    rw [holds_some]
    unfold command
    split_ifs
    · have hscript : (script pid said ⟨b, p, d⟩).proc.phase.inside = false :=
        outside_script pid (by rw [hph]; rfl) (by rw [hph]; rfl)
      rw [hscript]
      exact Bool.false_ne_true
    · exact Bool.false_ne_true
  | term sig =>
    show ¬ Holds (some (term sig ⟨b, p, d⟩).proc)
    rw [holds_some]
    simp only [term, hph]
    split_ifs
    · exact Bool.false_ne_true
    · rw [hph]
      exact Bool.false_ne_true
  | kill =>
    show ¬ Holds (some (kill ⟨b, p, d⟩).proc)
    rw [holds_some]
    simp only [kill, hph]
    exact Bool.false_ne_true

/-- What one process does in one step, where `C` holds. -/
def Acts (C : View (Option Proc) InstallDir → Prop) (v w : View (Option Proc) InstallDir) : Prop :=
  C v ∧ ∃ pid a, w = act pid a v

theorem disciplined_acts (C : View (Option Proc) InstallDir → Prop) : Disciplined (Acts C) Holds := by
  rintro v w ⟨-, pid, a, rfl⟩
  exact kind_act pid a v

/-- A name of a release is not used twice. -/
def FreshName (v : View (Option Proc) InstallDir) : Prop := ∀ p, v.proc = some p → Fresh p v.store

/-- **The lock protects `current`.** -/
theorem protects_acts : Protects (Acts FreshName) Holds InstallDir.Sound InstallDir.Sound Own where
  enter := by
    rintro v w ⟨hfresh, pid, a, rfl⟩ hout hin hsound
    refine own_act pid a hfresh ⟨hsound, ?_⟩
    intro p hp
    have hinside : p.phase.inside = false := by
      rw [hp, holds_some] at hout
      simpa using hout
    rcases stage_of_outside (d := v.store) hinside with hstage | ⟨code, hph⟩
    · exact hstage
    · exact absurd hin (outside_act hp hph)
  work := by
    rintro v w ⟨hfresh, pid, a, rfl⟩ - - hown
    exact own_act pid a hfresh hown
  leave := by
    rintro v w ⟨hfresh, pid, a, rfl⟩ - - - hown
    exact (own_act pid a hfresh hown).1
  abandon := by
    rintro v w ⟨hfresh, pid, a, rfl⟩ - - - hown
    exact (own_act pid a hfresh hown).1

end Own

/-! ## Exit statuses -/

section Quits

variable {p : Proc} {v w : Seen} {said : Said}

/-- An installer without the lock does not report success. -/
def Quits (p : Proc) : Prop := ∀ code, p.phase = .trapTmp false code → code ≠ 0

variable (v w) in
/-- Success is reported by the end of the exit trap alone. -/
def Honest : Prop := Quits w.proc ∧ (w.proc.phase = .exited 0 → v.proc.phase = .trapLock 0 ∨ v.proc.phase = .exited 0)

theorem honest_of_ne (htrap : ∀ code, w.proc.phase ≠ .trapTmp false code) (hexited : w.proc.phase ≠ .exited 0) :
    Honest v w := ⟨fun code h => absurd h (htrap code), fun h => absurd h hexited⟩

theorem honest_self (h : Quits v.proc) : Honest v v := ⟨h, .inr⟩

theorem honest_exited {code : ℕ} (h : code ≠ 0) : Honest v (goto v (.exited code)) :=
  honest_of_ne (by simp [goto]) (by simpa [goto] using h)

theorem honest_exit {u : Seen} {code : ℕ} (h : code ≠ 0 ∨ u.proc.phase.lock_acquired = true) :
    Honest v (exit u code) := by
  refine ⟨?_, fun h0 => absurd h0 (by simp [exit, goto])⟩
  intro code' hph
  obtain ⟨hacquired, rfl⟩ : u.proc.phase.lock_acquired = false ∧ code = code' := by
    simpa [exit, goto] using hph
  rcases h with h | h
  · exact h
  · rw [hacquired] at h
    cases h

theorem honest_orExit {u next : Seen} (h : Honest v next) : Honest v (orExit said u next) := by
  unfold orExit
  split
  · exact h
  · rename_i hstatus
    exact honest_exit (.inl hstatus)

/-- **One command of the script is honest about its end.** -/
theorem honest_script (pid : ℕ) (said : Said) (v : Seen) (h : Quits v.proc) : Honest v (script pid said v) := by
  unfold script
  dsimp only
  cases hph : v.proc.phase with
  | checks =>
    dsimp only
    split_ifs
    · exact honest_exited (by omega)
    · exact honest_exited (by omega)
    · exact honest_exited (by omega)
    · exact honest_of_ne (by simp [goto]) (by simp [goto])
  | makeInstallDir =>
    dsimp only
    split_ifs with hstatus
    · exact honest_of_ne (by simp [goto]) (by simp [goto])
    · exact honest_exited hstatus
  | acquireLock waited =>
    dsimp only
    split_ifs
    · exact honest_of_ne (by simp [goto]) (by simp [goto])
    · exact honest_exit (.inl (by omega))
    · exact honest_of_ne (by simp [goto]) (by simp [goto])
  | markLock | list => exact honest_of_ne (by simp [goto]) (by simp [goto])
  | makeReleases | makeTmp | unpack | readVersion | nameRelease | moveRelease | linkNext | dropCurrent
  | remove candidate candidates =>
    exact honest_orExit (honest_of_ne (by simp [goto]) (by simp [goto]))
  | checkPackage =>
    dsimp only
    split_ifs
    · exact honest_of_ne (by simp [goto]) (by simp [goto])
    · exact honest_exit (.inl (by omega))
  | checkVersion =>
    dsimp only
    split_ifs
    · exact honest_exit (.inl (by omega))
    · exact honest_of_ne (by simp [goto]) (by simp [goto])
  | installDeps =>
    dsimp only
    split_ifs
    · exact honest_orExit (honest_of_ne (by simp [goto]) (by simp [goto]))
    · exact honest_exit (.inl code_ne_zero)
  | switch =>
    dsimp only
    split
    · split_ifs
      all_goals exact honest_of_ne (by simp [goto]) (by simp [goto])
    · exact honest_of_ne (by simp [goto]) (by simp [goto])
  | moveNext =>
    dsimp only
    split
    · exact honest_orExit (honest_of_ne (by simp [goto]) (by simp [goto]))
    · exact honest_exit (.inl code_ne_zero)
  | readCurrent =>
    dsimp only
    split
    · split_ifs
      · exact honest_orExit (honest_of_ne (by simp [goto]) (by simp [goto]))
      · exact honest_exit (.inl code_ne_zero)
    · exact honest_exit (.inl code_ne_zero)
  | cleanup candidates =>
    rcases candidates with _ | ⟨candidate, rest⟩
    · exact honest_exit (.inr (by rw [hph]; rfl))
    · dsimp only
      unfold cleanupCandidate
      split_ifs
      · exact honest_orExit (honest_of_ne (by simp [goto]) (by simp [goto]))
      · exact honest_orExit (honest_of_ne (by simp [goto]) (by simp [goto]))
      · exact honest_of_ne (by simp [goto]) (by simp [goto])
  | trapTmp acquired code =>
    dsimp only
    split_ifs with hfail hacquired
    · exact honest_exited hfail.2
    · exact honest_of_ne (by simp [goto]) (by simp [goto])
    · obtain rfl : acquired = false := by simpa using hacquired
      exact honest_exited (h code hph)
  | trapLock code =>
    refine ⟨fun code' h' => absurd h' (by simp [goto]), ?_⟩
    intro h0
    obtain rfl : code = 0 := by simpa [goto] using h0
    exact .inl hph
  | exited code => exact honest_self h
  | killed => exact honest_self h

theorem honest_command (pid : ℕ) (said : Said) (v : Seen) (h : Quits v.proc) : Honest v (command pid said v) := by
  unfold command
  split_ifs
  · exact honest_script pid said v h
  · exact honest_of_ne (by simp [lastCommand]) (by simp [lastCommand])

theorem honest_term (sig : ℕ) (h : Quits v.proc) : Honest v (term sig v) := by
  unfold term
  split_ifs
  · split
    · exact honest_self h
    · exact honest_self h
    · exact honest_exited (by omega)
    · exact honest_exited (by omega)
    · exact honest_exited (by omega)
    · exact honest_exited (by omega)
    · exact honest_exit (.inl (by omega))
  · exact honest_self h

theorem honest_kill (h : Quits v.proc) : Honest v (kill v) := by
  unfold kill
  split
  · exact honest_self h
  · exact ⟨h, .inr⟩

/-- After an action of a process: it does not report success without the lock, and it has reported success at
the end of the exit trap alone. -/
theorem honest_act {v : View (Option Proc) InstallDir} (pid : ℕ) (a : Action) (h : ∀ q, v.proc = some q → Quits q)
    (hp : (act pid a v).proc = some p) :
    Quits p ∧ (p.phase = .exited 0 → ∃ q, v.proc = some q ∧ (q.phase = .trapLock 0 ∨ q.phase = .exited 0)) := by
  have hseen : ∀ q w, v.proc = some q → Honest ⟨v.locked, q, v.store⟩ w → (act.lift w).proc = some p →
      Quits p ∧ (p.phase = .exited 0 → ∃ q, v.proc = some q ∧ (q.phase = .trapLock 0 ∨ q.phase = .exited 0)) := by
    intro q w hq hw hwp
    obtain rfl : w.proc = p := Option.some.inj hwp
    exact ⟨hw.1, fun h0 => ⟨q, hq, hw.2 h0⟩⟩
  refine act_induct (P := fun w => w.proc = some p → Quits p ∧ (p.phase = .exited 0 →
    ∃ q, v.proc = some q ∧ (q.phase = .trapLock 0 ∨ q.phase = .exited 0))) ?_ ?_ ?_ ?_ ?_ hp
  · exact fun hq => ⟨h p hq, fun h0 => ⟨p, hq, .inr h0⟩⟩
  · intro env _ _ hstart
    obtain rfl : Proc.start env = p := Option.some.inj hstart
    exact ⟨fun code h0 => by simp [Proc.start] at h0, fun h0 => by simp [Proc.start] at h0⟩
  · exact fun q said hq _ => hseen q _ hq (honest_command pid said _ (h q hq))
  · exact fun q sig hq => hseen q _ hq (honest_term sig (h q hq))
  · exact fun q hq => hseen q _ hq (honest_kill (h q hq))

end Quits

/-! ## The link -/

section Link

variable {p : Proc} {v : Seen} {said : Said}

/-- The installer is not between removing the link and making it again. -/
def InGap (p : Proc) : Prop := p.phase = .dropCurrent ∨ p.phase = .moveNext

/-- **Where `mv -T` works, one command does not take the link away.** -/
theorem keeps_link (pid : ℕ) (hgap : ¬ InGap v.proc)
    (hmv : v.proc.phase = .switch → said.status = 0 ∧ v.store.next.isSome = true) :
    ¬ InGap (script pid said v).proc ∧
      (v.store.current.isSome = true → (script pid said v).store.current.isSome = true) := by
  unfold script
  dsimp only
  cases hph : v.proc.phase <;> dsimp only [orExit, exit, goto]
  case dropCurrent => exact absurd (.inl hph) hgap
  case moveNext => exact absurd (.inr hph) hgap
  case switch =>
    obtain ⟨hstatus, hnext⟩ := hmv hph
    obtain ⟨n, hn⟩ := Option.isSome_iff_exists.mp hnext
    simp only [hn, hstatus, if_true, InGap]
    simp
  case cleanup candidates =>
    rcases candidates with _ | ⟨c, rest⟩
    · simp [InGap]
    · dsimp only [cleanupCandidate, orExit, exit, goto]
      split_ifs <;> simp [InGap]
  case readCurrent =>
    split
    · split_ifs <;> simp [InGap]
    · simp [InGap]
  all_goals first | (split_ifs <;> simp [InGap, hph]) | simp [InGap, hph]

theorem keeps_link_command (pid : ℕ) (hgap : ¬ InGap v.proc)
    (hmv : v.proc.phase = .switch → said.status = 0 ∧ v.store.next.isSome = true) :
    ¬ InGap (command pid said v).proc ∧
      (v.store.current.isSome = true → (command pid said v).store.current.isSome = true) := by
  have hscript := keeps_link pid hgap hmv
  unfold command
  split_ifs
  · exact hscript
  · refine ⟨by simp [lastCommand, InGap], ?_⟩
    unfold lastCommand
    split_ifs
    · exact hscript.2
    · exact fun h => h

theorem keeps_link_act {v : View (Option Proc) InstallDir} (pid : ℕ) (a : Action)
    (hgap : ∀ p, v.proc = some p → ¬ InGap p)
    (hmv : ∀ p said, v.proc = some p → p.phase = .switch → a = .command said →
      said.status = 0 ∧ v.store.next.isSome = true) :
    (∀ p, (act pid a v).proc = some p → ¬ InGap p) ∧
      (v.store.current.isSome = true → (act pid a v).store.current.isSome = true) := by
  have hlift : ∀ w : Seen, ¬ InGap w.proc ∧ (v.store.current.isSome = true → w.store.current.isSome = true) →
      (∀ p, (act.lift w).proc = some p → ¬ InGap p) ∧
        (v.store.current.isSome = true → (act.lift w).store.current.isSome = true) := by
    intro w hw
    refine ⟨?_, hw.2⟩
    intro p hp
    obtain rfl : w.proc = p := Option.some.inj hp
    exact hw.1
  refine act_induct (P := fun w => (∀ p, w.proc = some p → ¬ InGap p) ∧
    (v.store.current.isSome = true → w.store.current.isSome = true)) ⟨hgap, fun h => h⟩ ?_ ?_ ?_ ?_
  · intro env _ _
    refine ⟨?_, fun h => h⟩
    intro p hp
    obtain rfl : Proc.start env = p := Option.some.inj hp
    simp [InGap, Proc.start]
  · exact fun q said hq he => hlift _ (keeps_link_command pid (hgap q hq) fun hph => hmv q said hq hph he)
  · intro q sig hq
    have hq' := hgap q hq
    refine hlift _ ⟨?_, ?_⟩
    · unfold term
      cases hph : q.phase <;> dsimp only <;> split_ifs <;> simp_all [InGap, goto, exit]
    · unfold term
      cases hph : q.phase <;> dsimp only <;> split_ifs <;> exact fun h => h
  · intro q hq
    have hq' := hgap q hq
    refine hlift _ ⟨?_, ?_⟩
    · unfold kill
      cases hph : q.phase <;> simp_all [InGap]
    · unfold kill
      cases hph : q.phase <;> exact fun h => h

end Link

/-! ## Over runs -/

section Runs

variable {t : World} {es : List (ℕ × Action)} {d : InstallDir} {e : ℕ × Action} {pid : ℕ}

theorem step_self (t : World) (e : ℕ × Action) : (step t e).procs e.1 = (act e.1 e.2 (t.view e.1)).proc :=
  Sys.put_self _ _ _

theorem step_ne (h : pid ≠ e.1) : (step t e).procs pid = t.procs pid := Sys.put_ne _ h _

theorem view_eq {p : Option Proc} (hp : t.procs pid = p) : t.view pid = ⟨t.locked, p, t.store⟩ := by
  rw [← hp]
  rfl

/-- What every step keeps of the process that makes it holds of every process. -/
theorem procs_step {P : Proc → Prop} (h : ∀ pid p, t.procs pid = some p → P p)
    (hact : ∀ p, (act e.1 e.2 (t.view e.1)).proc = some p → P p) :
    ∀ pid p, (step t e).procs pid = some p → P p := by
  intro pid p hp
  by_cases hpid : pid = e.1
  · subst hpid
    rw [step_self] at hp
    exact hact p hp
  · rw [step_ne hpid] at hp
    exact h pid p hp

theorem reaches_run {C : View (Option Proc) InstallDir → Prop}
    (hes : Steps step (fun _ t e => C (t.view e.1)) t es) :
    Relation.ReflTransGen (Moves (Acts C)) t (run step t es) :=
  run_induct (J := fun _ t' => Relation.ReflTransGen (Moves (Acts C)) t t') .refl
    (fun _ e h hC => h.tail ⟨e.1, _, ⟨hC, e.1, e.2, rfl⟩, rfl⟩) hes

/-- No two releases get the same name: no process number comes twice in one second. -/
def NamesFresh (_ : List (ℕ × Action)) (t : World) (e : ℕ × Action) : Prop := FreshName (t.view e.1)

theorem guarded_idle (hd : d.Sound) : Guarded Holds InstallDir.Sound InstallDir.Sound Own (idle d) where
  exclusive := ⟨fun _ h => absurd h not_holds_none, fun _ _ h => absurd h not_holds_none⟩
  free := fun _ => hd
  own := fun _ h => absurd h not_holds_none
  left := fun _ => hd

theorem guarded_run (hd : d.Sound) (hes : Steps step NamesFresh (idle d) es) :
    Guarded Holds InstallDir.Sound InstallDir.Sound Own (run step (idle d) es) :=
  guarded_reachable (disciplined_acts _) protects_acts (reaches_run hes) (guarded_idle hd)

/-- The directory is sound whoever has the lock. -/
theorem sound_of_guarded (h : Guarded Holds InstallDir.Sound InstallDir.Sound Own t) : t.store.Sound := by
  by_cases hfree : t.locked = false
  · exact h.free hfree
  · by_cases hin : ∃ p, Holds (t.procs p)
    · obtain ⟨p, hp⟩ := hin
      exact (h.own p hp).1
    · exact h.left ⟨by simpa using hfree, fun p hp => hin ⟨p, hp⟩⟩

/-- No installer without the lock is about to report success. -/
def AllQuit (t : World) : Prop := ∀ pid p, t.procs pid = some p → Quits p

theorem AllQuit.step (h : AllQuit t) : AllQuit (step t e) :=
  procs_step h fun _ hp => (honest_act e.1 e.2 (fun q hq => h e.1 q hq) hp).1

theorem allQuit_run (h : AllQuit t) (es : List (ℕ × Action)) : AllQuit (run step t es) :=
  run_induct (C := fun _ _ _ => True) (J := fun _ t' => AllQuit t') h (fun _ _ ih _ => ih.step) fun _ _ _ _ => trivial

theorem allQuit_idle (d : InstallDir) : AllQuit (idle d) := fun _ _ h => by cases h

/-- The step in which an installer reports success. -/
def Succeeds (t : World) (e : ℕ × Action) (p : Proc) : Prop :=
  (∀ q, t.procs e.1 = some q → q.phase ≠ .exited 0) ∧ (step t e).procs e.1 = some p ∧ p.phase = .exited 0

/-- It is the last one of the exit trap, by the holder of the lock. -/
theorem Succeeds.trapLock {p : Proc} (ht : AllQuit t) (h : Succeeds t e p) :
    ∃ q, t.procs e.1 = some q ∧ q.phase = .trapLock 0 ∧ q.shell = true ∧ p = { q with phase := .exited 0 } ∧
      (step t e).store = t.store := by
  obtain ⟨hbefore, hp, h0⟩ := h
  rw [step_self] at hp
  obtain ⟨q, hq, hph | hph⟩ := (honest_act e.1 e.2 (fun q hq => ht e.1 q hq) hp).2 h0
  · have hview : t.view e.1 = ⟨t.locked, some q, t.store⟩ := view_eq hq
    refine ⟨q, hq, hph, ?_⟩
    show _ ∧ p = _ ∧ (act e.1 e.2 (t.view e.1)).store = t.store
    rw [hview] at hp ⊢
    rcases e with ⟨pid, env | said | sig | _⟩
    · simp only [act, hph, Phase.ended, Bool.false_eq_true, if_false] at hp
      obtain rfl : q = p := Option.some.inj hp
      rw [hph] at h0
      cases h0
    · obtain rfl : (command pid said ⟨t.locked, q, t.store⟩).proc = p := Option.some.inj hp
      simp only [act, act.lift]
      unfold command at h0 ⊢
      split_ifs at h0 ⊢ with hshell
      · refine ⟨hshell, ?_, ?_⟩
        all_goals simp only [script, hph, goto]
      · cases h0
    · obtain rfl : (term sig ⟨t.locked, q, t.store⟩).proc = p := Option.some.inj hp
      simp only [term, hph, goto] at h0
      split_ifs at h0
      · simp only [Phase.exited.injEq] at h0
        omega
      · rw [hph] at h0
        cases h0
    · simp only [act, act.lift, kill, hph] at hp
      rw [← Option.some.inj hp] at h0
      cases h0
  · exact absurd hph (hbefore q hq)

/-- **Wherever installers stop, `current` leads to a release that is ready.** Any number of them run side by
side, and each may fail or be stopped at any command; at most one is inside. -/
theorem current_always_ready (hd : d.Sound) (hes : Steps step NamesFresh (idle d) es) :
    (∀ c, (run step (idle d) es).store.current = some c → (run step (idle d) es).store.Ready c) ∧
      ∀ p q, Holds ((run step (idle d) es).procs p) → Holds ((run step (idle d) es).procs q) → p = q := by
  have hguarded := guarded_run hd hes
  exact ⟨sound_of_guarded hguarded, hguarded.exclusive.one⟩

/-- New names, and a `mv` that knows `-T` and does not fail. -/
def MvReplaces (pre : List (ℕ × Action)) (t : World) (e : ℕ × Action) : Prop :=
  NamesFresh pre t e ∧ ∀ p said, t.procs e.1 = some p → p.phase = .switch → e.2 = .command said → said.status = 0

/-- **Where `mv` replaces the link, `current` never goes away**, whatever else fails or is stopped. -/
theorem current_stays (hd : d.Sound) (hcurrent : d.current.isSome = true)
    (hes : Steps step MvReplaces (idle d) es) : (run step (idle d) es).store.current.isSome = true := by
  have hrun : Guarded Holds InstallDir.Sound InstallDir.Sound Own (run step (idle d) es) ∧
      (∀ pid p, (run step (idle d) es).procs pid = some p → ¬ InGap p) ∧
      (run step (idle d) es).store.current.isSome = true := by
    refine run_induct (J := fun _ t => Guarded Holds InstallDir.Sound InstallDir.Sound Own t ∧
      (∀ pid p, t.procs pid = some p → ¬ InGap p) ∧ t.store.current.isSome = true)
      ⟨guarded_idle hd, fun _ _ h => absurd h (by simp [idle]), hcurrent⟩ ?_ hes
    rintro pre e ⟨hguarded, hgap, hsome⟩ ⟨hfresh, hmv⟩
    generalize run step (idle d) pre = t at *
    have hact := keeps_link_act e.1 e.2 (v := t.view e.1) (fun p hp => hgap e.1 p hp) <| by
      intro p said hp hph he
      have hholds : Holds (t.procs e.1) := ⟨p, hp, by rw [hph]; rfl⟩
      have hstage : Stage p t.store := (hguarded.own e.1 hholds).2 p hp
      unfold Stage at hstage
      rw [hph] at hstage
      refine ⟨hmv p said hp hph he, ?_⟩
      show t.store.next.isSome = true
      rw [hstage.2]
      rfl
    exact ⟨hguarded.put (disciplined_acts _) protects_acts ⟨hfresh, e.1, e.2, rfl⟩, procs_step hgap hact.1,
      hact.2 hsome⟩
  exact hrun.2.2

/-- **An installer that reports success has made its own release the current one**: the release of its
artifact, in the version that was asked for. -/
theorem finished_is_current {e : ℕ × Action} {p : Proc} (hd : d.Sound)
    (hes : Steps step NamesFresh (idle d) es) (hp : Succeeds (run step (idle d) es) e p) :
    (step (run step (idle d) es) e).store.current = some p.release_id ∧
      ∃ r, (step (run step (idle d) es) e).store.releases.get? p.release_id = some r ∧ r.intact = true ∧
        r.installed = true ∧ p.package = some r.version ∧
        (p.env.target_version ≠ [] → r.version = p.env.target_version) := by
  obtain ⟨q, hq, hph, -, rfl, hstore⟩ := hp.trapLock (allQuit_run (allQuit_idle d) es)
  have hholds : Holds ((run step (idle d) es).procs e.1) := by
    rw [hq, holds_some, hph]
    rfl
  have hstage : Stage q (run step (idle d) es).store := ((guarded_run hd hes).own e.1 hholds).2 q hq
  unfold Stage at hstage
  rw [hph] at hstage
  obtain ⟨⟨⟨hpackage, htarget⟩, r, hr, hintact, hinstalled, hversion⟩, hcurrent⟩ := hstage rfl
  rw [hstore]
  refine ⟨hcurrent, r, hr, hintact, hinstalled, ?_, ?_⟩
  · rw [hversion]
    exact hpackage
  · rw [hversion]
    exact htarget

/-- What is left when the holder of the lock is gone is final. -/
theorem abandoned_run (hquit : AllQuit t) (ht : Abandoned Holds t) (es : List (ℕ × Action)) :
    (run step t es).store = t.store ∧ ∀ e p, ¬ Succeeds (run step t es) e p := by
  have hreaches : Relation.ReflTransGen (Moves (Acts fun _ => True)) t (run step t es) :=
    reaches_run fun _ _ _ _ => trivial
  obtain ⟨habandoned, hstore⟩ := abandoned_reachable (disciplined_acts _) hreaches ht
  refine ⟨hstore, ?_⟩
  intro e p hp
  obtain ⟨q, hq, hph, -⟩ := hp.trapLock (allQuit_run hquit es)
  refine habandoned.2 e.1 ?_
  rw [hq, holds_some, hph]
  rfl

/-! ### An installer that is killed -/

/-- What the command of the process `pid` says that ends in this event. -/
def commandOf (pid : ℕ) : ℕ × Action → Option Said
  | (p, .command said) => if p = pid then some said else none
  | _ => none

variable {q : Proc}

/-- The holder of the lock has been killed, and its command goes on. -/
structure Orphaned (pid : ℕ) (q : Proc) (t : World) : Prop where
  proc : t.procs pid = some q
  shell : q.shell = false
  inside : q.phase.inside = true
  exclusive : Exclusive Holds t

theorem Orphaned.holds (h : Orphaned pid q t) : Holds (t.procs pid) := ⟨q, h.proc, h.inside⟩

theorem Orphaned.view (h : Orphaned pid q t) : t.view pid = ⟨true, some q, t.store⟩ := by
  rw [view_eq h.proc, h.exclusive.locked pid h.holds]

theorem orphaned_kill (ht : Exclusive Holds t) (hq : (step t (pid, .kill)).procs pid = some q)
    (hin : q.phase.inside = true) :
    Orphaned pid q (step t (pid, .kill)) ∧ (step t (pid, .kill)).store = t.store := by
  have hexclusive : Exclusive Holds (step t (pid, .kill)) := ht.put (kind_act pid .kill _)
  have hput : (step t (pid, .kill)).procs pid = (act pid .kill (t.view pid)).proc := step_self t (pid, .kill)
  rcases hbefore : t.procs pid with _ | p
  · rw [hput, view_eq hbefore] at hq
    cases hq
  · have hkilled : act pid .kill (t.view pid) = act.lift (kill ⟨t.locked, p, t.store⟩) := by
      rw [view_eq hbefore]
      rfl
    obtain rfl : (kill ⟨t.locked, p, t.store⟩).proc = q := by
      rw [hput, hkilled] at hq
      exact Option.some.inj hq
    have hstore : (step t (pid, .kill)).store = t.store := by
      show (act pid .kill (t.view pid)).store = t.store
      rw [hkilled]
      show (kill ⟨t.locked, p, t.store⟩).store = t.store
      unfold kill
      split <;> rfl
    refine ⟨⟨hq, ?_, hin, hexclusive⟩, hstore⟩
    unfold kill at hin ⊢
    split at hin
    · rename_i code hph
      rw [show p.phase = .exited code from hph] at hin
      cases hin
    · rfl

/-- Until the command ends, nothing changes. -/
theorem Orphaned.step (h : Orphaned pid q t) (he : commandOf pid e = none) :
    Orphaned pid q (step t e) ∧ (Installer.step t e).store = t.store := by
  have hexclusive : Exclusive Holds (Installer.step t e) := h.exclusive.put (kind_act e.1 e.2 _)
  by_cases hpid : e.1 = pid
  · have hsame : act e.1 e.2 (t.view e.1) = t.view e.1 := by
      rcases e with ⟨p, a⟩
      obtain rfl : p = pid := hpid
      rw [h.view]
      cases a with
      | launch env =>
        have hended : q.phase.ended = false := by
          by_contra hnot
          have hout : q.phase.inside = false := outside_of_ended (by simpa using hnot)
          rw [h.inside] at hout
          cases hout
        simp [act, hended]
      | command said => simp [commandOf] at he
      | term sig => simp [act, act.lift, term, h.shell]
      | kill =>
        have hself : { q with shell := false } = q := by
          rw [← h.shell]
        simp only [act, act.lift, kill, hself]
        split <;> rfl
    have hstep : Installer.step t e = t := by
      unfold Installer.step
      rw [hsame, Sys.put_view]
    rw [hstep]
    exact ⟨h, rfl⟩
  · have hout : ¬ Holds (t.procs e.1) := fun hin => hpid (h.exclusive.one e.1 pid hin h.holds)
    refine ⟨⟨?_, h.shell, h.inside, hexclusive⟩, (kind_act e.1 e.2 (t.view e.1)).store_eq hout⟩
    rw [step_ne (Ne.symm hpid)]
    exact h.proc

theorem script_locked {said : Said} {v : Seen} (pid : ℕ) (houtlives : v.proc.phase.outlives = true)
    (hlock : ∀ code, v.proc.phase = .trapLock code → said.status ≠ 0) : (script pid said v).locked = v.locked := by
  unfold script
  dsimp only
  cases hph : v.proc.phase <;> dsimp only [orExit, exit, goto]
  case acquireLock waited =>
    rw [hph] at houtlives
    cases houtlives
  case cleanup candidates =>
    rw [hph] at houtlives
    cases houtlives
  case trapLock code => rw [if_neg (hlock code hph)]
  all_goals
    repeat' split
    all_goals rfl

/-- The command ends, and the lock stays behind, unless the command gives it back. -/
theorem Orphaned.commandEnds (h : Orphaned pid q t) (said : Said)
    (hlock : ∀ code, q.phase = .trapLock code → said.status ≠ 0) :
    Abandoned Holds (Installer.step t (pid, .command said)) ∧
      (Installer.step t (pid, .command said)).store = (lastCommand pid said ⟨true, q, t.store⟩).store := by
  have hact : act pid (.command said) (t.view pid) = act.lift (lastCommand pid said ⟨true, q, t.store⟩) := by
    rw [h.view]
    simp [act, command, h.shell]
  refine ⟨⟨?_, ?_⟩, ?_⟩
  · show (act pid (.command said) (t.view pid)).locked = true
    rw [hact]
    show (lastCommand pid said ⟨true, q, t.store⟩).locked = true
    unfold lastCommand
    split_ifs with houtlives
    · exact script_locked (v := ⟨true, q, t.store⟩) pid houtlives hlock
    · rfl
  · intro r hr
    by_cases hrp : r = pid
    · subst hrp
      rw [step_self t (r, .command said), hact] at hr
      exact absurd (holds_some.mp hr) Bool.false_ne_true
    · rw [step_ne hrp] at hr
      exact hrp (h.exclusive.one r pid hr h.holds)
  · show (act pid (.command said) (t.view pid)).store = _
    rw [hact]
    rfl

theorem Orphaned.not_succeeds {p : Proc} (h : Orphaned pid q t) (hquit : AllQuit t) : ¬ Succeeds t e p := by
  intro hp
  obtain ⟨q', hq', hph, hshell, -⟩ := hp.trapLock hquit
  have hin : Holds (t.procs e.1) := by
    rw [hq', holds_some, hph]
    rfl
  obtain rfl : e.1 = pid := h.exclusive.one e.1 pid hin h.holds
  obtain rfl : q' = q := Option.some.inj (hq'.symm.trans h.proc)
  rw [h.shell] at hshell
  cases hshell

/-- What the directory comes to once the command `q` was at has said `said`, if it has ended. -/
def leftOver (pid : ℕ) (q : Proc) (d : InstallDir) (said : Option Said) : InstallDir :=
  match said with
  | none => d
  | some said => (lastCommand pid said ⟨true, q, d⟩).store

theorem orphaned_run (h : Orphaned pid q t) (hquit : AllQuit t) (later : List (ℕ × Action))
    (hlock : ∀ code said, q.phase = .trapLock code → later.findSome? (commandOf pid) = some said → said.status ≠ 0) :
    (run step t later).store = leftOver pid q t.store (later.findSome? (commandOf pid)) ∧
      ∀ e p, ¬ Succeeds (run step t later) e p := by
  induction later generalizing t with
  | nil => exact ⟨rfl, fun e p => h.not_succeeds hquit⟩
  | cons e later ih =>
    rw [run_cons]
    rcases he : commandOf pid e with _ | said
    · obtain ⟨h', hstore⟩ := h.step he
      rw [List.findSome?_cons_of_isNone (by simp [he]), ← hstore]
      refine ih h' hquit.step ?_
      intro code said hph hsaid
      exact hlock code said hph (by simpa [he] using hsaid)
    · rw [List.findSome?_cons_of_isSome (by simp [he]), he]
      obtain rfl : e = (pid, .command said) := by
        rcases e with ⟨p, env | said' | sig | _⟩
        all_goals simp [commandOf] at he
        obtain ⟨rfl, rfl⟩ := he
        rfl
      obtain ⟨habandoned, hstore⟩ := h.commandEnds said fun code hph => hlock code said hph (by simp [commandOf])
      have hlater := abandoned_run hquit.step habandoned later
      rw [hstore] at hlater
      exact hlater

/-- **A kill leaves the lock behind for good.** From the command after `mkdir` to the end of the exit trap,
an installer that is killed is the last one: nothing but the command it was at still changes the directory, and
no installer succeeds, unless that command is the `rmdir` of the lock and goes through. -/
theorem left_behind {pid : ℕ} {q : Proc} (hd : d.Sound) (hes : Steps step NamesFresh (idle d) es)
    (hq : (step (run step (idle d) es) (pid, .kill)).procs pid = some q) (hin : q.phase.inside = true)
    (later : List (ℕ × Action))
    (hlock : ∀ code said, q.phase = .trapLock code → later.findSome? (commandOf pid) = some said → said.status ≠ 0) :
    (run step (step (run step (idle d) es) (pid, .kill)) later).store =
        leftOver pid q (run step (idle d) es).store (later.findSome? (commandOf pid)) ∧
      ∀ e p, ¬ Succeeds (run step (step (run step (idle d) es) (pid, .kill)) later) e p := by
  obtain ⟨horphaned, hstore⟩ := orphaned_kill (guarded_run hd hes).exclusive hq hin
  have hlater := orphaned_run horphaned (allQuit_run (allQuit_idle d) es).step later hlock
  rw [hstore] at hlater
  exact hlater

end Runs

/-! ## A sample run -/

instance decidableFreshName (v : View (Option Proc) InstallDir) : Decidable (FreshName v) :=
  decidable_of_iff ((v.proc.all fun p => p.phase != .moveRelease || !v.store.releases.has p.release_id) = true) <| by
    unfold FreshName Fresh
    rcases v.proc with _ | p
    · simp
    · simp only [Option.all_some, Bool.or_eq_true, bne_iff_ne, Bool.not_eq_true', Option.some.injEq, forall_eq']
      tauto

instance decidableNamesFresh (pre : List (ℕ × Action)) (t : World) (e : ℕ × Action) :
    Decidable (NamesFresh pre t e) := inferInstanceAs (Decidable (FreshName (t.view e.1)))

instance decidableHolds (p : Option Proc) : Decidable (Holds p) :=
  decidable_of_iff ((p.any fun q => q.phase.inside) = true) <| by
    rcases p with _ | q <;> simp [Holds]

namespace Sample

/-- Two releases, the newer one current. -/
def dir : InstallDir where
  releases := ⟨[(js "1.0.0", ⟨js "1.0.0", 5, true, true⟩), (js "0.9.0", ⟨js "0.9.0", 4, true, true⟩)], by decide⟩
  current := some (js "1.0.0")
  next := none

/-- An update to 2.0.0, that the running release has started. -/
def env : Env := ⟨js "/tmp/node.tar.gz", js "2.0.0", js "1", some (js "1.0.0")⟩

/-- Everything goes well. -/
def said : Said := ⟨0, true, some (js "2.0.0"), 20260101000000, 9⟩

/-- The update runs for `n` commands, while another installer waits for the lock. -/
def events (n : ℕ) : List (ℕ × Action) :=
  (7, .launch env) :: (8, .launch env) :: List.replicate n (7, .command said) ++ [(8, .command said)]

/-- The update at its last command. -/
def last : Proc where
  env := env
  shell := true
  phase := .trapLock 0
  tmp_dir := true
  package := some (js "2.0.0")
  version := js "2.0.0"
  release_id := js "2.0.0-20260101000000-7"
  current_real := js "2.0.0-20260101000000-7"
  kept := 2

theorem sound : dir.Sound := by
  intro c hc
  cases hc
  exact ⟨_, rfl, rfl, rfl⟩

theorem mv_replaces {n : ℕ} (h : Steps step NamesFresh (idle dir) (events n)) :
    Steps step MvReplaces (idle dir) (events n) := by
  intro pre e post he
  refine ⟨h pre e post he, ?_⟩
  intro p said' _ _ hsaid
  have hmem : e ∈ events n := by rw [he]; simp
  have hevent : e = (7, .launch env) ∨ e = (8, .launch env) ∨ e = (7, .command said) ∨ e = (8, .command said) := by
    simp only [events, List.cons_append, List.mem_cons, List.mem_append, List.mem_replicate, List.not_mem_nil,
      or_false] at hmem
    tauto
  rcases hevent with rfl | rfl | rfl | rfl
  · cases hsaid
  · cases hsaid
  · cases hsaid
    rfl
  · cases hsaid
    rfl

theorem current_ready : (run step (idle dir) (events 15)).store.Ready (js "2.0.0-20260101000000-7") :=
  (current_always_ready sound (by decide +kernel)).1 _ (by decide +kernel)

theorem succeeds : Succeeds (run step (idle dir) (events 23)) (7, .command said) { last with phase := .exited 0 } := by
  have hlast : (run step (idle dir) (events 23)).procs 7 = some last := by decide +kernel
  refine ⟨?_, by decide +kernel, rfl⟩
  intro q hq
  rw [hlast] at hq
  cases hq
  simp [last]

theorem updated : (step (run step (idle dir) (events 23)) (7, .command said)).store.current =
    some (js "2.0.0-20260101000000-7") :=
  (finished_is_current sound (by decide +kernel) succeeds).1

/-- The update, killed at its `bun install`. -/
def killed : Proc := { last with shell := false, phase := .installDeps, current_real := [], kept := 0 }

theorem killed_for_good : (run step (step (run step (idle dir) (events 12)) (7, .kill))
      ((7, .command said) :: List.replicate 400 (8, .command said))).store.releases.get?
        (js "2.0.0-20260101000000-7") = some ⟨js "2.0.0", 9, true, true⟩ ∧
    (run step (step (run step (idle dir) (events 12)) (7, .kill))
      ((7, .command said) :: List.replicate 400 (8, .command said))).store.current = some (js "1.0.0") := by
  have hkilled : (step (run step (idle dir) (events 12)) (7, .kill)).procs 7 = some killed := by decide +kernel
  rw [(left_behind sound (by decide +kernel) hkilled rfl _ fun code said h => by cases h).1]
  exact ⟨by decide +kernel, by decide +kernel⟩

end Sample

end ConsensusNode.Release.Installer
