import ConsensusNode.Platform
import ConsensusNode.Js.OrdMap
import ConsensusNode.Lib.Run

/-! # Updates of the node

The update handlers of `clients/control-client.ts` with `compareManifests` and `downloadAndVerify` of
`update.ts`. `UPDATE_PREPARE` stores a record at once or when its download has ended; `UPDATE_APPLY` is
acknowledged if the record is the one it names, and starts a timer; the timer runs the installer with the
record that is stored when it fires. Messages, ends of downloads and timers come in any order.

* `UpdateInv`: the stored record comes from a prepare message, and every timer waits for it.
* `installs_acknowledged`: in a run in which no record is stored while a timer waits for another update, the
  installer gets the record of the update that was acknowledged.

A record that is stored while a timer waits is the one that is installed. -/

namespace ConsensusNode.Clients

open Js Lib.Run

variable (p : Platform)

/-! ### Manifests and downloads -/

/-- The fields of a manifest that an update reads. -/
structure ReleaseManifest where
  version : JsString
  platform : JsString
  commit : JsString
  routesHash : JsString
  downloadUrl : Option JsString := none
  tarballSha256 : Option JsString := none
deriving DecidableEq

/-- A text that is neither `undefined` nor empty. -/
def present : Option JsString → Bool
  | some (_ :: _) => true
  | _ => false

/-- The `reasons` of `compareManifests`. -/
def compareManifests (current required : ReleaseManifest) : List JsString :=
  (if current.version ≠ required.version then [js "version"] else []) ++
  (if current.platform ≠ required.platform then [js "platform"] else []) ++
  (if current.commit ≠ required.commit then [js "commit"] else []) ++
  (if current.routesHash ≠ required.routesHash then [js "routes_hash"] else []) ++
  if present required.tarballSha256 ∧ current.tarballSha256 ≠ required.tarballSha256 then
    [js "tarball_sha256"] else []

/-- How the download of an artifact goes. -/
inductive FetchOutcome where
  /-- `fetch` or the file system threw. -/
  | failed (message : JsString)
  /-- A status that is not a success. -/
  | refused (status : ℕ)
  | bytes (body : Bytes)
deriving DecidableEq

structure Downloaded where
  path : JsString
  sha256 : JsString
deriving DecidableEq

def stripShaPrefix (value : JsString) : JsString :=
  if startsWith value (js "sha256:") then value.drop 7 else value

/-- The running release, and the path of a file in the download directory. -/
structure UpdateEnv where
  current : ReleaseManifest
  downloadPath : JsString → JsString

def downloadAndVerify (env : UpdateEnv) (manifest : ReleaseManifest) (outcome : FetchOutcome) :
    Except JsString Downloaded :=
  if !present manifest.downloadUrl then
    .error (js "Required manifest does not include download_url")
  else match outcome with
    | .failed message => .error message
    | .refused status => .error (js "Failed to download update artifact: HTTP " ++ decText status)
    | .bytes body =>
      let sha256 := sha256Hex p body
      let expected := manifest.tarballSha256.getD []
      if present manifest.tarballSha256 ∧ sha256 ≠ stripShaPrefix expected then
        .error (js "Artifact SHA-256 mismatch: expected " ++ expected ++ js ", got " ++ sha256)
      else .ok {
        path := env.downloadPath
          (js "consensus-node-" ++ manifest.version ++ js "-" ++ manifest.platform ++ js ".tgz")
        sha256 }

/-! ### Messages and state -/

structure UpdatePrepare where
  id : Option JsString := none
  updateId : JsString
  manifest : ReleaseManifest
deriving DecidableEq

structure UpdateApply where
  id : Option JsString := none
  updateId : JsString
deriving DecidableEq

structure PreparedUpdate where
  updateId : JsString
  manifest : ReleaseManifest
  artifactPath : JsString
  sha256 : JsString
deriving DecidableEq

structure UpdateState where
  preparedUpdate : Option PreparedUpdate := none
  /-- The prepare messages whose download is going on. -/
  downloads : OrdMap ℕ UpdatePrepare := ∅
  /-- The update of every restart timer. -/
  timers : OrdMap ℕ JsString := ∅
  /-- The next free number of a download or timer. -/
  fresh : ℕ := 0
deriving DecidableEq

inductive UpdateEvent where
  | prepare (message : UpdatePrepare)
  | downloaded (download : ℕ) (outcome : FetchOutcome)
  | apply (message : UpdateApply)
  | timer (timer : ℕ)
deriving DecidableEq

inductive UpdateEffect where
  | ready (replyTo : JsString) (update : PreparedUpdate) (currentVersion : JsString)
  | failed (replyTo : Option JsString) (updateId code message : JsString)
  | ack (replyTo : JsString)
  /-- The timer of an acknowledged update runs the installer. -/
  | runUpdateCommand (acknowledged : JsString) (update : PreparedUpdate)
deriving DecidableEq

/-! ### Handlers -/

namespace UpdateState

variable (env : UpdateEnv) (s : UpdateState)

/-- `preparedUpdate = { … }` and the answer. -/
def store (m : UpdatePrepare) (d : Downloaded) : UpdateState × List UpdateEffect :=
  let update : PreparedUpdate :=
    { updateId := m.updateId, manifest := m.manifest, artifactPath := d.path, sha256 := d.sha256 }
  ({ s with preparedUpdate := some update },
    [.ready (m.id.getD m.updateId) update env.current.version])

def handlePrepare (m : UpdatePrepare) : UpdateState × List UpdateEffect :=
  if compareManifests env.current m.manifest = [] then
    s.store env m { path := [], sha256 := env.current.tarballSha256.getD [] }
  else ({ s with downloads := s.downloads.set s.fresh m, fresh := s.fresh + 1 }, [])

def handleDownloaded (download : ℕ) (outcome : FetchOutcome) : UpdateState × List UpdateEffect :=
  match s.downloads.get? download with
  | none => (s, [])
  | some m =>
    let s : UpdateState := { s with downloads := s.downloads.delete download }
    match downloadAndVerify p env m.manifest outcome with
    | .ok d => s.store env m d
    | .error message =>
      (s, [.failed (some (m.id.getD m.updateId)) m.updateId (js "prepare_failed") message])

def handleApply (m : UpdateApply) : UpdateState × List UpdateEffect :=
  if s.preparedUpdate.map PreparedUpdate.updateId = some m.updateId then
    ({ s with timers := s.timers.set s.fresh m.updateId, fresh := s.fresh + 1 },
      [.ack (m.id.getD m.updateId)])
  else
    (s, [.failed (some (m.id.getD m.updateId)) m.updateId (js "update_not_prepared")
      (js "No matching prepared update is available")])

/-- The timer reads `preparedUpdate` when it fires. -/
def handleTimer (timer : ℕ) : UpdateState × List UpdateEffect :=
  match s.timers.get? timer with
  | none => (s, [])
  | some updateId =>
    ({ s with timers := s.timers.delete timer },
      (s.preparedUpdate.map (UpdateEffect.runUpdateCommand updateId)).toList)

def handle (e : UpdateEvent) : UpdateState × List UpdateEffect :=
  match e with
  | .prepare message => s.handlePrepare env message
  | .downloaded download outcome => s.handleDownloaded p env download outcome
  | .apply message => s.handleApply message
  | .timer timer => s.handleTimer timer

def step (e : UpdateEvent) : UpdateState := (s.handle p env e).1

/-- The prepare message whose record the event stores, with the record. -/
def stored? (e : UpdateEvent) : Option (UpdatePrepare × PreparedUpdate) :=
  let record (m : UpdatePrepare) (d : Downloaded) : UpdatePrepare × PreparedUpdate :=
    (m, { updateId := m.updateId, manifest := m.manifest, artifactPath := d.path, sha256 := d.sha256 })
  match e with
  | .prepare m =>
    if compareManifests env.current m.manifest = [] then
      some (record m { path := [], sha256 := env.current.tarballSha256.getD [] })
    else none
  | .downloaded download outcome =>
    (s.downloads.get? download).bind fun m =>
      (downloadAndVerify p env m.manifest outcome).toOption.map (record m)
  | _ => none

end UpdateState

/-! ### Runs -/

variable (env : UpdateEnv)

/-- The record was stored for the prepare message `m`. -/
def StoredFor (pre : List UpdateEvent) (m : UpdatePrepare) (r : PreparedUpdate) : Prop :=
  .prepare m ∈ pre ∧
    ∃ a e b, pre = a ++ e :: b ∧ (run (UpdateState.step p env) {} a).stored? p env e = some (m, r)

/-- **The condition.** When a record is stored, every timer that waits is for the same update. -/
def StoresForWaiting (s : UpdateState) (e : UpdateEvent) : Prop :=
  ∀ stored ∈ s.stored? p env e, ∀ timer ∈ s.timers.entries, timer.2 = stored.1.updateId

instance (s : UpdateState) (e : UpdateEvent) : Decidable (StoresForWaiting p env s e) := by
  unfold StoresForWaiting
  infer_instance

/-- The installer gets a record that a prepare message of the acknowledged update stored. -/
def InstallsAcknowledged (pre : List UpdateEvent) (s : UpdateState) (e : UpdateEvent) : Prop :=
  ∀ u r, .runUpdateCommand u r ∈ (s.handle p env e).2 → ∃ m, m.updateId = u ∧ StoredFor p env pre m r

/-- **The invariant.** -/
structure UpdateInv (pre : List UpdateEvent) (s : UpdateState) : Prop where
  prepared : ∀ {r}, s.preparedUpdate = some r → ∃ m, m.updateId = r.updateId ∧ StoredFor p env pre m r
  waiting : ∀ {t u}, s.timers.get? t = some u → s.preparedUpdate.map PreparedUpdate.updateId = some u
  downloading : ∀ {j m}, s.downloads.get? j = some m → .prepare m ∈ pre

variable {p env} {pre : List UpdateEvent} {s : UpdateState}

/-- The stored record has the id of its message. -/
theorem stored?_updateId {e : UpdateEvent} {m : UpdatePrepare} {r : PreparedUpdate}
    (h : s.stored? p env e = some (m, r)) : r.updateId = m.updateId := by
  unfold UpdateState.stored? at h
  dsimp only at h
  split at h
  · split at h
    · cases h
      rfl
    · cases h
  · obtain ⟨m', -, h⟩ := Option.bind_eq_some_iff.mp h
    obtain ⟨d, -, heq⟩ := Option.map_eq_some_iff.mp h
    cases heq
    rfl
  · cases h

theorem StoredFor.concat {m : UpdatePrepare} {r : PreparedUpdate} (h : StoredFor p env pre m r)
    (e : UpdateEvent) : StoredFor p env (pre ++ [e]) m r := by
  obtain ⟨hm, a, e', b, rfl, hs⟩ := h
  exact ⟨List.mem_append_left _ hm, a, e', b ++ [e], by simp, hs⟩

theorem UpdateInv.later (h : UpdateInv p env pre s) (e : UpdateEvent) : UpdateInv p env (pre ++ [e]) s where
  prepared := by
    intro r hr
    obtain ⟨m, hu, hm⟩ := h.prepared hr
    exact ⟨m, hu, hm.concat e⟩
  waiting := h.waiting
  downloading := fun hj => List.mem_append_left _ (h.downloading hj)

/-- A record is stored for a prepare message while no timer waits for another update. -/
theorem UpdateInv.store (h : UpdateInv p env pre s) {m : UpdatePrepare} {d : Downloaded}
    (hstored : ∀ r, r = (⟨m.updateId, m.manifest, d.path, d.sha256⟩ : PreparedUpdate) →
      StoredFor p env pre m r)
    (hwait : ∀ t u, s.timers.get? t = some u → u = m.updateId) :
    UpdateInv p env pre (s.store env m d).1 where
  prepared := by
    intro r hr
    have heq := Option.some.inj hr
    exact ⟨m, by rw [← heq], hstored r heq.symm⟩
  waiting := fun ht => by rw [hwait _ _ ht]; rfl
  downloading := h.downloading

theorem UpdateInv.step (h : UpdateInv p env pre (run (UpdateState.step p env) {} pre)) {e : UpdateEvent}
    (hc : StoresForWaiting p env (run (UpdateState.step p env) {} pre) e) :
    UpdateInv p env (pre ++ [e]) ((run (UpdateState.step p env) {} pre).step p env e) := by
  have hs : ∀ {m r}, (run (UpdateState.step p env) {} pre).stored? p env e = some (m, r) →
      .prepare m ∈ pre ++ [e] → StoredFor p env (pre ++ [e]) m r :=
    fun hst hm => ⟨hm, pre, e, [], rfl, hst⟩
  have hwait : ∀ {m r}, (run (UpdateState.step p env) {} pre).stored? p env e = some (m, r) →
      ∀ t u, (run (UpdateState.step p env) {} pre).timers.get? t = some u → u = m.updateId :=
    fun hst t u ht => hc _ hst (t, u) (OrdMap.get?_eq_some.mp ht)
  have hlater := h.later e
  generalize run (UpdateState.step p env) {} pre = s at h hc hs hwait hlater ⊢
  unfold UpdateState.step UpdateState.handle
  cases e with
  | prepare m =>
    dsimp only
    unfold UpdateState.handlePrepare
    split
    · rename_i hcmp
      have hst : s.stored? p env (.prepare m) = some (m, ⟨m.updateId, m.manifest, [],
          env.current.tarballSha256.getD []⟩) := by
        unfold UpdateState.stored?
        dsimp only
        rw [if_pos hcmp]
      exact hlater.store (fun r hr => hr ▸ hs hst (by simp)) (hwait hst)
    · refine ⟨hlater.prepared, hlater.waiting, fun {j m'} hj => ?_⟩
      rw [OrdMap.get?_set] at hj
      split at hj
      · cases hj
        simp
      · exact hlater.downloading hj
  | downloaded j outcome =>
    dsimp only
    unfold UpdateState.handleDownloaded
    split
    · exact hlater
    · rename_i m hget
      have hdel : UpdateInv p env (pre ++ [.downloaded j outcome])
          { s with downloads := s.downloads.delete j } := by
        refine ⟨hlater.prepared, hlater.waiting, fun {j' m'} hj => ?_⟩
        rw [OrdMap.get?_delete] at hj
        split at hj
        · cases hj
        · exact hlater.downloading hj
      dsimp only
      split
      · rename_i d hd
        have hst : s.stored? p env (.downloaded j outcome) =
            some (m, ⟨m.updateId, m.manifest, d.path, d.sha256⟩) := by
          unfold UpdateState.stored?
          dsimp only
          rw [hget, Option.bind_some, hd]
          rfl
        exact hdel.store (fun r hr => hr ▸ hs hst (hlater.downloading hget)) (hwait hst)
      · exact hdel
  | apply m =>
    dsimp only
    unfold UpdateState.handleApply
    split
    · rename_i hmatch
      refine ⟨hlater.prepared, fun {t u} ht => ?_, hlater.downloading⟩
      rw [OrdMap.get?_set] at ht
      split at ht
      · cases ht
        exact hmatch
      · exact hlater.waiting ht
    · exact hlater
  | timer t =>
    dsimp only
    unfold UpdateState.handleTimer
    split
    · exact hlater
    · refine ⟨hlater.prepared, fun {t' u} ht => ?_, hlater.downloading⟩
      rw [OrdMap.get?_delete] at ht
      split at ht
      · cases ht
      · exact hlater.waiting ht

/-- The installer is only run by a timer, with the stored record. -/
theorem of_runUpdateCommand {e : UpdateEvent} {u : JsString} {r : PreparedUpdate}
    (h : .runUpdateCommand u r ∈ (s.handle p env e).2) :
    ∃ t, s.timers.get? t = some u ∧ s.preparedUpdate = some r := by
  unfold UpdateState.handle at h
  cases e with
  | prepare m =>
    dsimp only [UpdateState.handlePrepare, UpdateState.store] at h
    split at h
    · simp at h
    · simp at h
  | downloaded j outcome =>
    dsimp only [UpdateState.handleDownloaded, UpdateState.store] at h
    split at h
    · simp at h
    · split at h
      · simp at h
      · simp at h
  | apply m =>
    dsimp only [UpdateState.handleApply] at h
    split at h
    · simp at h
    · simp at h
  | timer t =>
    dsimp only [UpdateState.handleTimer] at h
    split at h
    · simp at h
    · rename_i u' ht
      have hmem := Option.mem_toList.mp h
      obtain ⟨r', hr', heq⟩ := Option.map_eq_some_iff.mp hmem
      cases heq
      exact ⟨t, ht, hr'⟩

/-- **An acknowledged update installs the update that was acknowledged**, in every run whose steps meet the
condition. -/
theorem installs_acknowledged {events : List UpdateEvent}
    (hc : Steps (UpdateState.step p env) (fun _ => StoresForWaiting p env) {} events) :
    Steps (UpdateState.step p env) (InstallsAcknowledged p env) {} events := by
  have hempty : UpdateInv p env [] {} := ⟨fun h => (by cases h), fun h => (by cases h), fun h => (by cases h)⟩
  refine Steps.of_inv (J := UpdateInv p env) hempty (fun pre e h hcond => h.step hcond) ?_ hc
  intro pre e hinv _ u r hrun
  obtain ⟨t, ht, hr⟩ := of_runUpdateCommand hrun
  have hu := hinv.waiting ht
  rw [hr] at hu
  obtain ⟨m, hm, hstored⟩ := hinv.prepared hr
  exact ⟨m, hm.trans (Option.some.inj hu), hstored⟩

/-! ### Two runs -/

namespace Sample

def release : ReleaseManifest where
  version := js "1.4.0"
  platform := js "linux-x64"
  commit := js "c0ffee"
  routesHash := js "sha256:00"

def updateEnv : UpdateEnv where
  current := release
  downloadPath name := js "/state/downloads/" ++ name

def updatePlatform : Platform := Tables.platform {}

/-- An update that needs a download, acknowledged and installed. -/
def update : List UpdateEvent :=
  [.prepare { updateId := js "u1", manifest := { release with
      version := js "1.5.0", downloadUrl := some (js "https://dl.example/1.5.0.tgz") } },
    .downloaded 0 (.bytes [1, 2, 3]), .apply { updateId := js "u1" }, .timer 1]

/-- A second update is prepared while the timer of the first one waits. -/
def replaced : List UpdateEvent :=
  [.prepare { updateId := js "u1", manifest := release }, .apply { updateId := js "u1" },
    .prepare { updateId := js "u2", manifest := release }]

theorem update_installs :
    Steps (UpdateState.step updatePlatform updateEnv) (InstallsAcknowledged updatePlatform updateEnv) {}
      update :=
  installs_acknowledged (by decide)

/-- The timer of the acknowledged `u1` installs the record of `u2`. -/
theorem replaced_installs_other :
    ¬ InstallsAcknowledged updatePlatform updateEnv replaced
      (run (UpdateState.step updatePlatform updateEnv) {} replaced) (.timer 0) := by
  intro h
  obtain ⟨m, hu, -, a, e, b, -, hs⟩ := h (js "u1") ⟨js "u2", release, [], []⟩ (by decide)
  have heq := stored?_updateId hs
  rw [hu] at heq
  exact absurd heq (by decide)

end Sample

end ConsensusNode.Clients
