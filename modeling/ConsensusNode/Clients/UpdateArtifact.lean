import ConsensusNode.Clients.ControlUpdate

/-! # The file that the installer gets

The updates of `ControlUpdate` with `downloadAndVerify` in its steps: the artifact comes in and is hashed, its
file is opened (and is empty then), its bytes are written, and the handler goes on and stores the record.
Other messages and timers come between these steps. The name of the file is made of the version and the
platform of the manifest.

* `update_refines`: what happens to the records is a run of `ControlUpdate`.
* `Provenance`: the download of the stored record, and for every file the download that has opened it if no
  other one has touched it since.
* `installs_verified`: in a run in which the installer starts only while no other download has touched the
  file of the record since its own one opened it, the file has the hash of the record.

A second update for the same version and platform writes over the file of the stored record before its own
record is stored. -/

namespace ConsensusNode.Clients

open Js Lib.Run

variable (p : Platform) (env : UpdateEnv)

/-! ### State -/

inductive WritePhase where
  | checked
  | opened
  | written
deriving DecidableEq

/-- The artifact of a download that has passed the check. -/
structure ArtifactWrite where
  path : JsString
  bytes : Bytes
  phase : WritePhase := .checked
deriving DecidableEq

structure ArtifactState where
  update : UpdateState := {}
  writes : OrdMap ℕ ArtifactWrite := ∅
  files : OrdMap JsString Bytes := ∅
deriving DecidableEq

inductive ArtifactEvent where
  | prepare (message : UpdatePrepare)
  | fetched (download : ℕ) (outcome : FetchOutcome)
  | opened (download : ℕ)
  | wrote (download : ℕ)
  /-- The directory cannot be made, or the file cannot be opened or written. -/
  | writeFailed (download : ℕ) (message : JsString)
  /-- `writeFile` has returned, and the handler goes on. -/
  | stored (download : ℕ)
  | apply (message : UpdateApply)
  | timer (timer : ℕ)
deriving DecidableEq

inductive ArtifactEffect where
  | openFile (download : ℕ) (path : JsString)
  | writeFile (download : ℕ) (path : JsString) (bytes : Bytes)
  | update (effect : UpdateEffect)
deriving DecidableEq

/-! ### Steps -/

/-- Bytes written at the start of a file. -/
def overwrite (bytes old : Bytes) : Bytes := bytes ++ old.drop bytes.length

theorem overwrite_nil (bytes : Bytes) : overwrite bytes [] = bytes := by simp [overwrite]

namespace ArtifactState

variable (s : ArtifactState)

/-- A step of the records. -/
def records (e : UpdateEvent) : ArtifactState × List ArtifactEffect :=
  ({ s with update := s.update.step p env e }, (s.update.handle p env e).2.map .update)

/-- The artifact is hashed; what fails here is answered at once. -/
def handleFetched (download : ℕ) (outcome : FetchOutcome) : ArtifactState × List ArtifactEffect :=
  match s.update.downloads.get? download, s.writes.get? download with
  | some m, none =>
    match downloadAndVerify p env m.manifest outcome, outcome with
    | .ok d, .bytes body => ({ s with writes := s.writes.set download { path := d.path, bytes := body } }, [])
    | _, _ => s.records p env (.downloaded download outcome)
  | _, _ => (s, [])

def handleOpened (download : ℕ) : ArtifactState × List ArtifactEffect :=
  match s.writes.get? download with
  | some ⟨path, bytes, .checked⟩ =>
    ({ s with writes := s.writes.set download ⟨path, bytes, .opened⟩, files := s.files.set path [] },
      [.openFile download path])
  | _ => (s, [])

def handleWrote (download : ℕ) : ArtifactState × List ArtifactEffect :=
  match s.writes.get? download with
  | some ⟨path, bytes, .opened⟩ =>
    ({ s with
        writes := s.writes.set download ⟨path, bytes, .written⟩
        files := s.files.set path (overwrite bytes ((s.files.get? path).getD [])) },
      [.writeFile download path bytes])
  | _ => (s, [])

def handleWriteFailed (download : ℕ) (message : JsString) : ArtifactState × List ArtifactEffect :=
  match s.writes.get? download with
  | some ⟨_, _, .checked⟩ | some ⟨_, _, .opened⟩ =>
    ({ s with writes := s.writes.delete download } : ArtifactState).records p env
      (.downloaded download (.failed message))
  | _ => (s, [])

def handleStored (download : ℕ) : ArtifactState × List ArtifactEffect :=
  match s.writes.get? download with
  | some ⟨_, bytes, .written⟩ =>
    ({ s with writes := s.writes.delete download } : ArtifactState).records p env
      (.downloaded download (.bytes bytes))
  | _ => (s, [])

def handle (e : ArtifactEvent) : ArtifactState × List ArtifactEffect :=
  match e with
  | .prepare message => s.records p env (.prepare message)
  | .fetched download outcome => s.handleFetched p env download outcome
  | .opened download => s.handleOpened download
  | .wrote download => s.handleWrote download
  | .writeFailed download message => s.handleWriteFailed p env download message
  | .stored download => s.handleStored p env download
  | .apply message => s.records p env (.apply message)
  | .timer timer => s.records p env (.timer timer)

def step (e : ArtifactEvent) : ArtifactState := (s.handle p env e).1

end ArtifactState

variable {p env} {s : ArtifactState} {e : ArtifactEvent}

/-! ### The records -/

variable (p env) in
/-- A step is a step of the records, or it leaves them as they are. -/
theorem records_or_idle (s : ArtifactState) (e : ArtifactEvent) :
    (∃ e', (∀ t, e' = .timer t → e = .timer t) ∧ (s.step p env e).update = s.update.step p env e' ∧
      (s.handle p env e).2 = (s.update.handle p env e').2.map .update) ∨
    (s.step p env e).update = s.update ∧ ∀ x, .update x ∉ (s.handle p env e).2 := by
  unfold ArtifactState.step ArtifactState.handle
  cases e with
  | prepare m => exact .inl ⟨_, fun _ ht => (by cases ht), rfl, rfl⟩
  | fetched j outcome =>
    dsimp only [ArtifactState.handleFetched]
    split
    · split
      · exact .inr ⟨rfl, by simp⟩
      · exact .inl ⟨_, fun _ ht => (by cases ht), rfl, rfl⟩
    · exact .inr ⟨rfl, by simp⟩
  | opened j =>
    dsimp only [ArtifactState.handleOpened]
    split
    · exact .inr ⟨rfl, by simp⟩
    · exact .inr ⟨rfl, by simp⟩
  | wrote j =>
    dsimp only [ArtifactState.handleWrote]
    split
    · exact .inr ⟨rfl, by simp⟩
    · exact .inr ⟨rfl, by simp⟩
  | writeFailed j message =>
    dsimp only [ArtifactState.handleWriteFailed]
    split
    · exact .inl ⟨_, fun _ ht => (by cases ht), rfl, rfl⟩
    · exact .inl ⟨_, fun _ ht => (by cases ht), rfl, rfl⟩
    · exact .inr ⟨rfl, by simp⟩
  | stored j =>
    dsimp only [ArtifactState.handleStored]
    split
    · exact .inl ⟨_, fun _ ht => (by cases ht), rfl, rfl⟩
    · exact .inr ⟨rfl, by simp⟩
  | apply m => exact .inl ⟨_, fun _ ht => (by cases ht), rfl, rfl⟩
  | timer t => exact .inl ⟨.timer t, fun _ ht => (by cases ht; rfl), rfl, rfl⟩

/-- **What happens to the records is a run of the updates.** -/
theorem update_refines (events : List ArtifactEvent) : ∃ es : List UpdateEvent,
    (run (ArtifactState.step p env) s events).update = run (UpdateState.step p env) s.update es := by
  induction events using List.reverseRecOn with
  | nil => exact ⟨[], rfl⟩
  | append_singleton events e ih =>
    obtain ⟨es, hes⟩ := ih
    rw [run_concat]
    rcases records_or_idle p env (run (ArtifactState.step p env) s events) e with
      ⟨e', -, h, -⟩ | ⟨h, -⟩
    · exact ⟨es ++ [e'], by rw [h, run_concat, hes]⟩
    · exact ⟨es, by rw [h, hes]⟩

/-! ### Provenance -/

/-- The download that touched every file last, if none but it has since it opened the file. -/
def touch (holder : OrdMap JsString ℕ) : ArtifactEffect → OrdMap JsString ℕ
  | .openFile download path => holder.set path download
  | .writeFile download path _ =>
    if holder.get? path = some download then holder else holder.delete path
  | .update _ => holder

def ArtifactEffect.stores : ArtifactEffect → Bool
  | .update (.ready _ _ _) => true
  | _ => false

def ArtifactEvent.download? : ArtifactEvent → Option ℕ
  | .stored download => some download
  | _ => none

def ArtifactEvent.timer? : ArtifactEvent → Option ℕ
  | .timer t => some t
  | _ => none

structure Provenance where
  /-- The download of the stored record. -/
  source : Option ℕ := none
  holder : OrdMap JsString ℕ := ∅
deriving DecidableEq

def Provenance.note (l : Provenance) (e : ArtifactEvent) (effects : List ArtifactEffect) : Provenance where
  source := if effects.any ArtifactEffect.stores then e.download? else l.source
  holder := effects.foldl touch l.holder

variable (p env) in
def traceStep (st : ArtifactState × Provenance) (e : ArtifactEvent) : ArtifactState × Provenance :=
  (st.1.step p env e, st.2.note e (st.1.handle p env e).2)

variable (p env) in
/-- The installer gets a file with the hash of the record, if an artifact was downloaded for the record. -/
def InstallsVerified (s : ArtifactState) (e : ArtifactEvent) : Prop :=
  ∀ u r, .update (.runUpdateCommand u r) ∈ (s.handle p env e).2 →
    compareManifests env.current r.manifest ≠ [] →
    (s.files.get? r.artifactPath).map (sha256Hex p) = some r.sha256

/-- **The condition.** When a timer starts the installer, no other download has touched the file of the record
since the download of the record opened it. -/
def StartsUntouched (st : ArtifactState × Provenance) (e : ArtifactEvent) : Prop :=
  ∀ t ∈ e.timer?, st.1.update.timers.has t = true → ∀ r ∈ st.1.update.preparedUpdate,
    ∀ j ∈ st.2.source, st.2.holder.get? r.artifactPath = some j

instance (st : ArtifactState × Provenance) (e : ArtifactEvent) : Decidable (StartsUntouched st e) := by
  unfold StartsUntouched
  infer_instance

variable (p env) in
/-- **The invariant.** A file that only one download has touched since it opened it has what this download
has written. -/
structure Held (s : ArtifactState) (l : Provenance) : Prop where
  numbered : ∀ {j m}, s.update.downloads.get? j = some m → j < s.update.fresh
  checked : ∀ {j w}, s.writes.get? j = some w → ∃ m, s.update.downloads.get? j = some m ∧
    downloadAndVerify p env m.manifest (.bytes w.bytes) = .ok ⟨w.path, sha256Hex p w.bytes⟩
  opened : ∀ {j w}, s.writes.get? j = some w → w.phase = .opened → l.holder.get? w.path = some j →
    s.files.get? w.path = some []
  written : ∀ {j w}, s.writes.get? j = some w → w.phase = .written → l.holder.get? w.path = some j →
    s.files.get? w.path = some w.bytes
  current : ∀ {r}, s.update.preparedUpdate = some r → compareManifests env.current r.manifest ≠ [] →
    ∃ j, l.source = some j ∧ j < s.update.fresh ∧ s.update.downloads.get? j = none ∧
      (l.holder.get? r.artifactPath = some j →
        (s.files.get? r.artifactPath).map (sha256Hex p) = some r.sha256)

/-! ### The steps of the records -/

theorem downloadAndVerify_ok {m : ReleaseManifest} {outcome : FetchOutcome} {d : Downloaded}
    (h : downloadAndVerify p env m outcome = .ok d) : ∃ body, outcome = .bytes body ∧ d.sha256 = sha256Hex p body := by
  unfold downloadAndVerify at h
  split at h
  · cases h
  · cases outcome with
    | failed message => cases h
    | refused status => cases h
    | bytes body =>
      dsimp only at h
      split at h
      · cases h
      · cases h
        exact ⟨body, rfl, rfl⟩

theorem failed_not_ok {m : ReleaseManifest} {message : JsString} {d : Downloaded}
    (h : downloadAndVerify p env m (.failed message) = .ok d) : False := by
  obtain ⟨body, hbody, -⟩ := downloadAndVerify_ok h
  cases hbody

/-- A download that fails is forgotten, and no record is stored. -/
theorem handleDownloaded_error {u : UpdateState} {j : ℕ} {m : UpdatePrepare} {outcome : FetchOutcome}
    (hget : u.downloads.get? j = some m) (herr : ∀ d, downloadAndVerify p env m.manifest outcome ≠ .ok d) :
    (u.handleDownloaded p env j outcome).1 = { u with downloads := u.downloads.delete j } ∧
      ∀ x ∈ (u.handleDownloaded p env j outcome).2, (ArtifactEffect.update x).stores = false := by
  unfold UpdateState.handleDownloaded
  rw [hget]
  dsimp only
  split
  · rename_i d hd
    exact absurd hd (herr d)
  · refine ⟨rfl, fun x hx => ?_⟩
    rw [List.mem_singleton.mp hx]
    rfl

/-- A download that succeeds is forgotten, and its record is stored. -/
theorem handleDownloaded_ok {u : UpdateState} {j : ℕ} {m : UpdatePrepare} {outcome : FetchOutcome}
    {d : Downloaded} (hget : u.downloads.get? j = some m)
    (hok : downloadAndVerify p env m.manifest outcome = .ok d) :
    u.handleDownloaded p env j outcome =
      ({ u with downloads := u.downloads.delete j } : UpdateState).store env m d := by
  unfold UpdateState.handleDownloaded
  rw [hget]
  dsimp only
  rw [hok]

theorem foldl_touch_update (effects : List UpdateEffect) (holder : OrdMap JsString ℕ) :
    (effects.map ArtifactEffect.update).foldl touch holder = holder := by
  induction effects with
  | nil => rfl
  | cons x effects ih => exact ih

theorem get?_touch_writeFile {holder : OrdMap JsString ℕ} {i j : ℕ} {path q : JsString} {bytes : Bytes}
    (h : (touch holder (.writeFile j path bytes)).get? q = some i) :
    holder.get? q = some i ∧ (q = path → i = j) := by
  unfold touch at h
  dsimp only at h
  split at h
  · rename_i hj
    refine ⟨h, ?_⟩
    rintro rfl
    rw [hj] at h
    exact (Option.some.inj h).symm
  · rw [OrdMap.get?_delete] at h
    split at h
    · cases h
    · rename_i hpath
      exact ⟨h, fun he => absurd he hpath⟩

theorem note_records {l : Provenance} {effects : List UpdateEffect}
    (h : ∀ x ∈ effects, (ArtifactEffect.update x).stores = false) :
    l.note e (effects.map .update) = l := by
  have hnone : (effects.map ArtifactEffect.update).any ArtifactEffect.stores = false := by
    rw [List.any_eq_false]
    intro x hx
    obtain ⟨y, hy, rfl⟩ := List.mem_map.mp hx
    rw [h y hy]
    exact Bool.false_ne_true
  unfold Provenance.note
  rw [hnone, foldl_touch_update]
  rfl

namespace Held

variable {l : Provenance} (h : Held p env s l)
include h

/-- A download that is being written is not the one of the stored record. -/
theorem source_ne {i j : ℕ} {w : ArtifactWrite} (hw : s.writes.get? j = some w)
    (hi : s.update.downloads.get? i = none) : i ≠ j := by
  rintro rfl
  obtain ⟨m, hm, -⟩ := h.checked hw
  rw [hi] at hm
  cases hm

/-- The records step, and the downloads and the stored record stay. -/
theorem records {u : UpdateState} (hd : u.downloads = s.update.downloads)
    (hp : u.preparedUpdate = s.update.preparedUpdate) (hf : s.update.fresh ≤ u.fresh) :
    Held p env { s with update := u } l where
  numbered := by
    intro j m hm
    rw [hd] at hm
    exact lt_of_lt_of_le (h.numbered hm) hf
  checked := by
    intro j w hw
    rw [hd]
    exact h.checked hw
  opened := h.opened
  written := h.written
  current := by
    intro r hr hreq
    rw [hp] at hr
    obtain ⟨j, hj, hlt, hnone, hfile⟩ := h.current hr hreq
    exact ⟨j, hj, lt_of_lt_of_le hlt hf, by rw [hd]; exact hnone, hfile⟩

/-- A download is forgotten, with its file if it was being written. -/
theorem forget {j : ℕ} {writes : OrdMap ℕ ArtifactWrite}
    (hwrites : ∀ {i w}, writes.get? i = some w → i ≠ j ∧ s.writes.get? i = some w) : Held p env
    { s with writes := writes, update := { s.update with downloads := s.update.downloads.delete j } } l where
  numbered := by
    intro i m hm
    rw [OrdMap.get?_delete] at hm
    split at hm
    · cases hm
    · exact h.numbered hm
  checked := by
    intro i w hw
    obtain ⟨hne, hw⟩ := hwrites hw
    obtain ⟨m, hm, hok⟩ := h.checked hw
    exact ⟨m, by rw [OrdMap.get?_delete_ne _ hne]; exact hm, hok⟩
  opened := fun hw => h.opened (hwrites hw).2
  written := fun hw => h.written (hwrites hw).2
  current := by
    intro r hr hreq
    obtain ⟨i, hi, hlt, hnone, hfile⟩ := h.current hr hreq
    refine ⟨i, hi, hlt, ?_, hfile⟩
    rw [OrdMap.get?_delete]
    split
    · rfl
    · exact hnone

theorem handlePrepare (m : UpdatePrepare) : Held p env (s.records p env (.prepare m)).1
    (l.note (.prepare m) (s.records p env (.prepare m)).2) := by
  unfold ArtifactState.records
  change Held p env { s with update := (s.update.handlePrepare env m).1 }
    (l.note (.prepare m) ((s.update.handlePrepare env m).2.map .update))
  unfold UpdateState.handlePrepare
  split
  · rename_i hcmp
    constructor
    case numbered => exact h.numbered
    case checked => exact h.checked
    case opened => exact h.opened
    case written => exact h.written
    case current =>
      intro r hr hreq
      cases hr
      exact absurd hcmp hreq
  · rw [note_records (by simp)]
    constructor
    case numbered =>
      intro j m' hm
      change (s.update.downloads.set s.update.fresh m).get? j = some m' at hm
      rw [OrdMap.get?_set] at hm
      split at hm
      · rename_i hj
        rw [hj]
        exact Nat.lt_succ_self _
      · exact Nat.lt_succ_of_lt (h.numbered hm)
    case checked =>
      intro j w hw
      obtain ⟨m', hm, hok⟩ := h.checked hw
      refine ⟨m', ?_, hok⟩
      change (s.update.downloads.set s.update.fresh m).get? j = some m'
      rw [OrdMap.get?_set_ne _ _ (h.numbered hm).ne]
      exact hm
    case opened => exact h.opened
    case written => exact h.written
    case current =>
      intro r hr hreq
      obtain ⟨j, hj, hlt, hnone, hfile⟩ := h.current hr hreq
      refine ⟨j, hj, Nat.lt_succ_of_lt hlt, ?_, hfile⟩
      change (s.update.downloads.set s.update.fresh m).get? j = none
      rw [OrdMap.get?_set_ne _ _ hlt.ne]
      exact hnone

theorem handleFetched (j : ℕ) (outcome : FetchOutcome) : Held p env (s.handleFetched p env j outcome).1
    (l.note (.fetched j outcome) (s.handleFetched p env j outcome).2) := by
  unfold ArtifactState.handleFetched
  split
  · rename_i m hm hfree
    rcases hok : downloadAndVerify p env m.manifest outcome with message | d
    case ok =>
      obtain ⟨body, rfl, hsha⟩ := downloadAndVerify_ok hok
      have hd : d = ⟨d.path, sha256Hex p body⟩ := by rw [← hsha]
      constructor
      case numbered => exact h.numbered
      case checked =>
        intro i w hw
        rw [OrdMap.get?_set] at hw
        split at hw
        · rename_i hi
          cases hw
          exact ⟨m, by rw [hi]; exact hm, by rw [← hd]; exact hok⟩
        · exact h.checked hw
      case opened =>
        intro i w hw hphase
        rw [OrdMap.get?_set] at hw
        split at hw
        · cases hw
          cases hphase
        · exact h.opened hw hphase
      case written =>
        intro i w hw hphase
        rw [OrdMap.get?_set] at hw
        split at hw
        · cases hw
          cases hphase
        · exact h.written hw hphase
      case current => exact h.current
    case error =>
      have herr : ∀ d, downloadAndVerify p env m.manifest outcome ≠ .ok d := by
        intro d
        rw [hok]
        exact fun heq => by cases heq
      obtain ⟨hstep, hquiet⟩ := handleDownloaded_error hm herr
      unfold ArtifactState.records
      change Held p env { s with update := (s.update.handleDownloaded p env j outcome).1 }
        (l.note (.fetched j outcome) ((s.update.handleDownloaded p env j outcome).2.map .update))
      rw [note_records hquiet, hstep]
      refine h.forget fun {i w} hw => ⟨?_, hw⟩
      rintro rfl
      rw [hfree] at hw
      cases hw
  · exact h

theorem handleOpened (j : ℕ) : Held p env (s.handleOpened j).1 (l.note (.opened j) (s.handleOpened j).2) := by
  unfold ArtifactState.handleOpened
  split
  · rename_i path bytes hw
    have hnote : l.note (.opened j) [.openFile j path] = { l with holder := l.holder.set path j } := rfl
    dsimp only
    rw [hnote]
    -- the file of another download is another file, or is not held by it any more
    have hother : ∀ {i q}, i ≠ j → (l.holder.set path j).get? q = some i →
        l.holder.get? q = some i ∧ (s.files.set path []).get? q = s.files.get? q := by
      intro i q hne hq
      rw [OrdMap.get?_set] at hq
      split at hq
      · cases hq
        exact absurd rfl hne
      · rename_i hpath
        exact ⟨hq, OrdMap.get?_set_ne _ _ hpath⟩
    constructor
    case numbered => exact h.numbered
    case checked =>
      intro i w hi
      rw [OrdMap.get?_set] at hi
      split at hi
      · rename_i hij
        cases hi
        obtain ⟨m, hm, hok⟩ := h.checked hw
        exact ⟨m, by rw [hij]; exact hm, hok⟩
      · exact h.checked hi
    case opened =>
      intro i w hi hphase hheld
      rw [OrdMap.get?_set] at hi
      split at hi
      · cases hi
        exact OrdMap.get?_set_self _ _ _
      · rename_i hne
        obtain ⟨hheld, hfile⟩ := hother hne hheld
        exact hfile.trans (h.opened hi hphase hheld)
    case written =>
      intro i w hi hphase hheld
      rw [OrdMap.get?_set] at hi
      split at hi
      · cases hi
        cases hphase
      · rename_i hne
        obtain ⟨hheld, hfile⟩ := hother hne hheld
        exact hfile.trans (h.written hi hphase hheld)
    case current =>
      intro r hr hreq
      obtain ⟨i, hi, hlt, hnone, hsha⟩ := h.current hr hreq
      refine ⟨i, hi, hlt, hnone, fun hheld => ?_⟩
      obtain ⟨hheld, hfile⟩ := hother (h.source_ne hw hnone) hheld
      dsimp only
      rw [hfile]
      exact hsha hheld
  · exact h

theorem handleWrote (j : ℕ) : Held p env (s.handleWrote j).1 (l.note (.wrote j) (s.handleWrote j).2) := by
  unfold ArtifactState.handleWrote
  split
  · rename_i path bytes hw
    have hnote : l.note (.wrote j) [.writeFile j path bytes] =
        { l with holder := touch l.holder (.writeFile j path bytes) } := rfl
    dsimp only
    rw [hnote]
    have hother : ∀ {i q}, i ≠ j → (touch l.holder (.writeFile j path bytes)).get? q = some i →
        l.holder.get? q = some i ∧
          (s.files.set path (overwrite bytes ((s.files.get? path).getD []))).get? q = s.files.get? q := by
      intro i q hne hq
      obtain ⟨hq, hpath⟩ := get?_touch_writeFile hq
      exact ⟨hq, OrdMap.get?_set_ne _ _ fun he => hne (hpath he)⟩
    constructor
    case numbered => exact h.numbered
    case checked =>
      intro i w hi
      rw [OrdMap.get?_set] at hi
      split at hi
      · rename_i hij
        cases hi
        obtain ⟨m, hm, hok⟩ := h.checked hw
        exact ⟨m, by rw [hij]; exact hm, hok⟩
      · exact h.checked hi
    case opened =>
      intro i w hi hphase hheld
      rw [OrdMap.get?_set] at hi
      split at hi
      · cases hi
        cases hphase
      · rename_i hne
        obtain ⟨hheld, hfile⟩ := hother hne hheld
        exact hfile.trans (h.opened hi hphase hheld)
    case written =>
      intro i w hi hphase hheld
      rw [OrdMap.get?_set] at hi
      split at hi
      · rename_i hij
        cases hi
        change (touch l.holder (.writeFile j path bytes)).get? path = some i at hheld
        have hempty : s.files.get? path = some [] :=
          h.opened hw rfl (by rw [← hij]; exact (get?_touch_writeFile hheld).1)
        dsimp only
        rw [OrdMap.get?_set_self, hempty, Option.getD_some, overwrite_nil]
      · rename_i hne
        obtain ⟨hheld, hfile⟩ := hother hne hheld
        exact hfile.trans (h.written hi hphase hheld)
    case current =>
      intro r hr hreq
      obtain ⟨i, hi, hlt, hnone, hsha⟩ := h.current hr hreq
      refine ⟨i, hi, hlt, hnone, fun hheld => ?_⟩
      obtain ⟨hheld, hfile⟩ := hother (h.source_ne hw hnone) hheld
      dsimp only
      rw [hfile]
      exact hsha hheld
  · exact h

omit h in
/-- Nothing is written any more for a download that has ended. -/
theorem get?_writes_delete {i j : ℕ} {w : ArtifactWrite} (hw : (s.writes.delete j).get? i = some w) :
    i ≠ j ∧ s.writes.get? i = some w := by
  rw [OrdMap.get?_delete] at hw
  split at hw
  · cases hw
  · rename_i hne
    exact ⟨hne, hw⟩

theorem handleFailed {j : ℕ} {w : ArtifactWrite} (hw : s.writes.get? j = some w) (message : JsString) :
    Held p env (({ s with writes := s.writes.delete j } : ArtifactState).records p env
        (.downloaded j (.failed message))).1
      (l.note (.writeFailed j message) (({ s with writes := s.writes.delete j } : ArtifactState).records p env
        (.downloaded j (.failed message))).2) := by
  obtain ⟨m, hm, -⟩ := h.checked hw
  obtain ⟨hstep, hquiet⟩ := handleDownloaded_error hm fun _ hok => failed_not_ok hok
  unfold ArtifactState.records
  change Held p env { s with
    writes := s.writes.delete j, update := (s.update.handleDownloaded p env j (.failed message)).1 }
    (l.note (.writeFailed j message) ((s.update.handleDownloaded p env j (.failed message)).2.map .update))
  rw [note_records hquiet, hstep]
  exact h.forget fun hi => get?_writes_delete hi

theorem handleWriteFailed (j : ℕ) (message : JsString) : Held p env (s.handleWriteFailed p env j message).1
    (l.note (.writeFailed j message) (s.handleWriteFailed p env j message).2) := by
  unfold ArtifactState.handleWriteFailed
  split
  · rename_i hw
    exact h.handleFailed hw message
  · rename_i hw
    exact h.handleFailed hw message
  · exact h

theorem handleStored (j : ℕ) : Held p env (s.handleStored p env j).1
    (l.note (.stored j) (s.handleStored p env j).2) := by
  unfold ArtifactState.handleStored
  split
  · rename_i path bytes hw
    obtain ⟨m, hm, hok⟩ := h.checked hw
    have hlater := h.forget fun {i w} (hi : (s.writes.delete j).get? i = some w) => get?_writes_delete hi
    unfold ArtifactState.records
    change Held p env { s with
      writes := s.writes.delete j, update := (s.update.handleDownloaded p env j (.bytes bytes)).1 }
      (l.note (.stored j) ((s.update.handleDownloaded p env j (.bytes bytes)).2.map .update))
    rw [handleDownloaded_ok hm hok]
    constructor
    case numbered => exact hlater.numbered
    case checked => exact hlater.checked
    case opened => exact hlater.opened
    case written => exact hlater.written
    case current =>
      intro r hr _
      cases hr
      refine ⟨j, rfl, h.numbered hm, OrdMap.get?_delete_self _ _, fun hheld => ?_⟩
      have hfile := h.written hw rfl hheld
      dsimp only
      rw [hfile]
      rfl
  · exact h

/-- A message or a timer that stores nothing. -/
theorem handleRecords {e' : UpdateEvent}
    (hd : (s.update.step p env e').downloads = s.update.downloads)
    (hp : (s.update.step p env e').preparedUpdate = s.update.preparedUpdate)
    (hf : s.update.fresh ≤ (s.update.step p env e').fresh)
    (hq : ∀ x ∈ (s.update.handle p env e').2, (ArtifactEffect.update x).stores = false) :
    Held p env (s.records p env e').1 (l.note e (s.records p env e').2) := by
  unfold ArtifactState.records
  dsimp only
  rw [note_records hq]
  exact h.records hd hp hf

/-- **Every step keeps the invariant.** -/
theorem step (e : ArtifactEvent) : Held p env (s.step p env e) (l.note e (s.handle p env e).2) := by
  unfold ArtifactState.step ArtifactState.handle
  cases e with
  | prepare m => exact h.handlePrepare m
  | fetched j outcome => exact h.handleFetched j outcome
  | opened j => exact h.handleOpened j
  | wrote j => exact h.handleWrote j
  | writeFailed j message => exact h.handleWriteFailed j message
  | stored j => exact h.handleStored j
  | apply m =>
    refine h.handleRecords ?_ ?_ ?_ ?_
    all_goals
      simp only [UpdateState.step, UpdateState.handle, UpdateState.handleApply]
      split
    · rfl
    · rfl
    · rfl
    · rfl
    · exact Nat.le_succ _
    · exact le_rfl
    · simp [ArtifactEffect.stores]
    · simp [ArtifactEffect.stores]
  | timer t =>
    refine h.handleRecords ?_ ?_ ?_ ?_
    all_goals
      simp only [UpdateState.step, UpdateState.handle, UpdateState.handleTimer]
      split
    · rfl
    · rfl
    · rfl
    · rfl
    · exact le_rfl
    · exact le_rfl
    · simp
    · simp [ArtifactEffect.stores]

end Held

/-! ### Runs -/

theorem held_nil (files : OrdMap JsString Bytes) : Held p env { files := files } {} where
  numbered := fun h => by cases h
  checked := fun h => by cases h
  opened := fun h => by cases h
  written := fun h => by cases h
  current := fun h => by cases h

theorem timer_of_runUpdateCommand {q : UpdateState} {e' : UpdateEvent} {u : JsString} {r : PreparedUpdate}
    (h : .runUpdateCommand u r ∈ (q.handle p env e').2) :
    ∃ t, e' = .timer t ∧ q.timers.has t = true ∧ q.preparedUpdate = some r := by
  obtain ⟨-, -, hr⟩ := of_runUpdateCommand h
  cases e' with
  | prepare m =>
    change _ ∈ (q.handlePrepare env m).2 at h
    unfold UpdateState.handlePrepare UpdateState.store at h
    split at h
    · simp at h
    · simp at h
  | downloaded j outcome =>
    change _ ∈ (q.handleDownloaded p env j outcome).2 at h
    unfold UpdateState.handleDownloaded UpdateState.store at h
    dsimp only at h
    split at h
    · simp at h
    · split at h
      · simp at h
      · simp at h
  | apply m =>
    change _ ∈ (q.handleApply m).2 at h
    unfold UpdateState.handleApply at h
    split at h
    · simp at h
    · simp at h
  | timer t =>
    refine ⟨t, rfl, ?_, hr⟩
    change _ ∈ (q.handleTimer t).2 at h
    unfold UpdateState.handleTimer at h
    split at h
    · simp at h
    · rename_i id ht
      unfold OrdMap.has
      rw [ht]
      rfl

/-- The installer is started by a timer that waits, with the stored record. -/
theorem of_update_runUpdateCommand {u : JsString} {r : PreparedUpdate}
    (h : .update (.runUpdateCommand u r) ∈ (s.handle p env e).2) :
    ∃ t, e = .timer t ∧ s.update.timers.has t = true ∧ s.update.preparedUpdate = some r := by
  rcases records_or_idle p env s e with ⟨e', he, -, heffects⟩ | ⟨-, hidle⟩
  · rw [heffects] at h
    obtain ⟨x, hx, heq⟩ := List.mem_map.mp h
    cases heq
    obtain ⟨t, ht, hhas, hr⟩ := timer_of_runUpdateCommand hx
    exact ⟨t, he t ht, hhas, hr⟩
  · exact absurd h (hidle _)

/-- **The installer gets verified files**, in every run whose steps meet the condition. -/
theorem installs_verified {files : OrdMap JsString Bytes} {events : List ArtifactEvent}
    (hc : Steps (traceStep p env) (fun _ => StartsUntouched) ({ files := files }, {}) events) :
    Steps (traceStep p env) (fun _ st => InstallsVerified p env st.1) ({ files := files }, {}) events := by
  refine Steps.of_inv (J := fun _ st => Held p env st.1 st.2) (held_nil files) (fun _ e h _ => h.step e) ?_ hc
  intro pre e hheld hcond u r hrun hreq
  obtain ⟨t, he, ht, hr⟩ := of_update_runUpdateCommand hrun
  obtain ⟨j, hj, -, -, hfile⟩ := hheld.current hr hreq
  exact hfile (hcond t (by rw [he]; rfl) ht r hr j hj)

/-! ### Two runs -/

namespace Sample

def artifact (updateId : JsString) : UpdatePrepare where
  updateId := updateId
  manifest := { release with version := js "1.5.0", downloadUrl := some (js "https://dl.example/1.5.0.tgz") }

/-- An update is prepared, acknowledged and installed. -/
def installed : List ArtifactEvent :=
  [.prepare (artifact (js "u1")), .fetched 0 (.bytes [1, 2, 3]), .opened 0, .wrote 0, .stored 0,
    .apply { updateId := js "u1" }, .timer 1]

/-- While the timer waits, a second update for the same version and platform writes its artifact. -/
def overwritten : List ArtifactEvent :=
  [.prepare (artifact (js "u1")), .fetched 0 (.bytes [1, 2, 3]), .opened 0, .wrote 0, .stored 0,
    .apply { updateId := js "u1" }, .prepare (artifact (js "u2")), .fetched 2 (.bytes [4, 5]), .opened 2,
    .wrote 2]

def artifactPlatform : Platform := Tables.platform {
  digests := [([1, 2, 3], beBytes 32 0x039058c6f2c0cb492c533b0a4d14ef77cc0f78abccced5287d84a1a2011cfb81),
    ([4, 5], beBytes 32 0x2fa1b377bf67309f65e5e7bc9d924345ca648dec4e601a398a9cb497dcba3765)] }

def firstUpdate : PreparedUpdate where
  updateId := js "u1"
  manifest := (artifact (js "u1")).manifest
  artifactPath := js "/state/downloads/consensus-node-1.5.0-linux-x64.tgz"
  sha256 := sha256Hex artifactPlatform [1, 2, 3]

theorem installed_verified :
    Steps (traceStep artifactPlatform updateEnv) (fun _ st => InstallsVerified artifactPlatform updateEnv st.1)
      ({ files := ∅ }, {}) installed :=
  installs_verified (by decide)

/-- The timer runs the installer with the record of `u1` and the file of `u2`. -/
theorem overwritten_installs_unverified : ¬ ∀ events : List ArtifactEvent,
    Steps (traceStep artifactPlatform updateEnv) (fun _ st => InstallsVerified artifactPlatform updateEnv st.1)
      ({ files := ∅ }, {}) events := by
  intro h
  have hlast := (h (overwritten ++ [.timer 1])).last
  have hfile := hlast (js "u1") firstUpdate (by decide) (by decide)
  exact absurd hfile (by decide)

end Sample

end ConsensusNode.Clients
