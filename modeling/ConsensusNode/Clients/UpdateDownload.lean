import ConsensusNode.Clients.ControlUpdate
import ConsensusNode.Node.State

/-! # Downloads of updates

What `downloadAndVerify` of `update.ts` accepts, and where it writes.

* `digests_agree_iff`: a node with the digest that was downloaded is up to date exactly when the manifest names
  no digest or names it without `sha256:` in front. `compareManifests` does not strip that prefix,
  `downloadAndVerify` does.
* `artifact_in_downloads_iff`: the file is one of the download directory exactly when what stands before the
  last slash of its name leads back to that directory. -/

namespace ConsensusNode.Clients

open Js Node Lib.PathSteps

variable (p : Platform)

/-! ### The two digests -/

theorem compareManifests_digest (m : ReleaseManifest) (url digest : Option JsString) :
    compareManifests { m with downloadUrl := url, tarballSha256 := digest } m = [] ↔
      (present m.tarballSha256 = true → digest = m.tarballSha256) := by
  simp [compareManifests]

variable {p}

/-- What an accepted artifact says about its digest. -/
theorem downloadAndVerify_digest {env : UpdateEnv} {m : ReleaseManifest} {outcome : FetchOutcome} {d : Downloaded}
    (h : downloadAndVerify p env m outcome = .ok d) (hp : present m.tarballSha256 = true) :
    ∃ expected, m.tarballSha256 = some expected ∧ d.sha256 = stripShaPrefix expected := by
  obtain ⟨expected, hexpected⟩ : ∃ expected, m.tarballSha256 = some expected := by
    rcases hm : m.tarballSha256 with _ | expected
    · rw [hm] at hp
      cases hp
    · exact ⟨expected, rfl⟩
  refine ⟨expected, hexpected, ?_⟩
  unfold downloadAndVerify at h
  split at h
  · cases h
  · split at h
    · cases h
    · cases h
    · dsimp only at h
      split_ifs at h with hmismatch
      cases h
      rw [hexpected] at hmismatch hp
      by_contra hne
      exact hmismatch ⟨hp, hne⟩

/-- Stripping changes a text exactly when it starts with the prefix. -/
theorem stripShaPrefix_eq_self (s : JsString) : stripShaPrefix s = s ↔ startsWith s (js "sha256:") = false := by
  unfold stripShaPrefix
  split_ifs with h
  · simp only [h, Bool.true_eq_false, iff_false]
    intro heq
    have hlen := congrArg List.length heq
    have hprefix := (List.isPrefixOf_iff_prefix.mp h).length_le
    rw [List.length_drop] at hlen
    have hseven : (js "sha256:").length = 7 := by decide
    omega
  · simpa using h

/-- **The two digest checks agree** exactly when the manifest does not write its digest with the prefix. -/
theorem digests_agree_iff (env : UpdateEnv) (m : ReleaseManifest) (outcome : FetchOutcome) (d : Downloaded)
    (h : downloadAndVerify p env m outcome = .ok d) (url : Option JsString) :
    compareManifests { m with downloadUrl := url, tarballSha256 := some d.sha256 } m = [] ↔
      ∀ expected, m.tarballSha256 = some expected → startsWith expected (js "sha256:") = false := by
  rw [compareManifests_digest]
  constructor
  · intro hsame expected hexpected
    by_cases hp : present m.tarballSha256 = true
    · obtain ⟨t, ht, hd⟩ := downloadAndVerify_digest h hp
      have heq := hsame hp
      rw [ht] at heq hexpected
      rw [← Option.some.inj hexpected]
      exact (stripShaPrefix_eq_self t).mp (hd.symm.trans (Option.some.inj heq))
    · rcases expected with _ | ⟨c, s⟩
      · rfl
      · rw [hexpected] at hp
        exact absurd rfl hp
  · intro hplain hp
    obtain ⟨t, ht, hd⟩ := downloadAndVerify_digest h hp
    rw [ht, hd, (stripShaPrefix_eq_self t).mpr (hplain t ht)]

/-! ### The file -/

/-- `path.join(state.base, "downloads")`. -/
def downloadsDir (node : NodeEnv) : JsString := joinPath node.stateDir (js "downloads")

/-- The name of the file, with whatever the manifest says. -/
def artifactName (m : ReleaseManifest) : JsString :=
  js "consensus-node-" ++ m.version ++ js "-" ++ m.platform ++ js ".tgz"

def nodeUpdates (node : NodeEnv) (current : ReleaseManifest) : UpdateEnv where
  current := current
  downloadPath name := joinPath (downloadsDir node) name

/-- The path that is written. `fs` refuses a path with a zero in it. -/
def writtenPath (env : UpdateEnv) (m : ReleaseManifest) (outcome : FetchOutcome) : Option JsString :=
  (downloadAndVerify p env m outcome).toOption.bind fun d => if (0 : UInt16) ∈ d.path then none else some d.path

/-- After normalization the path is the one of a file in the directory. -/
def FileIn (node : NodeEnv) (dir path : JsString) : Prop :=
  ∃ name, Segment name ∧ normalizeDir node path = normalizeDir node dir ++ unit '/' :: name

/-- What stands before the last slash of the file name, as steps up and names below. -/
def artifactClimb (m : ReleaseManifest) : ℕ × List JsString :=
  climbs (((artifactName m).splitOn (unit '/')).dropLast.map segmentMove)

/-- **The condition.** As many names follow the steps up, and they are the last ones of the download directory. -/
def LeadsBack (node : NodeEnv) (m : ReleaseManifest) : Prop :=
  let downloads := resolveSegments node.cwd (downloadsDir node)
  (artifactClimb m).2 = downloads.drop (downloads.length - (artifactClimb m).1)

instance (node : NodeEnv) (m : ReleaseManifest) : Decidable (LeadsBack node m) :=
  inferInstanceAs (Decidable (_ = _))

theorem writtenPath_eq_some {node : NodeEnv} {current m : ReleaseManifest} {outcome : FetchOutcome} {path : JsString}
    (h : writtenPath (p := p) (nodeUpdates node current) m outcome = some path) :
    path = joinPath (downloadsDir node) (artifactName m) := by
  obtain ⟨d, hd, hpath⟩ := Option.bind_eq_some_iff.mp h
  split_ifs at hpath
  cases hpath
  rcases hresult : downloadAndVerify p (nodeUpdates node current) m outcome with e | d'
  · rw [hresult] at hd
    cases hd
  · rw [hresult] at hd
    cases hd
    unfold downloadAndVerify at hresult
    split at hresult
    · cases hresult
    · split at hresult
      · cases hresult
      · cases hresult
      · dsimp only at hresult
        split_ifs at hresult
        cases hresult
        rfl

theorem resolve_downloadsDir (node : NodeEnv) :
    resolveSegments node.cwd (downloadsDir node) = resolveSegments node.cwd node.stateDir ++ [js "downloads"] := by
  unfold downloadsDir
  rw [resolveSegments_joinPath (by decide)]
  rfl

/-- The last piece of the file name is the name of a file. -/
theorem artifactName_split (m : ReleaseManifest) :
    ∃ l name, (artifactName m).splitOn (unit '/') = l ++ [name] ∧ Segment name := by
  obtain ⟨l, w, hs, hname⟩ := splitOn_append (unit '/') (t := js ".tgz") (by decide)
    (js "consensus-node-" ++ m.version ++ js "-" ++ m.platform)
  refine ⟨l, w ++ js ".tgz", hname, ?_, ?_, ?_, ?_⟩
  · exact not_mem_of_mem_splitOn (s := artifactName m) (by unfold artifactName; rw [hname]; simp)
  all_goals
    intro h
    have hlen := congrArg List.length h
    have hfour : (js ".tgz").length = 4 := by decide
    have hdots : (js ".").length = 1 ∧ (js "..").length = 2 := by decide
    simp only [List.length_append, List.length_nil] at hlen
    omega

/-- Two directories with a file each: the texts agree exactly when the segments do. -/
theorem child_eq_iff {l dir : List JsString} {a name : JsString} (hl : ∀ s ∈ l, Segment s) (ha : Segment a)
    (hdir : ∀ s ∈ dir, Segment s) (hne : dir ≠ []) (hname : Segment name) :
    unit '/' :: join (unit '/') (l ++ [a]) = unit '/' :: join (unit '/') dir ++ unit '/' :: name ↔
      l = dir ∧ a = name := by
  rw [List.cons_append, ← join_concat _ _ hne, List.cons_inj_right]
  constructor
  · intro h
    have hsplit := congrArg (List.splitOn (unit '/')) h
    rw [splitOn_join _ (by simp), splitOn_join _ (by simp)] at hsplit
    · exact ⟨(List.append_inj' hsplit rfl).1, by simpa using (List.append_inj' hsplit rfl).2⟩
    · intro s hs
      rcases List.mem_append.mp hs with hs | hs
      · exact (hdir s hs).1
      · rw [List.mem_singleton.mp hs]
        exact hname.1
    · intro s hs
      rcases List.mem_append.mp hs with hs | hs
      · exact (hl s hs).1
      · rw [List.mem_singleton.mp hs]
        exact ha.1
  · rintro ⟨rfl, rfl⟩
    rfl

/-- **The file is one of the download directory** exactly when its name leads back to it. -/
theorem artifact_in_downloads_iff (node : NodeEnv) (current m : ReleaseManifest) (outcome : FetchOutcome)
    (path : JsString) (h : writtenPath (p := p) (nodeUpdates node current) m outcome = some path) :
    FileIn node (downloadsDir node) path ↔ LeadsBack node m := by
  rw [writtenPath_eq_some h]
  obtain ⟨l, name, hsplit, hname⟩ := artifactName_split m
  have hdrop : ((artifactName m).splitOn (unit '/')).dropLast = l := by rw [hsplit, List.dropLast_concat]
  have hdir : resolveSegments node.cwd (downloadsDir node) ≠ [] := by
    rw [resolve_downloadsDir]
    simp
  have hpath : resolveSegments node.cwd (joinPath (downloadsDir node) (artifactName m)) =
      l.foldl segmentStep (resolveSegments node.cwd (downloadsDir node)) ++ [name] := by
    rw [resolveSegments_joinPath rfl, hsplit, List.foldl_concat, segmentStep_segment hname]
  have hdirs : ∀ s ∈ l.foldl segmentStep (resolveSegments node.cwd (downloadsDir node)), Segment s := by
    refine segments_foldl (fun s hs => ?_) segment_resolveSegments
    exact not_mem_of_mem_splitOn (s := artifactName m) (by rw [hsplit]; exact List.mem_append_left _ hs)
  have hback : LeadsBack node m ↔ l.foldl segmentStep (resolveSegments node.cwd (downloadsDir node)) =
      resolveSegments node.cwd (downloadsDir node) := by
    unfold LeadsBack artifactClimb
    rw [hdrop, foldl_segmentStep, walk_back_iff]
  rw [hback]
  unfold FileIn
  rw [normalizeDir_eq, normalizeDir_eq, hpath]
  constructor
  · rintro ⟨name', hname', heq⟩
    exact ((child_eq_iff hdirs hname segment_resolveSegments hdir hname').mp heq).1
  · intro heq
    exact ⟨name, hname, (child_eq_iff hdirs hname segment_resolveSegments hdir hname).mpr ⟨heq, rfl⟩⟩

theorem leadsBack_of_plain {node : NodeEnv} {m : ReleaseManifest} (hversion : unit '/' ∉ m.version)
    (hplatform : unit '/' ∉ m.platform) : LeadsBack node m := by
  have hwhole : unit '/' ∉ artifactName m := by
    unfold artifactName
    simp only [List.mem_append, hversion, hplatform, or_false]
    decide
  have hsplit : (artifactName m).splitOn (unit '/') = [artifactName m] := by
    have hpiece := splitOn_join (l := [artifactName m]) (by simpa using hwhole) (List.cons_ne_nil _ _)
    rwa [show join (unit '/') [artifactName m] = artifactName m by simp [join]] at hpiece
  unfold LeadsBack artifactClimb
  rw [hsplit]
  simp [climbs]

/-! ### Three manifests -/

namespace Sample

/-- The digest of no bytes. -/
def emptyDigest : Bytes :=
  [0xe3, 0xb0, 0xc4, 0x42, 0x98, 0xfc, 0x1c, 0x14, 0x9a, 0xfb, 0xf4, 0xc8, 0x99, 0x6f, 0xb9, 0x24,
    0x27, 0xae, 0x41, 0xe4, 0x64, 0x9b, 0x93, 0x4c, 0xa4, 0x95, 0x99, 0x1b, 0x78, 0x52, 0xb8, 0x55]

def downloadPlatform : Platform := Tables.platform { digests := [([], emptyDigest)] }

def downloadNode : NodeEnv where
  NODE_PORT := none
  CONSENSUS_NODE_INSTALL_DIR := none
  stateDir := js "/s"
  machineRegistryPath := js "/m"
  cwd := js "/"

def downloadEnv : UpdateEnv := nodeUpdates downloadNode release

/-- A manifest with the digest of its artifact as given. -/
def released (version digest : JsString) : ReleaseManifest :=
  { release with version, downloadUrl := some (js "https://d.example/"), tarballSha256 := some digest }

def artifactAt (version : JsString) : JsString := joinPath (js "/s/downloads") (artifactName (released version []))

theorem plain_digest_agrees :
    compareManifests (released (js "2.0.0") (hex emptyDigest)) (released (js "2.0.0") (hex emptyDigest)) = [] :=
  (digests_agree_iff (p := downloadPlatform) downloadEnv (released (js "2.0.0") (hex emptyDigest)) (.bytes [])
    ⟨artifactAt (js "2.0.0"), hex emptyDigest⟩ (by decide)
    (some (js "https://d.example/"))).mpr (by decide)

/-- The digest with `sha256:` in front is accepted, and does not compare as up to date. -/
theorem prefixed_digest_disagrees :
    downloadAndVerify downloadPlatform downloadEnv (released (js "2.0.0") (js "sha256:" ++ hex emptyDigest))
      (.bytes []) = .ok ⟨artifactAt (js "2.0.0"), hex emptyDigest⟩ ∧
    compareManifests (released (js "2.0.0") (hex emptyDigest))
      (released (js "2.0.0") (js "sha256:" ++ hex emptyDigest)) ≠ [] := by decide

theorem plain_version_stays : FileIn downloadNode (js "/s/downloads") (artifactAt (js "2.0.0")) :=
  (artifact_in_downloads_iff (p := downloadPlatform) downloadNode release (released (js "2.0.0") (hex emptyDigest))
    (.bytes []) (artifactAt (js "2.0.0")) (by decide)).mpr
    (leadsBack_of_plain (by decide) (by decide))

/-- A version that leads out of the directory. -/
theorem version_leads_out :
    writtenPath (p := downloadPlatform) downloadEnv (released (js "a/../../x") (hex emptyDigest)) (.bytes []) =
      some (js "/s/x-linux-x64.tgz") ∧
    ¬ FileIn downloadNode (downloadsDir downloadNode) (js "/s/x-linux-x64.tgz") := by
  refine ⟨by decide, ?_⟩
  rintro ⟨name, -, h⟩
  have hprefix : normalizeDir downloadNode (downloadsDir downloadNode) <+:
      normalizeDir downloadNode (js "/s/x-linux-x64.tgz") := ⟨_, h.symm⟩
  exact absurd hprefix (by decide)

end Sample

end ConsensusNode.Clients
