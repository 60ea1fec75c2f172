import ConsensusNode.Js.Path
import ConsensusNode.Lib.ShellWords

/-! # The command of an update

`updateCommand` of `control-client.ts` gives `sh -lc` the text that starts the installer: a path that it quotes, or
the text of a variable as it is. The supervisor sets this variable for its children, to a path that it does not
quote.

* `update_command_quoted`: a path that the client finds itself is the only word of its command, whatever is in it.
* `supervised_command_iff`: the path from the supervisor is the only word if each of its characters is one without a
  meaning (`Sign.plain`), and no white space at its beginning is trimmed. -/

namespace ConsensusNode.Clients

open Js Lib.ShellWords

/-! ### The shell -/

def apostrophe : UInt16 := 0x27

def backslash : UInt16 := 0x5c

/-- The characters that the shell gives a meaning, some of them at some places only (`#`, `~`, `=`, `!` and
braces): outside of quotes these have no reading here. -/
def shellSign (c : UInt16) : Sign :=
  if c = apostrophe then .quote
  else if c = backslash then .backslash
  else if c = 0x20 ∨ c = 0x09 then .blank
  else if c = 0x0a then .newline
  else if c = 0x22 then .doubleQuote
  else if c = 0x24 ∨ c = 0x60 then .expansion
  else if c ∈ js "|&;<>()*?[]#~=!\x7b\x7d" then .special
  else .plain

/-- The same function in `control-client.ts`, `setup-wizard.ts` and `setup.ts`. -/
def shellQuote (value : JsString) : JsString := quoted apostrophe backslash value

theorem shellSign_quote (c : UInt16) : shellSign c = .quote ↔ c = apostrophe := by
  unfold shellSign
  constructor
  · intro h
    by_contra hc
    rw [if_neg hc] at h
    split_ifs at h
  · intro hc
    rw [if_pos hc]

/-! ### Paths -/

/-- `path.join(...parts)`. -/
def joinPaths (parts : List JsString) : JsString := normalizePath (join (unit '/') (parts.filter (· ≠ [])))

theorem normalSegments_name {path name : JsString} {l : List JsString} (hname : Segment name)
    (hpath : path.splitOn (unit '/') = l ++ [name]) : ∃ l', normalSegments path = l' ++ [name] := by
  have hmove : segmentMove name = .down name := by
    obtain ⟨-, hempty, hdot, hup⟩ := hname
    unfold segmentMove
    rw [if_neg (not_or.mpr ⟨hempty, hdot⟩), if_neg hup]
  unfold normalSegments
  dsimp only
  rw [hpath]
  split_ifs
  · exact ⟨_, by rw [List.foldl_append, List.foldl_cons, segmentStep_segment hname, List.foldl_nil]⟩
  · rw [List.map_append, List.map_singleton, hmove]
    unfold Lib.PathSteps.climbs
    rw [List.foldl_append]
    rcases List.foldl Lib.PathSteps.climb (0, []) (l.map segmentMove) with ⟨n, names⟩
    exact ⟨List.replicate n (js "..") ++ names, by simp [Lib.PathSteps.climb]⟩

theorem join_name (l : List JsString) (name : JsString) : ∃ dir, join (unit '/') (l ++ [name]) = dir ++ name := by
  by_cases hl : l = []
  · exact ⟨[], by simp [hl, join, List.intercalate]⟩
  · refine ⟨join (unit '/') l ++ [unit '/'], ?_⟩
    rw [join_concat _ _ hl, List.append_assoc, List.singleton_append]

/-- A joined path ends with its last name. -/
theorem joinPaths_name {name : JsString} (hname : Segment name) (parts : List JsString) :
    ∃ dir, joinPaths (parts ++ [name]) = dir ++ name := by
  obtain ⟨hslash, hempty, -⟩ := id hname
  have hfilter : (parts ++ [name]).filter (· ≠ []) = parts.filter (· ≠ []) ++ [name] := by
    rw [List.filter_append]
    simp [hempty]
  have hself : name.splitOn (unit '/') = [name] := by
    simpa [join, List.intercalate] using splitOn_join (l := [name]) (by simpa using hslash) (by simp)
  unfold joinPaths
  rw [hfilter]
  obtain ⟨l, hsplit⟩ : ∃ l,
      (join (unit '/') (parts.filter (· ≠ []) ++ [name])).splitOn (unit '/') = l ++ [name] := by
    by_cases hparts : parts.filter (· ≠ []) = []
    · refine ⟨[], ?_⟩
      rw [hparts, List.nil_append]
      simpa [join, List.intercalate] using hself
    · refine ⟨(join (unit '/') (parts.filter (· ≠ []))).splitOn (unit '/'), ?_⟩
      rw [join_concat _ _ hparts, List.splitOn_append_cons_self, hself]
  obtain ⟨dir, hdir⟩ := join_name (parts.filter (· ≠ [])) name
  obtain ⟨segments, hsegments⟩ := normalSegments_name hname hsplit
  rw [hdir] at hsegments ⊢
  have hslash' : trailingSlash (dir ++ name) = [] := by
    unfold trailingSlash
    rw [if_neg]
    rw [List.getLast?_append_of_ne_nil _ hempty]
    exact fun h => hslash (List.mem_of_getLast? h)
  obtain ⟨dir', hdir'⟩ := join_name segments name
  have hne : segments ++ [name] ≠ [] := by simp
  unfold normalizePath
  dsimp only
  rw [hsegments, hslash', if_neg hne, if_neg hne, hdir']
  split_ifs
  · exact ⟨unit '/' :: dir', by simp⟩
  · exact ⟨dir', by simp⟩

/-! ### The update command -/

/-- What the choice of the command reads. -/
structure CommandEnv where
  /-- `CONSENSUS_NODE_UPDATE_COMMAND`. -/
  updateCommand : Option JsString
  /-- `CONSENSUS_NODE_INSTALL_DIR`. -/
  installDir : Option JsString
  cwd : JsString
  homedir : JsString
  existsSync : JsString → Bool

def installScript : JsString := js "install-release.sh"

namespace CommandEnv

variable (e : CommandEnv)

def localScript : JsString := joinPaths [e.cwd, js "scripts", installScript]

def installedScript : JsString :=
  let installDir := trim (e.installDir.getD [])
  let installDir := if installDir ≠ [] then installDir else joinPaths [e.homedir, js ".consensus", js "node-runtime"]
  joinPaths [installDir, js "current", js "scripts", installScript]

end CommandEnv

/-- The text for `sh -lc`. -/
def updateCommand (e : CommandEnv) : Option JsString :=
  let explicit := trim (e.updateCommand.getD [])
  if explicit ≠ [] then some explicit
  else if e.existsSync e.localScript then some (shellQuote e.localScript)
  else if e.existsSync e.installedScript then some (shellQuote e.installedScript)
  else none

/-- **A path that the client finds is one word.** Without a command of the operator the client runs the script of its
own directory, or else that of the installed release, or else there is no command. -/
theorem update_command_quoted (e : CommandEnv) (h : trim (e.updateCommand.getD []) = []) :
    (updateCommand e).map (words shellSign) = (([e.localScript, e.installedScript].filter e.existsSync).head?.map
      fun script => some [script]) := by
  have hwords : ∀ s, words shellSign (shellQuote s) = some [s] := fun s => words_quoted shellSign_quote (by decide) s
  unfold updateCommand
  dsimp only
  rw [h, if_neg (by simp)]
  split_ifs with hlocal hinstalled
  · simp [hlocal, hwords]
  · simp [hlocal, hinstalled, hwords]
  · simp [hlocal, hinstalled]

/-! ### Under the supervisor -/

namespace Supervisor

def envOr (value : Option JsString) (fallback : JsString) : JsString :=
  match value with
  | some value => if value.length > 0 then value else fallback
  | none => fallback

variable (e : CommandEnv)

def installDir : JsString := envOr e.installDir (joinPaths [e.homedir, js ".consensus", js "node-runtime"])

def currentDir : JsString := joinPaths [installDir e, js "current"]

/-- The installer of the current release. -/
def currentScript : JsString := joinPaths [currentDir e, js "scripts", installScript]

def updateCommand : JsString := envOr e.updateCommand (currentScript e)

/-- What the control client finds, in the directory `cwd`. -/
def childEnv (cwd : JsString) : CommandEnv where
  updateCommand := some (updateCommand e)
  installDir := some (installDir e)
  cwd := cwd
  homedir := e.homedir
  existsSync := e.existsSync

end Supervisor

open Supervisor (currentScript childEnv)

/-- Of a path to the installer only white space at its beginning is trimmed. -/
theorem trim_installScript (dir : JsString) : trim (dir ++ installScript) = trimStart dir ++ installScript := by
  have hstart : trimStart (dir ++ installScript) = trimStart dir ++ installScript := by
    unfold trimStart
    rw [List.dropWhile_append]
    split_ifs with hdir
    · rw [List.isEmpty_iff.mp hdir]
      rfl
    · rfl
  unfold trim
  rw [hstart]
  unfold trimEnd
  rw [List.reverse_append]
  have hlast : (installScript.reverse ++ (trimStart dir).reverse).dropWhile isSpace =
      installScript.reverse ++ (trimStart dir).reverse := by rfl
  rw [hlast, ← List.reverse_append, List.reverse_reverse]

theorem segment_installScript : Segment installScript := by
  unfold Segment
  decide +kernel

theorem append_installScript_ne (dir : JsString) : dir ++ installScript ≠ [] := by
  have hne : installScript ≠ [] := segment_installScript.2.1
  simp [hne]

theorem currentScript_eq (e : CommandEnv) : ∃ dir, currentScript e = dir ++ installScript :=
  joinPaths_name segment_installScript [Supervisor.currentDir e, js "scripts"]

/-- The children get the path as it is, and the control client trims it. -/
theorem updateCommand_childEnv {e : CommandEnv} (cwd : JsString) (h : e.updateCommand.getD [] = []) :
    updateCommand (childEnv e cwd) = some (trim (currentScript e)) := by
  obtain ⟨dir, hdir⟩ := currentScript_eq e
  have henv : Supervisor.updateCommand e = currentScript e := by
    unfold Supervisor.updateCommand Supervisor.envOr
    rcases hupdate : e.updateCommand with _ | value
    · rfl
    · rw [hupdate, Option.getD_some] at h
      simp [h]
  have hne : trim (currentScript e) ≠ [] := by
    rw [hdir, trim_installScript]
    exact append_installScript_ne _
  unfold updateCommand childEnv
  dsimp only
  rw [henv, Option.getD_some, if_pos hne]

/-- **The path from the supervisor is not quoted.** The installer of the current release is the only word of the
command exactly if nothing of its path is trimmed and each character of it is an ordinary one. -/
theorem supervised_command_iff (e : CommandEnv) (cwd : JsString) (h : e.updateCommand.getD [] = []) :
    (updateCommand (childEnv e cwd)).bind (words shellSign) = some [currentScript e] ↔
      trim (currentScript e) = currentScript e ∧ ∀ c ∈ currentScript e, shellSign c = .plain := by
  rw [updateCommand_childEnv cwd h, Option.bind_some]
  constructor
  · intro hwords
    have hlength := words_length_le hwords
    have htrim : trim (currentScript e) = currentScript e := by
      obtain ⟨dir, hdir⟩ := currentScript_eq e
      rw [List.flatten_singleton, hdir, trim_installScript, List.length_append, List.length_append] at hlength
      have hsuffix : trimStart dir <:+ dir := List.dropWhile_suffix isSpace
      rw [hdir, trim_installScript, hsuffix.eq_of_length_le (by omega)]
    rw [htrim] at hwords
    exact ⟨htrim, (words_eq_singleton.mp hwords).2⟩
  · rintro ⟨htrim, hplain⟩
    obtain ⟨dir, hdir⟩ := currentScript_eq e
    rw [htrim]
    exact words_eq_singleton.mpr ⟨hdir ▸ append_installScript_ne dir, hplain⟩

namespace Sample

/-- A home directory with a blank in its name, and a release in it. -/
def blankHome : CommandEnv where
  updateCommand := none
  installDir := none
  cwd := js "/"
  homedir := js "/Users/Jane Doe"
  existsSync path := path = js "/Users/Jane Doe/.consensus/node-runtime/current/scripts/install-release.sh"

theorem blankHome_quoted : (updateCommand blankHome).map (words shellSign) =
    some (some [js "/Users/Jane Doe/.consensus/node-runtime/current/scripts/install-release.sh"]) := by
  rw [update_command_quoted blankHome (by decide)]
  decide +kernel

theorem blankHome_supervised : (updateCommand (childEnv blankHome (js "/"))).bind (words shellSign) =
      some [js "/Users/Jane", js "Doe/.consensus/node-runtime/current/scripts/install-release.sh"] ∧
    (updateCommand (childEnv blankHome (js "/"))).bind (words shellSign) ≠ some [currentScript blankHome] := by
  refine ⟨by decide +kernel, ?_⟩
  rw [ne_eq, supervised_command_iff blankHome (js "/") (by decide)]
  decide +kernel

end Sample

end ConsensusNode.Clients
