import ConsensusNode.Js.Path
import ConsensusNode.Js.Pretty
import ConsensusNode.Js.Value
import ConsensusNode.Lib.FileProg
import ConsensusNode.Node.SecretStore

/-! # The configuration and the machine registry

The parts of `node/state.ts` and `node/machine.ts` that `registerNode` goes through, as programs on files.
`fs.writeFile` truncates the file and then writes it, in two steps; `chmod` at the end of
`saveMachineRegistry` is left out. `loadConfig` takes anything it cannot read or parse for no
configuration, and `saveConfig` writes in place; the machine registry is written beside and renamed. -/

namespace ConsensusNode.Node

open Js Lib

abbrev NodeProg := FileProg StateFile Bytes JsString JsError

/-- What a process takes from its environment. -/
structure NodeEnv where
  NODE_PORT : Option JsString
  CONSENSUS_NODE_INSTALL_DIR : Option JsString
  stateDir : JsString
  machineRegistryPath : JsString
  cwd : JsString

/-! ### Files -/

/-- An operation that throws unless it succeeds. -/
def must (o : NodeOp) : NodeProg Unit := do
  match ← FileProg.call o with
  | .done => pure ()
  | _ => .thrown .native

def writeFile (file : StateFile) (content : Bytes) : NodeProg Unit := do
  must (.truncate file)
  must (.write file content)

def ensureState : NodeProg Unit := do
  must (.mkdir .base)
  must (.mkdir .keysDir)

def readJson (file : StateFile) (fallback : Json) : NodeProg Json := do
  match ← FileProg.call (.read file) with
  | .data raw => pure ((parse (decodeUtf8 raw)).getD fallback)
  | _ => pure fallback

/-- `dir` is the directory of the file. -/
def writeJson (dir file : StateFile) (value : Json) : NodeProg Unit := do
  must (.mkdir dir)
  writeFile file (utf8 (stringifyPretty value))

/-! ### The configuration -/

/-- `Number(process.env.NODE_PORT || 9090)`; `none` is `NaN`. -/
def fallbackPort (env : NodeEnv) : Option JsNumber :=
  match env.NODE_PORT with
  | some (c :: s) => numberOfText (c :: s)
  | _ => some (JsNumber.ofNat 9090)

/-- The configuration of a node that has none. A `NaN` stands here as JSON writes it; nothing reads it. -/
def defaultConfig (env : NodeEnv) : Json :=
  .obj [(js "port", ((fallbackPort env).map Json.num).getD .null)]

def loadConfig (env : NodeEnv) : NodeProg Json := do
  ensureState
  readJson .config (defaultConfig env)

/-- The configuration in the file. -/
def configOf (env : NodeEnv) (content : Option Bytes) : Json :=
  (content.bind fun raw => parse (decodeUtf8 raw)).getD (defaultConfig env)

def saveConfig (config : Json) : NodeProg Unit := do
  ensureState
  writeJson .base .config config

/-! ### The machine registry -/

structure MachineRegistry where
  machine_id : JsString
  created_at : JsString
  updated_at : JsString
  state_dir : Option JsString
  install_dir : Option JsString
  node_id : Option JsString
  registered_at : Option JsString

/-- The registry with the given `node_id`, which may be any value. -/
def MachineRegistry.withNode (r : MachineRegistry) (node_id : Option Json) : Json :=
  .obj (definedFields [(js "machine_id", some (.str r.machine_id)), (js "created_at", some (.str r.created_at)),
    (js "updated_at", some (.str r.updated_at)), (js "state_dir", r.state_dir.map .str),
    (js "install_dir", r.install_dir.map .str), (js "node_id", node_id),
    (js "registered_at", r.registered_at.map .str)])

/-- What one call draws: a random id, the time, and the name of its temporary file. -/
structure MachineDraws where
  uuid : JsString
  now : JsString
  tmp : ℕ

/-- A text that is present and not empty. -/
def isText (s : Option JsString) : Bool := !(s.getD []).isEmpty

/-- `path.resolve(value)`. -/
def normalizeDir (env : NodeEnv) (value : JsString) : JsString :=
  let whole := if startsWith value [unit '/'] then value else env.cwd ++ unit '/' :: value
  let segments := (whole.splitOn (unit '/')).foldl (fun acc s =>
    if s = [] ∨ s = js "." then acc else if s = js ".." then acc.dropLast else acc ++ [s]) []
  unit '/' :: join (unit '/') segments

theorem normalizeDir_eq (env : NodeEnv) (v : JsString) :
    normalizeDir env v = unit '/' :: join (unit '/') (resolveSegments env.cwd v) := rfl

/-- A resolved path resolves to itself, whatever the working directory. -/
theorem normalizeDir_normalizeDir (env env' : NodeEnv) (v : JsString) :
    normalizeDir env (normalizeDir env' v) = normalizeDir env' v := by
  rw [normalizeDir_eq env', normalizeDir_eq env, resolveSegments_resolved segment_resolveSegments]

/-- A field that holds a text. -/
def textField (v : Json) (k : JsString) : Option JsString :=
  match v.field? k with
  | some (.str s) => some s
  | _ => none

/-- The registry in a file; an exception if it is none. -/
def parseMachineRegistry (env : NodeEnv) (now : JsString) (raw : Bytes) : Except JsError MachineRegistry := do
  match parse (decodeUtf8 raw) with
  | none => throw .native
  | some parsed =>
    let _ ← parsed.get (js "machine_id")
    match textField parsed (js "machine_id") with
    | some (c :: s) =>
      return { machine_id := c :: s
               created_at := (textField parsed (js "created_at")).getD now
               updated_at := (textField parsed (js "updated_at")).getD now
               state_dir := textField parsed (js "state_dir")
               install_dir := textField parsed (js "install_dir")
               node_id := textField parsed (js "node_id")
               registered_at := textField parsed (js "registered_at") }
    | _ => throw (.thrown (js "Machine registry is missing machine_id at " ++ env.machineRegistryPath))

def loadMachineRegistry (env : NodeEnv) (now : JsString) : NodeProg (Option MachineRegistry) := do
  match ← FileProg.call (.read .machine) with
  | .data raw => return some (← FileProg.ofExcept (parseMachineRegistry env now raw))
  | .absent => return none
  | _ => .thrown .native

def saveMachineRegistry (tmp : ℕ) (registry : Json) : NodeProg Unit := do
  must (.mkdir .machineDir)
  writeFile (.tmp tmp) (utf8 (stringifyPretty registry))
  must (.rename (.tmp tmp) .machine)

def loadOrCreateMachineRegistry (env : NodeEnv) (c : MachineDraws) : NodeProg MachineRegistry := do
  match ← loadMachineRegistry env c.now with
  | some existing => return existing
  | none =>
    let registry : MachineRegistry := ⟨c.uuid, c.now, c.now, none, none, none, none⟩
    saveMachineRegistry c.tmp (registry.withNode none)
    return registry

/-- The three checks of `assertMachineCanRegister`. -/
def checkMachine (env : NodeEnv) (registry : MachineRegistry) (existingNodeId : Option Json) :
    Except JsError Unit := do
  let already := js "This machine is already registered as " ++ registry.node_id.getD []
  if isText registry.node_id && isText registry.state_dir &&
      normalizeDir env (registry.state_dir.getD []) != normalizeDir env env.stateDir then
    throw (.thrown (already ++ js " using state " ++ registry.state_dir.getD [] ++
      js ". Consensus allows one node per machine; use that existing node state instead of registering another."))
  if isText registry.node_id && !isText registry.state_dir && !Json.truthy existingNodeId then
    throw (.thrown (already ++
      js ". Consensus allows one node per machine; use the existing node state instead of registering another."))
  if isText registry.node_id && Json.truthy existingNodeId &&
      registry.node_id.map Json.str != existingNodeId then
    throw (.thrown (already ++ js "; current state has " ++ (← toStr (existingNodeId.getD .null)) ++
      js ". Consensus allows one node per machine."))

def assertMachineCanRegister (env : NodeEnv) (c : MachineDraws) (existingNodeId : Option Json) :
    NodeProg MachineRegistry := do
  let registry ← loadOrCreateMachineRegistry env c
  FileProg.ofExcept (checkMachine env registry existingNodeId)
  return registry

/-- `nodeId` is whatever the join response has for it; `installDir` is not empty. -/
def claimMachineNode (env : NodeEnv) (c c' : MachineDraws) (nodeId : Option Json)
    (installDir : Option JsString) : NodeProg Unit := do
  let registry ← assertMachineCanRegister env c nodeId
  let next : MachineRegistry := { registry with
    state_dir := some (normalizeDir env env.stateDir)
    install_dir := (installDir.map (normalizeDir env)).or registry.install_dir
    registered_at := some (registry.registered_at.getD c'.now)
    updated_at := c'.now }
  saveMachineRegistry c'.tmp (next.withNode nodeId)

/-! ### What the programs leave alone -/

/-- No operation is refused. -/
def allowed (_ : NodeOp) : Option JsString := none

open FileProg

theorem spares_must {q : StateFile} {o : NodeOp} (h : o.changes q = false) : Spares q (must o) := by
  refine Spares.bind (fun a => ?_) (spares_call h)
  rcases a with _ | b | _ | code
  · trivial
  · trivial
  · trivial
  · trivial

theorem spares_saveMachineRegistry (tmp : ℕ) (registry : Json) :
    Spares .config (saveMachineRegistry tmp registry) :=
  Spares.bind (fun _ => Spares.bind (fun _ => spares_must rfl)
    (Spares.bind (fun _ => spares_must rfl) (spares_must rfl))) (spares_must rfl)

theorem spares_loadMachineRegistry (env : NodeEnv) (now : JsString) :
    Spares .config (loadMachineRegistry env now) := by
  refine Spares.bind (fun a => ?_) (spares_call rfl)
  rcases a with _ | b | _ | code
  · trivial
  · exact Spares.bind (fun _ => by trivial) (spares_ofExcept _)
  · trivial
  · trivial

theorem spares_assertMachineCanRegister (env : NodeEnv) (c : MachineDraws) (existingNodeId : Option Json) :
    Spares .config (assertMachineCanRegister env c existingNodeId) := by
  have hload : Spares .config (loadOrCreateMachineRegistry env c) := by
    refine Spares.bind (fun r => ?_) (spares_loadMachineRegistry env c.now)
    rcases r with _ | r
    · exact Spares.bind (fun _ => by trivial) (spares_saveMachineRegistry _ _)
    · trivial
  exact Spares.bind (fun _ => Spares.bind (fun _ => by trivial) (spares_ofExcept _)) hload

theorem spares_claimMachineNode (env : NodeEnv) (c c' : MachineDraws) (nodeId : Option Json)
    (installDir : Option JsString) : Spares .config (claimMachineNode env c c' nodeId installDir) :=
  Spares.bind (fun _ => spares_saveMachineRegistry _ _) (spares_assertMachineCanRegister env c nodeId)

/-! ### Loading and saving -/

/-- The history that the results below are about: whether `config.json` has been changed. -/
def seeConfig (changed : Bool) (o : NodeOp) : Bool := changed || o.changes .config

theorem seeConfig_of_not_changes {b : Bool} (o : NodeOp) (h : o.changes .config = false) :
    seeConfig b o = b := by
  simp [seeConfig, h]

theorem readConfig_resume (env : NodeEnv) (d : Disk StateFile Bytes) :
    (readJson .config (defaultConfig env)).resume (exec [] allowed d (.read .config)).1 =
      .ret (configOf env (d .config)) := by
  rcases hd : d .config with _ | raw
  · have hexec : exec [] allowed d (.read .config) = (.absent, d) := by simp [exec, allowed, hd]
    rw [hexec]
    rfl
  · have hexec : exec [] allowed d (.read .config) = (.data raw, d) := by simp [exec, allowed, hd]
    rw [hexec]
    rfl

/-- `loadConfig` returns what is in the file. -/
theorem loadConfig_alone (env : NodeEnv) (d : Disk StateFile Bytes) :
    machine.alone [] allowed 3 (loadConfig env, d) = (.ret (configOf env (d .config)), d) := by
  have hread : machine.alone [] allowed 3 (loadConfig env, d) =
      ((readJson .config (defaultConfig env)).resume (exec [] allowed d (.read .config)).1, d) := rfl
  rw [hread, readConfig_resume]

theorem meets_loadConfig {env : NodeEnv} {C : Bool → Option NodeOp → Disk StateFile Bytes → Prop}
    {Q : Json → Bool → Disk StateFile Bytes → Prop} {d : Disk StateFile Bytes} (hC : ∀ o, C false o d)
    (hQ : Q (configOf env (d .config)) false d) :
    Meets [] allowed seeConfig C Q (loadConfig env) false d := by
  refine ⟨hC _, hC _, hC _, ?_⟩
  show Meets [] allowed seeConfig C Q
    ((readJson .config (defaultConfig env)).resume (exec [] allowed d (.read .config)).1) false d
  rw [readConfig_resume]
  exact hQ

/-- The next operation writes the configuration into the truncated file. -/
def isTorn : Option NodeOp → Bool
  | some (.write .config _) => true
  | _ => false

/-- The content of the file for a configuration. -/
def configText (config : Json) : Bytes := utf8 (stringifyPretty config)

theorem meets_saveConfig {C : Bool → Option NodeOp → Disk StateFile Bytes → Prop}
    {Q : Unit → Bool → Disk StateFile Bytes → Prop} {d : Disk StateFile Bytes} {config : Json}
    (hC : ∀ o, C false o d) (htorn : ∀ o d', isTorn o = true → C true o d')
    (hQ : ∀ d', d' .config = some (configText config) → Q () true d') :
    Meets [] allowed seeConfig C Q (saveConfig config) false d := by
  refine ⟨hC _, hC _, hC _, hC _, htorn _ _ rfl, ?_⟩
  refine hQ _ ?_
  simp [exec, allowed, configText]

end ConsensusNode.Node
